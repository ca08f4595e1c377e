/-!
# StationManager.Lib.Text

Text operations of Python that messages and decisions are made of.  The
conversion `!r` puts the `repr` of a string into a message: the quote is chosen
by what the text contains, and what would end or break the literal is escaped.
-/

namespace StationManager

/-- One character inside a quoted literal. -/
def reprChar (quote : Char) (c : Char) : List Char :=
  if c = quote ∨ c = '\\' then ['\\', c]
  else if c = '\t' then ['\\', 't']
  else if c = '\n' then ['\\', 'n']
  else if c = '\r' then ['\\', 'r']
  else if c.toNat < 32 ∨ c.toNat = 127 then
    ['\\', 'x', Nat.digitChar (c.toNat / 16), Nat.digitChar (c.toNat % 16)]
  else [c]

/-- The conversion `!r` of a message; a non-ASCII character counts as
printable. -/
def reprStr (s : String) : String :=
  let quote := if '\'' ∈ s.toList ∧ '"' ∉ s.toList then '"' else '\''
  String.ofList (quote :: s.toList.flatMap (reprChar quote) ++ [quote])

/-- Python's `needle in text`. -/
def occursIn (needle text : String) : Bool :=
  (List.range (text.length + 1)).any fun n => needle.toList.isPrefixOf (text.toList.drop n)

/-- Python's `text.startswith(start)`. -/
def startsWith (text start : String) : Bool := start.toList.isPrefixOf text.toList

example : occursIn "FAIL" "Disk FAIL: no space" = true := by decide

/-- Python's `str.isspace` of a character, which is also its `\s`. -/
def isSpace (c : Char) : Bool :=
  let n := c.toNat
  (9 ≤ n && n ≤ 13) || (0x1C ≤ n && n ≤ 0x20) || n = 0x85 || n = 0xA0 || n = 0x1680 ||
    (0x2000 ≤ n && n ≤ 0x200A) || n = 0x2028 || n = 0x2029 || n = 0x202F || n = 0x205F || n = 0x3000

/-- Python's `text.strip()`, as characters. -/
def strip (text : String) : List Char :=
  ((text.toList.dropWhile isSpace).reverse.dropWhile isSpace).reverse

/-! ## decimal numbers -/

/-- The zeros of the decimal digits that Unicode has beside ASCII; 1 to 9 follow each. -/
def scriptZeros : List Nat :=
  [0x660, 0x6F0, 0x7C0, 0x966, 0x9E6, 0xA66, 0xAE6, 0xB66, 0xBE6, 0xC66, 0xCE6, 0xD66, 0xDE6,
   0xE50, 0xED0, 0xF20, 0x1040, 0x1090, 0x17E0, 0x1810, 0x1946, 0x19D0, 0x1A80, 0x1A90, 0x1B50,
   0x1BB0, 0x1C40, 0x1C50, 0xA620, 0xA8D0, 0xA900, 0xA9D0, 0xA9F0, 0xAA50, 0xABF0, 0xFF10, 0x104A0,
   0x10D30, 0x10D40, 0x11066, 0x110F0, 0x11136, 0x111D0, 0x112F0, 0x11450, 0x114D0, 0x11650,
   0x116C0, 0x116D0, 0x116DA, 0x11730, 0x118E0, 0x11950, 0x11BF0, 0x11C50, 0x11D50, 0x11DA0,
   0x11F50, 0x16130, 0x16A60, 0x16AC0, 0x16B50, 0x16D70, 0x1CCF0, 0x1D7CE, 0x1D7D8, 0x1D7E2,
   0x1D7EC, 0x1D7F6, 0x1E140, 0x1E2F0, 0x1E4F0, 0x1E5F1, 0x1E950, 0x1FBF0]

/-- The value of a decimal digit of any script. -/
def digit? (c : Char) : Option Nat :=
  (('0'.toNat :: scriptZeros).find? fun z => z ≤ c.toNat && c.toNat < z + 10).map (c.toNat - ·)

/-- Python's `str.isdecimal` of a character, which is also its `\d`. -/
def isDecimal (c : Char) : Bool := (digit? c).isSome

/-- The number that decimal digits stand for. -/
def decimal? (digits : List Char) : Option Nat :=
  if digits = [] then none
  else digits.foldlM (fun n c => (digit? c).map (n * 10 + ·)) 0

example : decimal? (strip " 12 ") = some 12 := by decide

/-- The decimal number at the start of a text, of digits of the given kind, and what follows
it. -/
def leadingDecimal? (isDigit : Char → Bool) (text : List Char) : Option (Nat × List Char) :=
  (decimal? (text.takeWhile isDigit)).map fun n => (n, text.dropWhile isDigit)

theorem toNat_of_isDigit {c : Char} (h : c.isDigit = true) : 48 ≤ c.toNat ∧ c.toNat ≤ 57 := by
  rw [Char.isDigit, Bool.and_eq_true, decide_eq_true_eq, decide_eq_true_eq] at h
  exact ⟨UInt32.le_iff_toNat_le.mp h.1, UInt32.le_iff_toNat_le.mp h.2⟩

theorem digit?_of_isDigit {c : Char} (h : c.isDigit = true) :
    digit? c = some (c.toNat - '0'.toNat) := by
  have hrange := toNat_of_isDigit h
  have hfirst : ('0'.toNat ≤ c.toNat && c.toNat < '0'.toNat + 10) = true := by
    rw [Bool.and_eq_true, decide_eq_true_eq, decide_eq_true_eq]
    exact ⟨hrange.1, Nat.lt_succ_of_le hrange.2⟩
  rw [digit?, List.find?_cons, hfirst]
  rfl

theorem isDecimal_of_isDigit {c : Char} (h : c.isDigit = true) : isDecimal c = true := by
  rw [isDecimal, digit?_of_isDigit h, Option.isSome_some]

theorem isSpace_of_isDigit {c : Char} (h : c.isDigit = true) : isSpace c = false := by
  have hrange := toNat_of_isDigit h
  simp only [isSpace, Bool.or_eq_false_iff, Bool.and_eq_false_iff, decide_eq_false_iff_not]
  omega

theorem foldlM_digit? {digits : List Char} (h : ∀ c ∈ digits, c.isDigit = true) (n : Nat) :
    digits.foldlM (fun n c => (digit? c).map (n * 10 + ·)) n =
      some (digits.foldl (fun n c => n * 10 + (c.toNat - '0'.toNat)) n) := by
  induction digits generalizing n with
  | nil => rfl
  | cons c digits ih =>
    rw [List.foldlM_cons, digit?_of_isDigit (h c List.mem_cons_self)]
    exact ih (fun d hd => h d (List.mem_cons_of_mem _ hd)) _

theorem isDigit_of_mem_digits {n : Nat} {c : Char} (h : c ∈ Nat.toDigits 10 n) :
    c.isDigit = true := Nat.isDigit_of_mem_toDigits (by decide) (by decide) h

theorem decimal?_toDigits (n : Nat) : decimal? (Nat.toDigits 10 n) = some n := by
  have hvalue := Nat.ofDigitChars_toDigits (b := 10) (n := n) (by decide) (by decide)
  simp only [Nat.ofDigitChars_eq_foldl, Nat.mul_comm 10] at hvalue
  rw [decimal?, if_neg Nat.toDigits_ne_nil, foldlM_digit? fun _ => isDigit_of_mem_digits, hvalue]

theorem toList_toString (n : Nat) : (toString n).toList = Nat.toDigits 10 n := by
  simp [toString, Nat.repr]

/-- A number does not start with a blank. -/
theorem dropWhile_isSpace_toString (n : Nat) (rest : List Char) :
    ((toString n).toList ++ rest).dropWhile isSpace = (toString n).toList ++ rest := by
  rw [toList_toString]
  cases hd : Nat.toDigits 10 n with
  | nil => exact absurd hd Nat.toDigits_ne_nil
  | cons d ds =>
    have hdigit : d.isDigit = true := isDigit_of_mem_digits (hd ▸ List.mem_cons_self)
    exact List.dropWhile_cons_of_neg (by simp [isSpace_of_isDigit hdigit])

/-- A number that was written out reads back, up to the first character that is no digit. -/
theorem leadingDecimal?_toString (n : Nat) {c : Char} (rest : List Char) (hc : isDecimal c = false) :
    leadingDecimal? isDecimal ((toString n).toList ++ c :: rest) = some (n, c :: rest) := by
  have hdigits : ∀ d ∈ Nat.toDigits 10 n, isDecimal d = true := fun d hd =>
    isDecimal_of_isDigit (isDigit_of_mem_digits hd)
  rw [leadingDecimal?, toList_toString, List.takeWhile_append_of_pos hdigits,
    List.dropWhile_append_of_pos hdigits, List.takeWhile_cons_of_neg (by simp [hc]),
    List.dropWhile_cons_of_neg (by simp [hc]), List.append_nil, decimal?_toDigits]
  rfl

/-- The number of decimal digits that single underscores may group. -/
def grouped? (digits : List Char) : Option Nat :=
  let groups := digits.splitOn '_'
  if groups.all (· ≠ []) then decimal? groups.flatten else none

/-- Python's `int(text)`; `none` is its `ValueError`. -/
def int? (text : List Char) : Option Int :=
  match strip (String.ofList text) with
  | '-' :: digits => (grouped? digits).map fun n => -(n : Int)
  | '+' :: digits => (grouped? digits).map fun n => (n : Int)
  | digits => (grouped? digits).map fun n => (n : Int)

example : int? " -1_0".toList = some (-10) := by decide

end StationManager
