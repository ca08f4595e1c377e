import StationManager.Accounts.Models
import StationManager.Lib.Raising
import StationManager.Lib.Text

/-!
# StationManager.Accounts.StationAssignments

`StationAssignmentCreateView.post`: give a user a role at a station.  A station has
at most one admin, and a request for that role may take it over: inside one
transaction the old admin's row is deleted and the new one created.

What the view refuses before the deletion leaves the table alone, and a database
error inside the block rolls the deletion back.  A refusal by the model's own
validation comes after the deletion and is caught inside the block, which then
commits.
-/

namespace StationManager.Accounts.Topology

/-- The tables of one request. -/
structure Db where
  users : Table Pk User
  stations : List Pk
  assignments : Assignments

/-- Exceptions of the view and of what it calls. -/
inductive Exc where
  | http404
  | valueError
  | doesNotExist
  | validationError (text : String)
  | integrityError
deriving DecidableEq, Repr

/-- Responses of the view. -/
inductive Response where
  /-- status 200 -/
  | success (unchanged : Bool)
  /-- status 400 -/
  | badRequest (text : String)
  /-- status 409 -/
  | adminConflict (currentAdminUsername : String) (currentAdminId : Pk)
deriving DecidableEq, Repr

/-- A request: the user of the path, the fields of the form, and who sent it.  `raced`
says whether another transaction commits a conflicting row after the checks. -/
structure Request where
  userPk : Pk
  station : Option String
  role : Option String
  takeover : Option String
  sender : Pk
  raced : Bool := false

namespace Request

/-- The role field, stripped. -/
def roleText (req : Request) : String := String.ofList (strip (req.role.getD ""))

/-- The number of the station field. -/
def stationNumber (req : Request) : Option Int := req.station.bind fun text => int? text.toList

/-- `request.POST.get("takeover") == "1"` -/
def takesOver (req : Request) : Bool := req.takeover = some "1"

end Request

open Prog

/-- `get_object_or_404(User, pk=user_pk, deleted_at__isnull=True)` -/
def targetOf (req : Request) : Prog Db Exc User := do
  match ← read fun db => (db.users.get? req.userPk).filter (·.deletedAt = none) with
  | none => raise .http404
  | some user => return user

/-- `get_object_or_404(Station, pk=station_pk)`; a text that is no number is a `ValueError`. -/
def stationOf (req : Request) : Prog Db Exc Pk :=
  match req.stationNumber with
  | none => if req.station = none then raise .http404 else raise .valueError
  | some n => do
      match ← read fun db => db.stations.find? fun k : Pk => (k : Int) = n with
      | none => raise .http404
      | some station => return station

/-- What `_ApplicantForbiddenMixin.clean` refuses an applicant with. -/
def applicantText : String :=
  "\x7b'user': ['Vereins-Bewerber können keine Topology-Rolle haben. " ++
    "Den User erst zu Vereins-Mitglied promoten.']\x7d"

/-- `StationAssignment.objects.create`: the mixin's `save` validates the instance, the
constraints are left to the database. -/
def create (req : Request) (target : User) (station : Pk) (role : Role) :
    Prog (Txn Db) Exc Unit := do
  if target.isApplicant then raise (.validationError applicantText)
  else do
    let row : StationAssignment :=
      { user := req.userPk, station := station, role := role, assignedBy := some req.sender }
    match ← query fun db => if req.raced then none else db.assignments.insert row with
    | none => fail .integrityError
    | some rows => update fun db => { db with assignments := rows }

/-- The innermost `try` of the view: a refused row is answered from inside the block. -/
def createAdmin (req : Request) (target : User) (station : Pk) :
    Prog (Txn Db) Exc (Option Response) :=
  tryCatch (do create req target station .admin; return none) fun
    | .validationError text => return some (.badRequest text)
    | .integrityError => return some (.badRequest
        "Concurrent change blocked the assignment. Refresh and try again.")
    | e => raise e

/-- The body of the block; `none` is a block that ran to its end. -/
def adminBlock (req : Request) (target : User) (station : Pk) :
    Prog (Txn Db) Exc (Option Response) := do
  match ← query fun db => db.stations.find? (· = station) with
  | none => raise .doesNotExist
  | some _ =>
  match ← query fun db =>
      db.assignments.first? fun a => a.station = station ∧ a.user = req.userPk with
  | some (_, existingTarget) =>
    if existingTarget.role = .admin then return some (.success true)
    else return some (.badRequest
      "Target already has another assignment on this station. Revoke it first.")
  | none =>
  match ← query fun db =>
      db.assignments.first? fun a => a.station = station ∧ a.role = .admin with
  | none => createAdmin req target station
  | some (k, existingAdmin) =>
    if req.takesOver then do
      update fun db => { db with assignments := db.assignments.delete k }
      createAdmin req target station
    else do
      let name ← query fun db => ((db.users.get? existingAdmin.user).map User.username).getD ""
      return some (.adminConflict name existingAdmin.user)

/-- `StationAssignmentCreateView.post` for the admin role. -/
def postAdmin (req : Request) (target : User) (station : Pk) : Prog Db Exc Response :=
  tryCatch
    (do
      match ← atomic (adminBlock req target station) with
      | some response => return response
      | none => return .success false)
    fun
    | .validationError text => return .badRequest text
    | e => raise e

/-- `StationAssignmentCreateView.post` for the other role. -/
def postMaintainer (req : Request) (target : User) (station : Pk) : Prog Db Exc Response :=
  tryCatch
    (do
      atomic (create req target station .maintainer)
      return .success false)
    fun
    | .validationError text => return .badRequest text
    | .integrityError => return .badRequest "Assignment already exists."
    | e => raise e

/-- `StationAssignmentCreateView.post` -/
def post (req : Request) : Prog Db Exc Response := do
  let target ← targetOf req
  let station ← stationOf req
  if req.roleText = "admin" then postAdmin req target station
  else if req.roleText = "maintainer" then postMaintainer req target station
  else return .badRequest ("Invalid role: " ++ reprStr req.roleText)

/-! ## each part of the view -/

/-- What a refused or an accepted row leaves in the block. -/
inductive Created (req : Request) (target : User) (station : Pk) (t : Txn Db) :
    Option Response → Txn Db → Prop where
  | applicant (h : target.isApplicant = true) :
      Created req target station t (some (.badRequest applicantText)) t
  | conflict (text : String) (t' : Txn Db) (hmember : target.isApplicant ≠ true)
      (h : t'.needsRollback = true) :
      Created req target station t (some (.badRequest text)) t'
  | created (t' : Txn Db) (hmember : target.isApplicant ≠ true)
      (h : t'.needsRollback = t.needsRollback)
      (hrow : t'.data.assignments.Holds req.userPk station .admin) :
      Created req target station t none t'

variable {req : Request} {target : User} {station : Pk} {db : Db} {t : Txn Db}

theorem wp_create (role : Role) : wp (create req target station role)
    (fun _ t' => target.isApplicant ≠ true ∧ t'.needsRollback = t.needsRollback ∧
      t'.data.assignments.Holds req.userPk station role)
    (fun e t' => (target.isApplicant = true ∧ e = .validationError applicantText ∧ t' = t) ∨
      target.isApplicant ≠ true ∧ e = .integrityError ∧ t'.needsRollback = true) t := by
  refine wp_ite (fun happ => wp_raise (.inl ⟨happ, rfl, rfl⟩)) fun hmember => wp_bind (wp_read ?_)
  split
  · exact wp_answer (fun _ h => by cases h) fun e h => by cases h; exact .inr ⟨hmember, rfl, rfl⟩
  · next rows hrows =>
    refine wp_change ⟨hmember, rfl, ?_⟩
    by_cases hraced : req.raced = true
    · simp [hraced] at hrows
    · simp only [hraced] at hrows
      exact Assignments.holds_insert hrows

theorem wp_createAdmin : wp (createAdmin req target station)
    (Created req target station t) (fun _ _ => False) t := by
  refine wp_tryCatch (wp_bind (wp_mono (wp_create .admin) (fun _ t' h => ?_) fun e t' h => ?_))
  · exact wp_pure (.created t' h.1 h.2.1 h.2.2)
  · rcases h with ⟨happ, rfl, rfl⟩ | ⟨hmember, rfl, hrollback⟩
    · exact wp_pure (.applicant happ)
    · exact wp_pure (.conflict _ t' hmember hrollback)

/-- The request would have an applicant take the station over from its admin. -/
def Request.ApplicantTakesOver (req : Request) (target : User) (station : Pk) (db : Db) : Prop :=
  target.isApplicant = true ∧ req.takesOver = true ∧
    (∃ other, db.assignments.Holds other station .admin) ∧
    ∀ role, ¬ db.assignments.Holds req.userPk station role

/-- What the block leaves committed: the new admin or the old table. -/
def Settled (req : Request) (station : Pk) (db : Db) (r : Response) (db' : Db) : Prop :=
  (∃ unchanged, r = .success unchanged ∧ db'.assignments.OnlyAdmin req.userPk station) ∨
    (∀ unchanged, r ≠ .success unchanged) ∧ db'.assignments = db.assignments

/-- The response of the whole request to an answer of the block. -/
def answered (r : Option Response) : Response := r.getD (.success false)

/-- A row that the database refused leaves the table, one that the model refused leaves what
the block has made of it. -/
theorem Created.settled_iff {r : Option Response} {t' : Txn Db}
    (h : Created req target station t r t') (hopen : t.needsRollback = false) :
    Settled req station db (answered r) (t'.committed db) ↔
      (target.isApplicant = true → t.data.assignments = db.assignments) := by
  cases h with
  | applicant happ => simp [Settled, answered, Txn.committed, hopen, happ]
  | conflict text t' hmember hrollback =>
    refine iff_of_true (.inr ⟨by simp [answered], ?_⟩) fun happ => absurd happ hmember
    simp [Txn.committed, hrollback]
  | created t' hmember hcommit hrow =>
    refine iff_of_true (.inl ⟨false, rfl, ?_⟩) fun happ => absurd happ hmember
    simpa [Txn.committed, hcommit, hopen] using hrow.onlyAdmin

theorem wp_adminBlock (hstation : station ∈ db.stations) : wp (adminBlock req target station)
    (fun r t' => Settled req station db (answered r) (t'.committed db) ↔
      ¬ req.ApplicantTakesOver target station db) (fun _ _ => False) ⟨db, false⟩ := by
  refine wp_bind (wp_read ?_)
  split
  · next hnone => exact absurd (List.find?_eq_none.mp hnone station hstation) (by simp)
  refine wp_bind (wp_read ?_)
  split
  · next k a hfirst =>
    -- the target already has a role here: nothing was written
    obtain ⟨hget, hrow⟩ := Assignments.first?_eq_some hfirst
    simp only [decide_eq_true_eq] at hrow
    have hfree : ¬ req.ApplicantTakesOver target station db := fun h =>
      h.2.2.2 a.role ⟨k, a, hget, hrow.2, hrow.1, rfl⟩
    refine wp_ite (fun hadmin => wp_pure (iff_of_true (.inl ⟨true, rfl, ?_⟩) hfree))
      fun _ => wp_pure (iff_of_true (.inr ⟨?_, rfl⟩) hfree)
    · have hholds : db.assignments.Holds req.userPk station .admin :=
        ⟨k, a, hget, hrow.2, hrow.1, hadmin⟩
      exact hholds.onlyAdmin
    · simp [answered]
  next hnone =>
  refine wp_bind (wp_read ?_)
  split
  · next hvacant =>
    have hfree : ¬ req.ApplicantTakesOver target station db := by
      rintro ⟨-, -, ⟨other, k, a, hget, -, hat, hadmin⟩, -⟩
      have hno := Assignments.first?_eq_none.mp hvacant k a hget
      simp [hat, hadmin] at hno
    refine wp_mono wp_createAdmin (fun r t' hr => ?_) fun _ _ he => he.elim
    exact (hr.settled_iff rfl).trans (iff_of_true (fun _ => rfl) hfree)
  · next k a hfirst =>
    obtain ⟨hget, hrow⟩ := Assignments.first?_eq_some hfirst
    simp only [decide_eq_true_eq] at hrow
    refine wp_ite (fun htakes => wp_bind (wp_change ?_)) fun hasks => ?_
    · -- the old admin's row is gone: only a rollback brings it back
      refine wp_mono wp_createAdmin (fun r t' hr => (hr.settled_iff rfl).trans ?_)
        fun _ _ he => he.elim
      have hgone : db.assignments.delete k ≠ db.assignments := fun heq => by
        have herased : (db.assignments.delete k).rows.get? k = none := by
          simp [Assignments.delete, Table.get?_erase]
        rw [heq, hget] at herased
        cases herased
      refine ⟨fun hkept h => hgone (hkept h.1), fun h happ => absurd ⟨happ, htakes, ?_, ?_⟩ h⟩
      · exact ⟨a.user, k, a, hget, rfl, hrow.1, hrow.2⟩
      · rintro role ⟨j, b, hb, hbu, hbs, -⟩
        have hfree := Assignments.first?_eq_none.mp hnone j b hb
        simp [hbu, hbs] at hfree
    · refine wp_bind (wp_read (wp_pure (iff_of_true (.inr ⟨by simp [answered], rfl⟩) ?_)))
      exact fun h => hasks h.2.1

theorem wp_postAdmin (hstation : station ∈ db.stations) : wp (postAdmin req target station)
    (fun r db' => Settled req station db r db' ↔ ¬ req.ApplicantTakesOver target station db)
    (fun _ _ => False) db := by
  refine wp_tryCatch (wp_bind (wp_atomic (wp_mono (wp_adminBlock hstation) (fun r t' hr => ?_)
    fun _ _ he => he.elim)))
  cases r with
  | none => exact wp_pure hr
  | some r => exact wp_pure hr

/-! ## the request -/

/-- The user of the path, if there is one that is not deleted. -/
def Request.target? (req : Request) (db : Db) : Option User :=
  (db.users.get? req.userPk).filter (·.deletedAt = none)

/-- The station of the form, if it exists. -/
def Request.station? (req : Request) (db : Db) : Option Pk :=
  req.stationNumber.bind fun n => db.stations.find? fun k : Pk => (k : Int) = n

/-- The request reaches the block and has an applicant take the station over. -/
def Request.Dispossesses (req : Request) (db : Db) : Prop :=
  ∃ target station, req.target? db = some target ∧ req.station? db = some station ∧
    req.ApplicantTakesOver target station db

theorem wp_targetOf : wp (targetOf req)
    (fun target db' => req.target? db = some target ∧ db' = db)
    (fun _ db' => req.target? db = none ∧ db' = db) db := by
  refine wp_bind (wp_read ?_)
  split
  · next hnone => exact wp_raise ⟨hnone, rfl⟩
  · next target htarget => exact wp_pure ⟨htarget, rfl⟩

theorem wp_stationOf : wp (stationOf req)
    (fun station db' => req.station? db = some station ∧ db' = db)
    (fun _ db' => req.station? db = none ∧ db' = db) db := by
  unfold stationOf Request.station?
  cases hnumber : req.stationNumber with
  | none => exact wp_ite (fun _ => wp_raise ⟨rfl, rfl⟩) fun _ => wp_raise ⟨rfl, rfl⟩
  | some n =>
    refine wp_bind (wp_read ?_)
    split
    · next hnone => exact wp_raise ⟨hnone, rfl⟩
    · next station hstation => exact wp_pure ⟨hstation, rfl⟩

theorem station?_eq_some (h : req.station? db = some station) :
    req.stationNumber = some (station : Int) ∧ station ∈ db.stations := by
  obtain ⟨n, hn, hfind⟩ := Option.bind_eq_some_iff.mp h
  have hsame : (station : Int) = n := by simpa using List.find?_some hfind
  exact ⟨hsame ▸ hn, List.mem_of_find?_eq_some hfind⟩

theorem ends_create (role : Role) : (create req target station role).Ends := by
  refine .ite (.raise _) (.bind (.answer _ _) fun row => ?_)
  cases row with
  | none => exact .answer _ _
  | some row => exact .change _

theorem ends_createAdmin : (createAdmin req target station).Ends := by
  refine .tryCatch (.bind (ends_create .admin) fun _ => .pure _) fun e => ?_
  cases e <;> first | exact .pure _ | exact .raise _

theorem ends_adminBlock : (adminBlock req target station).Ends := by
  refine .bind (.answer _ _) fun locked => ?_
  cases locked with
  | none => exact .raise _
  | some _ =>
    refine .bind (.answer _ _) fun existing => ?_
    cases existing with
    | some a => exact .ite (.pure _) (.pure _)
    | none =>
      refine .bind (.answer _ _) fun existingAdmin => ?_
      cases existingAdmin with
      | none => exact ends_createAdmin
      | some a =>
        exact .ite (.bind (.change _) fun _ => ends_createAdmin)
          (.bind (.answer _ _) fun _ => .pure _)

theorem ends_postAdmin : (postAdmin req target station).Ends := by
  refine .tryCatch (.bind ends_adminBlock.atomic fun r => ?_) fun e => ?_
  · cases r <;> exact .pure _
  · cases e <;> first | exact .pure _ | exact .raise _

theorem ends_postMaintainer : (postMaintainer req target station).Ends := by
  refine .tryCatch (.bind (ends_create .maintainer).atomic fun _ => .pure _) fun e => ?_
  cases e <;> first | exact .pure _ | exact .raise _

theorem ends_post : (post req).Ends := by
  refine .bind (.bind (.answer _ _) fun user => ?_) fun target => .bind ?_ fun station =>
    .ite ends_postAdmin (.ite ends_postMaintainer (.pure _))
  · cases user <;> first | exact .pure _ | exact .raise _
  · unfold stationOf
    cases req.stationNumber with
    | none => exact .ite (.raise _) (.raise _)
    | some n =>
      refine .bind (.answer _ _) fun station => ?_
      cases station <;> first | exact .pure _ | exact .raise _

/-- **A request for the admin role is all or nothing exactly if it does not have an applicant
take a station over**: all or nothing means that it is answered with success and the target is
the station's only admin, or with an error and the table is as it was. -/
theorem takeover_all_or_nothing (req : Request) (db : Db) (hrole : req.roleText = "admin") :
    (∃ outcome db', post req db = some (outcome, db') ∧
      ((∃ unchanged station, outcome = .ok (.success unchanged) ∧
          req.stationNumber = some ((station : Pk) : Int) ∧
          db'.assignments.OnlyAdmin req.userPk station) ∨
        (∀ unchanged, outcome ≠ .ok (.success unchanged)) ∧ db'.assignments = db.assignments)) ↔
      ¬ req.Dispossesses db := by
  have hpost : wp (post req)
      (fun r db' => ∃ station : Pk, req.stationNumber = some (station : Int) ∧
        (Settled req station db r db' ↔ ¬ req.Dispossesses db))
      (fun _ db' => db' = db ∧ ¬ req.Dispossesses db) db := by
    refine wp_bind (wp_mono wp_targetOf ?_ fun _ _ h => ⟨h.2, fun hd => ?_⟩)
    · rintro target db' ⟨htarget, rfl⟩
      refine wp_bind (wp_mono wp_stationOf ?_ fun _ _ h => ⟨h.2, fun hd => ?_⟩)
      · rintro station db'' ⟨hstation, rfl⟩
        refine wp_ite (fun _ => ?_) fun h => absurd hrole h
        obtain ⟨hnumber, hmem⟩ := station?_eq_some hstation
        refine wp_mono (wp_postAdmin hmem) (fun r db' hr => ⟨station, hnumber, ?_⟩)
          fun _ _ h => h.elim
        simpa [Request.Dispossesses, htarget, hstation] using hr
      · obtain ⟨_, _, -, hsome, -⟩ := hd
        rw [h.1] at hsome
        cases hsome
    · obtain ⟨_, _, hsome, -⟩ := hd
      rw [h.1] at hsome
      cases hsome
  obtain ⟨outcome, db', hrun, hok, herror⟩ := ends_post.outcome hpost
  cases outcome with
  | error e =>
    obtain ⟨rfl, hfree⟩ := herror e rfl
    exact iff_of_true ⟨_, _, hrun, .inr ⟨by simp, rfl⟩⟩ hfree
  | ok r =>
    obtain ⟨station, hnumber, hiff⟩ := hok r rfl
    rw [← hiff]
    constructor
    · rintro ⟨outcome, db'', hrun', hall⟩
      rw [hrun] at hrun'
      cases hrun'
      refine hall.imp ?_ fun ⟨hrefused, hkept⟩ => ⟨fun u h => hrefused u (by rw [h]), hkept⟩
      rintro ⟨unchanged, station', hr, hnumber', honly⟩
      rw [hnumber] at hnumber'
      cases hnumber'
      cases hr
      exact ⟨unchanged, rfl, honly⟩
    · refine fun hsettled => ⟨_, _, hrun, hsettled.imp ?_ ?_⟩
      · rintro ⟨unchanged, rfl, honly⟩
        exact ⟨unchanged, station, rfl, hnumber, honly⟩
      · exact fun ⟨hrefused, hkept⟩ => ⟨fun u h => hrefused u (by simpa using h), hkept⟩

/-! ## a station with an admin -/

/-- Station 1 with the admin 1, the applicant 2 and the member 3. -/
def staffed : Db where
  users := ((Table.empty.insert 1 { username := "OE5AAA", membershipLevel := "staff" }).insert 2
    { username := "OE5BBB" }).insert 3 { username := "OE5CCC", membershipLevel := "member" }
  stations := [1]
  assignments := (Assignments.empty.insert
    { user := 1, station := 1, role := .admin }).getD Assignments.empty

/-- A request to take station 1 over. -/
def takeover (user : Pk) : Request where
  userPk := user
  station := some "1"
  role := some "admin"
  takeover := some "1"
  sender := 9

/-- A member takes the station over. -/
theorem takeover_all_or_nothing_member : ∃ outcome db', post (takeover 3) staffed =
    some (outcome, db') ∧ ((∃ unchanged station, outcome = .ok (.success unchanged) ∧
          (takeover 3).stationNumber = some ((station : Pk) : Int) ∧
          db'.assignments.OnlyAdmin 3 station) ∨ (∀ unchanged, outcome ≠ .ok (.success unchanged)) ∧
          db'.assignments = staffed.assignments) := by
  refine (takeover_all_or_nothing (takeover 3) staffed (by decide)).mpr ?_
  rintro ⟨target, station, htarget, -, happ, -⟩
  have huser : (takeover 3).target? staffed =
      some { username := "OE5CCC", membershipLevel := "member" } := by decide
  rw [← Option.some.inj (huser.symm.trans htarget)] at happ
  cases happ

/-- An applicant's takeover is refused, and the station has lost its admin. -/
theorem refused_takeover_deletes_admin :
    (post (takeover 2) staffed).map (fun r => (r.1.toOption, r.2.assignments.rows.entries)) =
        some (some (.badRequest applicantText), []) ∧
      staffed.assignments.rows.entries = [(1, { user := 1, station := 1, role := .admin })] := by
  decide +kernel

end StationManager.Accounts.Topology
