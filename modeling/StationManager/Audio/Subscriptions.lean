import StationManager.Lib.Text
import StationManager.Lib.Transition

/-!
# StationManager.Audio.Subscriptions

Audio source demand of one station.  Browsers subscribe to streams; the server
counts the subscription rows in the database and tells the agent to start a
source at the first subscriber and to stop it after the last one.

* `Demand` is the `AudioSubscription` table of the station, `subscribe`,
  `unsubscribe` and `dropChannel` are the transactions of `subscriptions.py`.
  The row lock on the `AudioGate` anchor makes each of them one atomic step.
* `Handler` is a message handler of an `AudioConsumer`: a transaction decides
  which frames are due, and every frame is relayed in a step of its own.
  Messages of one connection are handled one after the other, so connections
  are the processes of the pool and a connection has at most one handler.
* `Engine` is the agent's side: the pipelines it runs and what the two frames
  do to them.
-/

namespace StationManager.Audio

/-- Stream names, such as `slot0.rx`. -/
abbrev StreamId := String

/-- Browser connections; the number stands for the channel name. -/
abbrev Channel := Nat

/-- The operator's microphone: produced by a browser, never by the agent. -/
def opMicStreamId : StreamId := "op.mic"

/-! ## subscription rows -/

/-- The `AudioSubscription` rows of a station. -/
structure Demand where
  rows : List (StreamId × Channel)
  unique : rows.Nodup
deriving DecidableEq

namespace Demand

/-- No subscriptions. -/
def empty : Demand := ⟨[], List.nodup_nil⟩

/-- `count`: current demand for a stream. -/
def count (d : Demand) (sid : StreamId) : Nat := d.rows.countP fun r => r.1 = sid

/-- Insert a row; `none` is the `IntegrityError` of a row that exists. -/
def create (d : Demand) (sid : StreamId) (ch : Channel) : Option Demand :=
  if h : (sid, ch) ∈ d.rows then none
  else some ⟨(sid, ch) :: d.rows, List.nodup_cons.mpr ⟨h, d.unique⟩⟩

/-- Delete the rows that satisfy `p`. -/
def delete (d : Demand) (p : StreamId × Channel → Bool) : Demand :=
  ⟨d.rows.filter fun r => !p r, d.unique.filter _⟩

/-- What `subscribe` returns. -/
structure Subscribed where
  first : Bool
  count : Nat
deriving DecidableEq

/-- What `unsubscribe` returns. -/
structure Unsubscribed where
  last : Bool
  count : Nat
deriving DecidableEq

/-- Add a demand row; an existing one is kept. -/
def subscribe (d : Demand) (sid : StreamId) (ch : Channel) : Demand × Subscribed :=
  let before := d.count sid
  let (d', after) := match d.create sid ch with
    | none => (d, before)
    | some d' => (d', before + 1)
  (d', ⟨before = 0 ∧ after = 1, after⟩)

/-- Remove a demand row. -/
def unsubscribe (d : Demand) (sid : StreamId) (ch : Channel) : Demand × Unsubscribed :=
  let deleted := d.rows.countP fun r => r = (sid, ch)
  let d' := d.delete fun r => r = (sid, ch)
  let after := d'.count sid
  (d', ⟨deleted > 0 ∧ after = 0, after⟩)

/-- Remove all rows of a connection; the streams nobody wants any more. -/
def dropChannel (d : Demand) (ch : Channel) : Demand × List StreamId :=
  let streamIds := ((d.rows.filter fun r => r.2 = ch).map Prod.fst).dedup
  let d' := d.delete fun r => r.2 = ch
  (d', streamIds.filter fun sid => d'.count sid = 0)

end Demand

/-! ## handlers -/

/-- Frames from the server to the agent. -/
inductive Frame
  | sourceSubscribe (sid : StreamId)
  | sourceUnsubscribe (sid : StreamId)
deriving DecidableEq

/-- The stream a frame is about. -/
def Frame.stream : Frame → StreamId
  | .sourceSubscribe sid | .sourceUnsubscribe sid => sid

/-- The production a frame asks for. -/
def Frame.wants : Frame → Bool
  | .sourceSubscribe _ => true
  | .sourceUnsubscribe _ => false

/-- The `error` frame of a browser. -/
structure ErrorFrame where
  code : String
  detail : String
deriving DecidableEq

/-- The server: the rows, the frames in the order they were relayed to the
agent, and the errors sent to browsers. -/
structure Server where
  demand : Demand
  relayed : List Frame
  errors : List (Channel × ErrorFrame)

/-- Messages that start a handler. -/
inductive Request
  | subscribe (streamIds : List StreamId)
  | unsubscribe (streamIds : List StreamId)
  | disconnect

/-- What a handler does once its relays are out. -/
inductive Rest
  | subscribing (streamIds : List StreamId)
  | unsubscribing (streamIds : List StreamId)
  | dropping
  | done

/-- A handler in progress: frames that are decided and not yet relayed, and
the rest. -/
structure Handler where
  relays : List Frame
  rest : Rest

/-- At most 32 streams of a message are looked at. -/
def start (_ : Server) : Request → Option Handler
  | .subscribe streamIds => some ⟨[], .subscribing (streamIds.take 32)⟩
  | .unsubscribe streamIds => some ⟨[], .unsubscribing (streamIds.take 32)⟩
  | .disconnect => some ⟨[], .dropping⟩

section Server

-- The decimal digits of a text pattern's `\d`, those of every script.
variable (digit : Char → Bool)

/-- The characters of a stream name. -/
def streamChar (c : Char) : Bool := c.isAlpha || digit c || c = '-' || c = '_' || c = '.'

/-- `VALID_STREAM_ID`: one to eighty such characters; the `$` of the pattern
lets a line end follow. -/
def validStreamId (sid : StreamId) : Bool :=
  let chars := sid.toList
  let name := if chars.getLast? = some '\n' then chars.dropLast else chars
  1 ≤ name.length && name.length ≤ 80 && name.all (streamChar digit)

/-- The error for a name that is not valid. -/
def invalidStreamError (sid : StreamId) : ErrorFrame :=
  ⟨"unknown_stream", "invalid stream_id: " ++ reprStr sid⟩

/-- The frames that are due for streams whose demand changed; the agent is
never asked for the microphone. -/
def edges (frame : StreamId → Frame) (sids : List StreamId) : List Frame :=
  (sids.filter fun sid => sid ≠ opMicStreamId).map frame

/-- One step of the handler of connection `ch`: the next relay, the next
stream's transaction, or the end. -/
def act (ch : Channel) (s : Server) (h : Handler) (_ : Unit) : Option (Server × Option Handler) :=
  match h.relays with
  | f :: relays => some ({ s with relayed := s.relayed ++ [f] }, some { h with relays })
  | [] => match h.rest with
      | .subscribing (sid :: rest) =>
        if validStreamId digit sid then
          let (demand, result) := s.demand.subscribe sid ch
          let relays := edges .sourceSubscribe (if result.first then [sid] else [])
          some ({ s with demand }, some ⟨relays, .subscribing rest⟩)
        else
          some ({ s with errors := s.errors ++ [(ch, invalidStreamError sid)] },
            some ⟨[], .subscribing rest⟩)
      | .unsubscribing (sid :: rest) =>
        if validStreamId digit sid then
          let (demand, result) := s.demand.unsubscribe sid ch
          let relays := edges .sourceUnsubscribe (if result.last then [sid] else [])
          some ({ s with demand }, some ⟨relays, .unsubscribing rest⟩)
        else
          some ({ s with errors := s.errors ++ [(ch, invalidStreamError sid)] },
            some ⟨[], .unsubscribing rest⟩)
      | .dropping =>
        let (demand, zeroStreams) := s.demand.dropChannel ch
        some ({ s with demand }, some ⟨edges .sourceUnsubscribe zeroStreams, .done⟩)
      | .subscribing [] | .unsubscribing [] | .done => some (s, none)

/-- The server with any number of connections. -/
def serverStep : Pool Server Handler → Sched Request Unit → Option (Pool Server Handler) :=
  Pool.step start (act digit)

/-- The next transaction of a handler of connection `ch` is about the stream. -/
def Rest.touches (d : Demand) (ch : Channel) (stream : StreamId) : Rest → Bool
  | .subscribing (sid :: _) | .unsubscribing (sid :: _) => validStreamId digit sid && sid = stream
  | .dropping => (stream, ch) ∈ d.rows
  | _ => false

/-- The step is a transaction on a stream for which another handler has
decided a frame and not yet relayed it. -/
def overtakes (c : Pool Server Handler) : Sched Request Unit → Bool
  | .spawn _ _ => false
  | .advance i _ => match c.procs.get? i with
      | some ⟨[], rest⟩ => c.procs.entries.any fun e =>
        e.1 ≠ i && e.2.relays.any fun f => rest.touches digit c.shared.demand i f.stream
      | _ => false

end Server

/-! ## the agent -/

/-- What starting the pipeline of a stream comes to. -/
inductive RxStart
  | live
  | unresolved
  | failed
deriving DecidableEq

/-- What the agent sends to the server. -/
inductive Emission
  | error (code detail : String)
  | streamState (sid : StreamId) (state detail : String)
deriving DecidableEq

/-- The audio engine: the streams it advertises, those the server demands and
those whose pipeline runs. -/
structure Engine where
  registry : List StreamId
  closed : Bool
  rxDemand : List StreamId
  rx : List StreamId
deriving DecidableEq

namespace Engine

section Backend

-- What the audio backend makes of a stream: its node and its bridge.
variable (backend : StreamId → RxStart)

/-- `_start_rx` -/
def startRx (e : Engine) (sid : StreamId) : Engine × List Emission :=
  if e.closed then (e, [])
  else if sid ∉ e.registry then
    (e, [.error "unknown_stream" ("no such stream " ++ reprStr sid)])
  else if sid = opMicStreamId then (e, [])
  else if sid ∈ e.rx then (e, [])
  else match backend sid with
    | .unresolved => (e, [.streamState sid "error" "RX node unresolved"])
    | .failed => (e, [.streamState sid "error" "RX bridge start failed"])
    | .live => ({ e with rx := sid :: e.rx }, [.streamState sid "live" ""])

/-- `on_source_subscribe` -/
def onSourceSubscribe (e : Engine) (sid : StreamId) : Engine × List Emission :=
  let demanded := if sid ≠ opMicStreamId ∧ sid ∈ e.registry then
      { e with rxDemand := e.rxDemand.insert sid }
    else e
  demanded.startRx backend sid

/-- `on_source_unsubscribe` -/
def onSourceUnsubscribe (e : Engine) (sid : StreamId) : Engine × List Emission :=
  let stopped := sid ∈ e.rx
  ({ e with rxDemand := e.rxDemand.filter (· ≠ sid), rx := e.rx.filter (· ≠ sid) },
    if stopped then [.streamState sid "idle" ""] else [])

/-- `_dispatch` of a frame. -/
def dispatch (e : Engine) : Frame → Engine × List Emission
  | .sourceSubscribe sid => e.onSourceSubscribe backend sid
  | .sourceUnsubscribe sid => e.onSourceUnsubscribe sid

/-- The engine after frames delivered in order. -/
def deliver (e : Engine) (frames : List Frame) : Engine :=
  frames.foldl (fun e f => (e.dispatch backend f).1) e

/-- A source stream of an open engine: advertised, not the microphone, and
with a pipeline that starts. -/
structure Source (e : Engine) (sid : StreamId) : Prop where
  opened : e.closed = false
  advertised : sid ∈ e.registry
  notMic : sid ≠ opMicStreamId
  starts : backend sid = .live

end Backend

end Engine

end StationManager.Audio
