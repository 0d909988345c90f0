import McpCore.Pump
import McpCore.Websocket

/-!
# After a failed send

`pumpTrace` and `wsTrace` list what the two loops do in order: the messages they hand
to the session and their sends, with those that failed.  Replaying a trace gives what
the loop left (`foldl_pumpTrace`, `foldl_wsTrace`).

`stopsAtFailure_iff`: the pump does nothing after a send that failed.  The websocket
loop goes on after a failed parse-error reply, and after a failed notification it
leaves the loop over the notifications only.
-/

namespace McpCore
namespace Runner

open Transport Server Loop

section Events

/-- A thing that a loop does; what is sent is a list of bytes, or of texts, and of a
failed send the part that went out. -/
inductive Event (β : Type) where
  | handled (raw : String)
  | sent (out : List β)
  | failed (out : List β)
deriving DecidableEq

def Event.IsFailed {β : Type} : Event β → Prop
  | .failed _ => True
  | _ => False

/-- Nothing is handed to the session and nothing sent after a send that failed. -/
abbrev StopsAtFailure {β : Type} (trace : List (Event β)) : Prop :=
  EndsAt Event.IsFailed trace

variable {β σ : Type} (serde : SerdeJson) (crates : Externals) (core : ServerCore σ)

/-- What was sent, the session and the world after an event. -/
def play (seen : List β × Session × World σ) : Event β → List β × Session × World σ
  | .handled raw =>
      match serde.fromStr raw with
      | .ok value => (seen.1, (handleMessage crates core value seen.2.1 seen.2.2).2)
      | .error _ => seen
  | .sent out => (seen.1 ++ out, seen.2)
  | .failed out => (seen.1 ++ out, seen.2)

end Events

section PumpTrace

variable {R σ : Type} (serde : SerdeJson) (crates : Externals) (core : ServerCore σ)

/-- What writing a value does. -/
def sendEvents (value : Value) (t : FramedTransport R) : List (Event UInt8) :=
  match serde.toString value with
  | .ok text =>
      let (outcome, t') := writeMessage text t
      let out := t'.writer.written.drop t.writer.written.length
      match outcome with
      | .ok _ => [.sent out]
      | _ => [.failed out]
  | .error _ => []

/-- What `?` does: the events of a call, and of what follows if it returned `Ok`. -/
def andThenEvents (events : List (Event UInt8))
    (call : Transport.Outcome Unit × FramedTransport R)
    (k : FramedTransport R → List (Event UInt8)) : List (Event UInt8) :=
  match call with
  | (.ok _, t) => events ++ k t
  | _ => events

def sendAllEvents : List Value → FramedTransport R → List (Event UInt8)
  | [], _ => []
  | value :: values, t =>
      andThenEvents (sendEvents serde value t) (send serde value t) (sendAllEvents values)

def sendDispatchEvents (dispatch : Dispatch) (t : FramedTransport R) : List (Event UInt8) :=
  match dispatch.response with
  | some resp =>
      andThenEvents (sendEvents serde resp t) (send serde resp t)
        (sendAllEvents serde dispatch.notifications)
  | none => sendAllEvents serde dispatch.notifications t

def answerEvents (raw : String) (t : FramedTransport R) (session : Session) (world : World σ) :
    List (Event UInt8) :=
  match serde.fromStr raw with
  | .error e => sendEvents serde (parseErrorResponse e) t
  | .ok value =>
      .handled raw ::
        sendDispatchEvents serde (handleMessage crates core value session world).1 t

def tellPeerEvents (err : Error) (t : FramedTransport R) : List (Event UInt8) :=
  match err with
  | .transport (.invalidMessage reason) => sendEvents serde (framingErrorResponse reason) t
  | _ => []

variable [LineReader R]

/-- What one iteration of the loop of `pump` does. -/
def pumpEvents (c : Connection R σ) : List (Event UInt8) :=
  match readMessage c.transport with
  | (.running, _) => []
  | (.err err, t) => if isConnectionClosed err then [] else tellPeerEvents serde err t
  | (.ok raw, t) =>
      if Text.trim raw = "" then [] else answerEvents serde crates core raw t c.session c.world

/-- What the first iterations of `pump` do. -/
def pumpTrace (n : Nat) (c : Connection R σ) : List (Event UInt8) :=
  trace (pumpBody serde crates core) (pumpEvents serde crates core) n c

end PumpTrace

section Pump

variable {R σ : Type} (serde : SerdeJson) (crates : Externals) (core : ServerCore σ)

/-- These are the events of a call that writes over `t`. -/
structure Emits (events : List (Event UInt8)) (t : FramedTransport R)
    (call : Transport.Outcome Unit × FramedTransport R) : Prop where
  stops : StopsAtFailure events
  clean : call.1 = .ok () → ∀ e ∈ events, ¬ e.IsFailed
  replays : ∀ s : Session × World σ,
    events.foldl (play serde crates core) (t.writer.written, s) = (call.2.writer.written, s)

theorem emits_nil (t : FramedTransport R) :
    Emits serde crates core [] t (.ok (), t) where
  stops := endsAt_nil
  clean _ _ hmem := absurd hmem List.not_mem_nil
  replays _ := rfl

theorem emits_send (value : Value) (t : FramedTransport R) :
    Emits serde crates core (sendEvents serde value t) t (send serde value t) := by
  simp only [sendEvents, send]
  cases serde.toString value with
  | error msg =>
      exact ⟨endsAt_nil, by simp, fun _ => rfl⟩
  | ok text =>
      obtain ⟨-, ⟨sent, hwritten, -, -⟩, -, -⟩ := sends_writeMessage text t
      simp only
      generalize writeMessage text t = call at hwritten ⊢
      obtain ⟨outcome, t'⟩ := call
      simp only at hwritten
      have hout : t'.writer.written.drop t.writer.written.length = sent := by
        rw [hwritten, List.drop_left]
      have hreplays : ∀ s : Session × World σ,
          (t.writer.written ++ sent, s) = (t'.writer.written, s) := by
        intro s
        rw [hwritten]
      simp only [hout]
      cases outcome with
      | ok x => exact ⟨endsAt_singleton _, by simp [Event.IsFailed], hreplays⟩
      | err err => exact ⟨endsAt_singleton _, by simp, hreplays⟩
      | running => exact ⟨endsAt_singleton _, by simp, hreplays⟩

variable {serde crates core}

/-- What follows a write that failed is not done. -/
theorem Emits.andThen
    {events : List (Event UInt8)} {t : FramedTransport R}
    {call : Transport.Outcome Unit × FramedTransport R}
    {k : Unit → FramedTransport R → Transport.Outcome Unit × FramedTransport R}
    {kEvents : FramedTransport R → List (Event UInt8)}
    (hcall : Emits serde crates core events t call)
    (hk : ∀ u, Emits serde crates core (kEvents u) u (k () u)) :
    Emits serde crates core (andThenEvents events call kEvents) t
      (Transport.andThen call k) := by
  obtain ⟨outcome, u⟩ := call
  cases outcome with
  | ok x =>
      have hrest := hk u
      have hclean := hcall.clean rfl
      refine ⟨?_, ?_, fun s => ?_⟩
      · refine endsAt_append.mpr ⟨hcall.stops, hrest.stops, ?_⟩
        rintro ⟨e, hmem, hfailed⟩
        exact absurd hfailed (hclean e hmem)
      · intro hok e hmem
        rcases List.mem_append.mp hmem with hmem | hmem
        · exact hclean e hmem
        · exact hrest.clean hok e hmem
      · simp only [andThenEvents, List.foldl_append]
        rw [hcall.replays s]
        exact hrest.replays s
  | err err =>
      exact ⟨hcall.stops, by simp [Transport.andThen], hcall.replays⟩
  | running =>
      exact ⟨hcall.stops, by simp [Transport.andThen], hcall.replays⟩

theorem emits_sendAll (values : List Value) (t : FramedTransport R) :
    Emits serde crates core (sendAllEvents serde values t) t (sendAll serde values t) := by
  induction values generalizing t with
  | nil =>
      exact emits_nil serde crates core t
  | cons value values ih =>
      exact (emits_send serde crates core value t).andThen ih

theorem emits_sendDispatch (dispatch : Dispatch) (t : FramedTransport R) :
    Emits serde crates core (sendDispatchEvents serde dispatch t) t
      (sendDispatch serde dispatch t) := by
  unfold sendDispatchEvents sendDispatch
  cases dispatch.response with
  | none =>
      exact emits_sendAll dispatch.notifications t
  | some resp =>
      exact (emits_send serde crates core resp t).andThen
        (emits_sendAll dispatch.notifications)

/-- An event list with one more message handed over first. -/
theorem stopsAtFailure_handled {β : Type} {events : List (Event β)}
    (h : StopsAtFailure events) (raw : String) :
    StopsAtFailure (.handled raw :: events) := by
  refine endsAt_append.mpr ⟨endsAt_singleton (Event.handled raw), h, ?_⟩
  simp [Event.IsFailed]

variable (serde crates core)

/-- The events of an answer: nothing follows a failure, an answer that is written has
none, and they replay it. -/
theorem answerEvents_spec (raw : String) (t : FramedTransport R) (session : Session)
    (world : World σ) :
    let events := answerEvents serde crates core raw t session world
    let left := answer serde crates core raw t session world
    StopsAtFailure events ∧
    (left.1.1 = .ok () → ∀ e ∈ events, ¬ e.IsFailed) ∧
    events.foldl (play serde crates core) (t.writer.written, session, world) =
      (left.1.2.writer.written, left.2) := by
  intro events left
  simp only [events, left, answerEvents, answer]
  cases hraw : serde.fromStr raw with
  | error e =>
      obtain ⟨hstops, hclean, hreplays⟩ :=
        emits_send serde crates core (parseErrorResponse e) t
      exact ⟨hstops, hclean, hreplays (session, world)⟩
  | ok value =>
      obtain ⟨hstops, hclean, hreplays⟩ : Emits serde crates core _ t _ :=
        emits_sendDispatch (handleMessage crates core value session world).1 t
      refine ⟨stopsAtFailure_handled hstops raw, ?_, ?_⟩
      · intro hok e hmem
        rcases List.mem_cons.mp hmem with rfl | hmem
        · simp [Event.IsFailed]
        · exact hclean hok e hmem
      · simp only [List.foldl_cons, play, hraw]
        exact hreplays (handleMessage crates core value session world).2

/-- The last word to the peer is a send like any other, whose failure is let be. -/
theorem tellPeerEvents_spec (err : Error) (t : FramedTransport R) :
    StopsAtFailure (tellPeerEvents serde err t) ∧
    ∀ s : Session × World σ,
      (tellPeerEvents serde err t).foldl (play serde crates core) (t.writer.written, s) =
        ((tellPeer serde err t).writer.written, s) := by
  cases err with
  | transport err =>
      cases err with
      | invalidMessage reason =>
          obtain ⟨hstops, -, hreplays⟩ :=
            emits_send serde crates core (framingErrorResponse reason) t
          rw [tellPeer_invalidMessage]
          exact ⟨hstops, hreplays⟩
      | _ => exact ⟨endsAt_nil, fun _ => rfl⟩
  | _ => exact ⟨endsAt_nil, fun _ => rfl⟩

/-- What one iteration does: nothing follows a failure, a loop that goes round has met
none, and what it does replays the iteration. -/
theorem pumpEvents_spec (c : Connection Reader σ) :
    let events := pumpEvents serde crates core c
    let seen := events.foldl (play serde crates core)
      (c.transport.writer.written, c.session, c.world)
    StopsAtFailure events ∧
    (∀ c', pumpBody serde crates core c = .next c' →
      (∀ e ∈ events, ¬ e.IsFailed) ∧
        seen = (c'.transport.writer.written, c'.session, c'.world)) ∧
    (∀ outcome left, pumpBody serde crates core c = .leave (outcome, left) →
      seen = (left.transport.writer.written, left.session, left.world)) := by
  have hwriter := (kept_readMessage c.transport).writer
  simp only [pumpEvents, pumpBody]
  generalize readMessage c.transport = call at hwriter ⊢
  obtain ⟨outcome, t⟩ := call
  simp only at hwriter
  rw [← hwriter]
  cases outcome with
  | running =>
      refine ⟨endsAt_nil, by simp, fun outcome left hleave => ?_⟩
      cases hleave
      rfl
  | err err =>
      by_cases hclosed : isConnectionClosed err = true
      · simp only [if_pos hclosed]
        refine ⟨endsAt_nil, by simp, fun outcome left hleave => ?_⟩
        cases hleave
        rfl
      · simp only [if_neg hclosed]
        obtain ⟨hstops, hreplays⟩ := tellPeerEvents_spec serde crates core err t
        refine ⟨hstops, by simp, fun outcome left hleave => ?_⟩
        cases hleave
        exact hreplays (c.session, c.world)
  | ok raw =>
      by_cases hblank : Text.trim raw = ""
      · simp only [if_pos hblank]
        refine ⟨endsAt_nil, fun c' hnext => ?_, by simp⟩
        cases hnext
        exact ⟨by simp, rfl⟩
      · simp only [if_neg hblank]
        obtain ⟨hstops, hclean, hreplays⟩ :=
          answerEvents_spec serde crates core raw t c.session c.world
        generalize answer serde crates core raw t c.session c.world = left at hclean hreplays ⊢
        obtain ⟨⟨outcome, u⟩, session, world⟩ := left
        cases outcome with
        | ok x =>
            refine ⟨hstops, fun c' hnext => ?_, by simp⟩
            cases hnext
            exact ⟨hclean rfl, hreplays⟩
        | err err =>
            refine ⟨hstops, by simp, fun outcome left hleave => ?_⟩
            cases hleave
            exact hreplays
        | running =>
            refine ⟨hstops, by simp, fun outcome left hleave => ?_⟩
            cases hleave
            exact hreplays

/-- The pump stops at the first send that fails. -/
theorem stopsAtFailure_pumpTrace (n : Nat) (c : Connection Reader σ) :
    StopsAtFailure (pumpTrace serde crates core n c) :=
  endsAt_trace (fun c => (pumpEvents_spec serde crates core c).1)
    (fun c c' hnext => ((pumpEvents_spec serde crates core c).2.1 c' hnext).1) n c

/-- The trace of a pump replays it. -/
theorem foldl_pumpTrace {n : Nat} {c left : Connection Reader σ} {outcome : Transport.Outcome Unit}
    (hrun : Loop.run (pumpBody serde crates core) n c = some (outcome, left)) :
    (pumpTrace serde crates core n c).foldl (play serde crates core)
        (c.transport.writer.written, c.session, c.world) =
      (left.transport.writer.written, left.session, left.world) :=
  foldl_trace (play serde crates core)
    (fun c => (c.transport.writer.written, c.session, c.world))
    (fun r => (r.2.transport.writer.written, r.2.session, r.2.world))
    (fun c c' hnext => ((pumpEvents_spec serde crates core c).2.1 c' hnext).2)
    (fun c r hleave => (pumpEvents_spec serde crates core c).2.2 r.1 r.2 hleave) hrun

end Pump

section WsTrace

variable {σ : Type} (serde : SerdeJson) (crates : Externals) (core : ServerCore σ)

/-- What sending a value does. -/
def sendValueEvents (value : Value) (sink : Sink) : List (Event String) :=
  match serde.toString value with
  | .ok s =>
      match sink.send s with
      | (.ok _, _) => [.sent [s]]
      | (.error _, _) => [.failed []]
  | .error _ => []

def sendNotificationsEvents : List Value → Sink → List (Event String)
  | [], _ => []
  | notif :: notifications, sink =>
      match sendValue serde notif sink with
      | (true, _) => sendValueEvents serde notif sink
      | (false, sink') =>
          sendValueEvents serde notif sink ++ sendNotificationsEvents notifications sink'

/-- What the loop does with a text. -/
def wsTextEvents (text : String) (c : WsConnection σ) : List (Event String) :=
  match serde.fromStr text with
  | .error e => sendValueEvents serde (parseErrorResponse e) c.sink
  | .ok value =>
      let (dispatch, _, _) := handleMessage crates core value c.session c.world
      .handled text ::
        match dispatch.response with
        | some resp =>
            match sendValue serde resp c.sink with
            | (true, _) => sendValueEvents serde resp c.sink
            | (false, sink) =>
                sendValueEvents serde resp c.sink ++
                  sendNotificationsEvents serde dispatch.notifications sink
        | none => sendNotificationsEvents serde dispatch.notifications c.sink

/-- What the loop does with a frame. -/
def wsEvents (frame : Except String Message) (c : WsConnection σ) : List (Event String) :=
  match frame with
  | .ok (.text text) => wsTextEvents serde crates core text c
  | _ => []

/-- What `ws_connection` does. -/
def wsTrace : List (Except String Message) → WsConnection σ → List (Event String)
  | [], _ => []
  | frame :: frames, c =>
      wsEvents serde crates core frame c ++
        match wsBody serde crates core frame c with
        | .next c' => wsTrace frames c'
        | .leave _ => []

/-- Of the next `n` sends one fails. -/
def FailsWithin (n : Nat) (faults : List (Option String)) : Prop :=
  ∃ err, some err ∈ faults.take n

/-- The send that fails on what a text comes to is the parse-error reply or one of the
notifications. -/
def FailsUnnoticed (text : String) (c : WsConnection σ) : Prop :=
  match serde.fromStr text with
  | .error _ => FailsWithin 1 c.sink.faults
  | .ok value =>
      let (dispatch, _, _) := handleMessage crates core value c.session c.world
      let responses := dispatch.response.toList.length
      ¬ FailsWithin responses c.sink.faults ∧
        FailsWithin dispatch.notifications.length (c.sink.faults.drop responses)

/-- A text arrives before the socket is closed or fails. -/
def TextFollows (frames : List (Except String Message)) : Prop :=
  ∃ others text after, frames = others ++ .ok (.text text) :: after ∧
    ∀ frame ∈ others, GoesOn frame ∧ frameText frame = none

/-- No text arrives any more once a parse-error reply or a notification could not be
sent. -/
def QuietAfterFailure : List (Except String Message) → WsConnection σ → Prop
  | [], _ => True
  | frame :: frames, c =>
      (∀ text, frame = .ok (.text text) → FailsUnnoticed serde crates core text c →
        ¬ TextFollows frames) ∧
      match wsBody serde crates core frame c with
      | .next c' => QuietAfterFailure frames c'
      | .leave _ => True

end WsTrace

section Ws

variable {σ : Type} (serde : SerdeJson) (crates : Externals) (core : ServerCore σ)

/-- Sending a value is one event at most, and a failure exactly when it failed. -/
theorem failed_mem_sendValueEvents (value : Value) (sink : Sink) :
    StopsAtFailure (sendValueEvents serde value sink) ∧
    ((sendValue serde value sink).1 = true ↔
      ∃ e ∈ sendValueEvents serde value sink, e.IsFailed) := by
  simp only [sendValueEvents, sendValue]
  cases serde.toString value with
  | error msg =>
      exact ⟨endsAt_nil, by simp⟩
  | ok text =>
      simp only
      generalize sink.send text = left
      obtain ⟨result, sink'⟩ := left
      cases result with
      | ok x => exact ⟨endsAt_singleton _, by simp [Event.IsFailed]⟩
      | error err => exact ⟨endsAt_singleton _, by simp [Event.IsFailed]⟩

theorem foldl_sendValueEvents (value : Value) (sink : Sink) (s : Session × World σ) :
    (sendValueEvents serde value sink).foldl (play serde crates core) (sink.sent, s) =
      ((sendValue serde value sink).2.sent, s) := by
  simp only [sendValueEvents, sendValue]
  cases serde.toString value with
  | error msg =>
      rfl
  | ok text =>
      obtain ⟨sent, faults⟩ := sink
      cases faults with
      | nil =>
          rfl
      | cons fault faults =>
          cases fault with
          | none => rfl
          | some err => simp [Sink.send, play]

theorem sendNotificationsEvents_spec (values : List Value) (sink : Sink) :
    StopsAtFailure (sendNotificationsEvents serde values sink) ∧
    ∀ s : Session × World σ,
      (sendNotificationsEvents serde values sink).foldl (play serde crates core) (sink.sent, s) =
        ((sendNotifications serde values sink).sent, s) := by
  induction values generalizing sink with
  | nil =>
      exact ⟨endsAt_nil, fun _ => rfl⟩
  | cons value values ih =>
      obtain ⟨hstops, hfailed⟩ := failed_mem_sendValueEvents serde value sink
      have hreplays := foldl_sendValueEvents serde crates core value sink
      simp only [sendNotificationsEvents, sendNotifications]
      generalize sendValue serde value sink = left at hfailed hreplays ⊢
      obtain ⟨failed, sink'⟩ := left
      cases failed with
      | true =>
          exact ⟨hstops, hreplays⟩
      | false =>
          obtain ⟨hstops', hreplays'⟩ := ih sink'
          refine ⟨endsAt_append.mpr ⟨hstops, hstops', fun h => ?_⟩, fun s => ?_⟩
          · exact absurd (hfailed.mpr h) (by simp)
          · simp only [List.foldl_append, hreplays s]
            exact hreplays' s

/-- What a text comes to: nothing follows a failed send of it, and the events replay
it. -/
theorem wsTextEvents_spec (text : String) (c : WsConnection σ) :
    StopsAtFailure (wsTextEvents serde crates core text c) ∧
    ∀ left, (wsText serde crates core text c = .next left ∨
        wsText serde crates core text c = .leave left) →
      (wsTextEvents serde crates core text c).foldl (play serde crates core)
          (c.sink.sent, c.session, c.world) =
        (left.sink.sent, left.session, left.world) := by
  simp only [wsTextEvents, wsText]
  cases htext : serde.fromStr text with
  | error e =>
      refine ⟨(failed_mem_sendValueEvents serde (parseErrorResponse e) c.sink).1,
        fun left hleft => ?_⟩
      rcases hleft with hleft | hleft
      · cases hleft
        exact foldl_sendValueEvents serde crates core _ c.sink (c.session, c.world)
      · cases hleft
  | ok value =>
      rcases hhandled : handleMessage crates core value c.session c.world with
        ⟨dispatch, session, world⟩
      have hplay : ∀ events : List (Event String),
          (Event.handled text :: events).foldl (play serde crates core)
              (c.sink.sent, c.session, c.world) =
            events.foldl (play serde crates core) (c.sink.sent, session, world) := by
        intro events
        simp only [List.foldl_cons, play, htext, hhandled]
      simp only [hhandled]
      cases dispatch.response with
      | none =>
          obtain ⟨hstops, hreplays⟩ :=
            sendNotificationsEvents_spec serde crates core dispatch.notifications c.sink
          refine ⟨stopsAtFailure_handled hstops text, fun left hleft => ?_⟩
          simp only [Bool.false_eq_true, if_false, reduceCtorEq, or_false] at hleft
          cases hleft
          rw [hplay]
          exact hreplays (session, world)
      | some resp =>
          obtain ⟨hstops, hfailed⟩ := failed_mem_sendValueEvents serde resp c.sink
          have hreplays := foldl_sendValueEvents serde crates core resp c.sink
          simp only
          generalize sendValue serde resp c.sink = sent at hfailed hreplays ⊢
          obtain ⟨failed, sink⟩ := sent
          cases failed with
          | true =>
              refine ⟨stopsAtFailure_handled hstops text, fun left hleft => ?_⟩
              simp only [if_true, reduceCtorEq, false_or] at hleft
              cases hleft
              rw [hplay]
              exact hreplays (session, world)
          | false =>
              obtain ⟨hstops', hreplays'⟩ :=
                sendNotificationsEvents_spec serde crates core dispatch.notifications sink
              refine ⟨stopsAtFailure_handled (endsAt_append.mpr ⟨hstops, hstops', fun h => ?_⟩)
                text, fun left hleft => ?_⟩
              · exact absurd (hfailed.mpr h) (by simp)
              · simp only [Bool.false_eq_true, if_false, reduceCtorEq, or_false] at hleft
                cases hleft
                rw [hplay, List.foldl_append, hreplays (session, world)]
                exact hreplays' (session, world)

/-- The trace of the websocket loop replays it. -/
theorem foldl_wsTrace (frames : List (Except String Message)) (c : WsConnection σ) :
    (wsTrace serde crates core frames c).foldl (play serde crates core)
        (c.sink.sent, c.session, c.world) =
      let left := wsLoop serde crates core frames c
      (left.sink.sent, left.session, left.world) := by
  induction frames generalizing c with
  | nil =>
      rfl
  | cons frame frames ih =>
      have hframe : ∀ left, (wsBody serde crates core frame c = .next left ∨
          wsBody serde crates core frame c = .leave left) →
          (wsEvents serde crates core frame c).foldl (play serde crates core)
              (c.sink.sent, c.session, c.world) =
            (left.sink.sent, left.session, left.world) := by
        intro left hleft
        cases frame with
        | error err =>
            rcases hleft with hleft | hleft
            · cases hleft
            · cases hleft
              rfl
        | ok message =>
            cases message with
            | text text =>
                exact (wsTextEvents_spec serde crates core text c).2 left hleft
            | _ =>
                rcases hleft with hleft | hleft
                · cases hleft <;> rfl
                · cases hleft <;> rfl
      simp only [wsTrace, wsLoop, List.foldl_append]
      cases hbody : wsBody serde crates core frame c with
      | next c' =>
          rw [hframe c' (Or.inl hbody)]
          exact ih c'
      | leave left =>
          exact hframe left (Or.inr hbody)

end Ws

section Quiet

variable {σ : Type} {serde : SerdeJson} (crates : Externals) (core : ServerCore σ)

theorem failsWithin_succ (n : Nat) (faults : List (Option String)) :
    FailsWithin (n + 1) faults ↔ FailsWithin 1 faults ∨ FailsWithin n (faults.drop 1) := by
  cases faults with
  | nil =>
      simp [FailsWithin]
  | cons fault faults =>
      simp [FailsWithin, exists_or]

/-- Sending a value that is serialised takes the next entry of the faults. -/
theorem sendValue_faults
    {value : Value} {text : String} (htext : serde.toString value = .ok text) (sink : Sink) :
    ((sendValue serde value sink).1 = true ↔ FailsWithin 1 sink.faults) ∧
    (sendValue serde value sink).2.faults = sink.faults.drop 1 := by
  simp only [sendValue, htext, Sink.send]
  cases sink.faults with
  | nil =>
      simp [FailsWithin]
  | cons fault faults =>
      cases fault with
      | none => simp [FailsWithin]
      | some err => simp [FailsWithin]

/-- Serialising a value does not fail. -/
abbrev Serialises (serde : SerdeJson) : Prop :=
  ∀ value, ∃ text, serde.toString value = .ok text

variable (hserde : Serialises serde)

include hserde

theorem failed_mem_sendNotificationsEvents (values : List Value) (sink : Sink) :
    (∃ e ∈ sendNotificationsEvents serde values sink, e.IsFailed) ↔
      FailsWithin values.length sink.faults := by
  induction values generalizing sink with
  | nil =>
      simp [sendNotificationsEvents, FailsWithin]
  | cons value values ih =>
      obtain ⟨text, htext⟩ := hserde value
      obtain ⟨hfails, hrest⟩ := sendValue_faults htext sink
      obtain ⟨-, hfailed⟩ := failed_mem_sendValueEvents serde value sink
      rw [List.length_cons, failsWithin_succ]
      simp only [sendNotificationsEvents]
      generalize sendValue serde value sink = left at hfails hrest hfailed ⊢
      obtain ⟨failed, sink'⟩ := left
      simp only at hrest
      cases failed with
      | true =>
          simp only [true_iff] at hfails hfailed
          simp only [hfails, hfailed, true_or]
      | false =>
          simp only [Bool.false_eq_true, false_iff] at hfails hfailed
          simp only [hfails, false_or, ← hrest, ← ih sink']
          constructor
          · rintro ⟨e, hmem, he⟩
            rcases List.mem_append.mp hmem with hmem | hmem
            · exact absurd ⟨e, hmem, he⟩ hfailed
            · exact ⟨e, hmem, he⟩
          · rintro ⟨e, hmem, he⟩
            exact ⟨e, List.mem_append_right _ hmem, he⟩

/-- A loop that goes on after a text has met a failure exactly when that was one the
loop does not notice. -/
theorem failed_mem_wsTextEvents (text : String) (c : WsConnection σ) :
    (∀ c', wsText serde crates core text c = .next c' →
      ((∃ e ∈ wsTextEvents serde crates core text c, e.IsFailed) ↔
        FailsUnnoticed serde crates core text c)) ∧
    (∀ c', wsText serde crates core text c = .leave c' →
      ¬ FailsUnnoticed serde crates core text c) := by
  simp only [wsText, wsTextEvents, FailsUnnoticed]
  cases serde.fromStr text with
  | error e =>
      obtain ⟨reply, hreply⟩ := hserde (parseErrorResponse e)
      obtain ⟨hfails, -⟩ := sendValue_faults hreply c.sink
      obtain ⟨-, hfailed⟩ := failed_mem_sendValueEvents serde (parseErrorResponse e) c.sink
      exact ⟨fun c' _ => hfailed.symm.trans hfails, by simp⟩
  | ok value =>
      simp only
      generalize handleMessage crates core value c.session c.world = handled
      obtain ⟨dispatch, session, world⟩ := handled
      have hhandled : ∀ events : List (Event String),
          (∃ e ∈ Event.handled text :: events, e.IsFailed) ↔ ∃ e ∈ events, e.IsFailed := by
        simp [Event.IsFailed]
      simp only [hhandled]
      cases dispatch.response with
      | none =>
          have hnotifications :=
            failed_mem_sendNotificationsEvents hserde dispatch.notifications c.sink
          simp only [hnotifications]
          simp [FailsWithin]
      | some resp =>
          obtain ⟨reply, hreply⟩ := hserde resp
          obtain ⟨hfails, hrest⟩ := sendValue_faults hreply c.sink
          obtain ⟨-, hfailed⟩ := failed_mem_sendValueEvents serde resp c.sink
          simp only [Option.toList_some, List.length_singleton]
          generalize sendValue serde resp c.sink = sent at hfails hrest hfailed ⊢
          obtain ⟨failed, sink⟩ := sent
          simp only at hrest
          cases failed with
          | true =>
              simp only [true_iff] at hfails
              simp [hfails]
          | false =>
              have hnotifications :=
                failed_mem_sendNotificationsEvents hserde dispatch.notifications sink
              simp only [Bool.false_eq_true, false_iff] at hfails hfailed
              refine ⟨fun c' _ => ?_, by simp⟩
              rw [← hrest, ← hnotifications]
              constructor
              · rintro ⟨e, hmem, he⟩
                rcases List.mem_append.mp hmem with hmem | hmem
                · exact absurd ⟨e, hmem, he⟩ hfailed
                · exact ⟨hfails, e, hmem, he⟩
              · rintro ⟨-, e, hmem, he⟩
                exact ⟨e, List.mem_append_right _ hmem, he⟩

/-- A text is always handed to the session or answered. -/
theorem wsTextEvents_ne_nil (text : String) (c : WsConnection σ) :
    wsTextEvents serde crates core text c ≠ [] := by
  unfold wsTextEvents
  cases serde.fromStr text with
  | error e =>
      obtain ⟨reply, hreply⟩ := hserde (parseErrorResponse e)
      simp only [sendValueEvents, hreply]
      split
      · simp
      · simp
  | ok value =>
      simp

end Quiet

section Frames

variable {frames : List (Except String Message)}

theorem not_textFollows_nil : ¬ TextFollows [] := by
  rintro ⟨others, text, after, heq, -⟩
  simp at heq

theorem textFollows_text (text : String) (frames : List (Except String Message)) :
    TextFollows (.ok (.text text) :: frames) :=
  ⟨[], text, frames, rfl, by simp⟩

/-- What is no text is passed over, or ends what is received. -/
theorem textFollows_cons {frame : Except String Message} (htext : frameText frame = none) :
    TextFollows (frame :: frames) ↔ GoesOn frame ∧ TextFollows frames := by
  constructor
  · rintro ⟨others, text, after, heq, hothers⟩
    cases others with
    | nil =>
        rw [List.nil_append, List.cons.injEq] at heq
        rw [heq.1] at htext
        cases htext
    | cons other others =>
        rw [List.cons_append, List.cons.injEq] at heq
        obtain ⟨rfl, rfl⟩ := heq
        exact ⟨(hothers frame (by simp)).1, others, text, after, rfl,
          fun other hmem => hothers other (List.mem_cons_of_mem _ hmem)⟩
  · rintro ⟨hgoes, others, text, after, rfl, hothers⟩
    refine ⟨frame :: others, text, after, rfl, fun other hmem => ?_⟩
    rcases List.mem_cons.mp hmem with rfl | hmem
    · exact ⟨hgoes, htext⟩
    · exact hothers other hmem

end Frames

section Stops

variable {σ : Type} {serde : SerdeJson} (crates : Externals) (core : ServerCore σ)
  (hserde : Serialises serde)

include hserde

theorem wsTrace_eq_nil_iff (frames : List (Except String Message)) (c : WsConnection σ) :
    wsTrace serde crates core frames c = [] ↔ ¬ TextFollows frames := by
  induction frames generalizing c with
  | nil =>
      simp [wsTrace, not_textFollows_nil]
  | cons frame frames ih =>
      cases frame with
      | error err =>
          rw [textFollows_cons rfl]
          simp [wsTrace, wsEvents, wsBody, GoesOn]
      | ok message =>
          cases message with
          | text text =>
              have hne := wsTextEvents_ne_nil crates core hserde text c
              simp [wsTrace, wsEvents, hne, textFollows_text]
          | close =>
              rw [textFollows_cons rfl]
              simp [wsTrace, wsEvents, wsBody, GoesOn]
          | _ =>
              rw [textFollows_cons rfl]
              simp only [wsTrace, wsEvents, wsBody, List.nil_append, ih c]
              simp [GoesOn]

/-- The websocket loop stops at a failed send exactly when no text comes after one
that it does not notice. -/
theorem stopsAtFailure_wsTrace_iff (frames : List (Except String Message))
    (c : WsConnection σ) :
    StopsAtFailure (wsTrace serde crates core frames c) ↔
      QuietAfterFailure serde crates core frames c := by
  induction frames generalizing c with
  | nil =>
      simp [wsTrace, QuietAfterFailure, endsAt_nil]
  | cons frame frames ih =>
      have hother : ∀ c', wsEvents serde crates core frame c = [] →
          wsBody serde crates core frame c = .next c' → frameText frame = none →
          (StopsAtFailure (wsTrace serde crates core (frame :: frames) c) ↔
            QuietAfterFailure serde crates core (frame :: frames) c) := by
        intro c' hevents hbody htext
        have hnone : ∀ text, frame ≠ .ok (.text text) := by
          rintro text rfl
          cases htext
        simp only [wsTrace, QuietAfterFailure, hevents, hbody, List.nil_append, ih c']
        simp [hnone]
      cases frame with
      | error err =>
          simp [wsTrace, wsEvents, wsBody, QuietAfterFailure, endsAt_nil]
      | ok message =>
          cases message with
          | text text =>
              obtain ⟨hnext, hleave⟩ :=
                failed_mem_wsTextEvents crates core hserde text c
              have hstops := (wsTextEvents_spec serde crates core text c).1
              simp only [wsTrace, QuietAfterFailure, wsEvents, wsBody]
              cases hbody : wsText serde crates core text c with
              | next c' =>
                  simp only
                  rw [StopsAtFailure, endsAt_append, hnext c' hbody,
                    wsTrace_eq_nil_iff crates core hserde]
                  have hih := ih c'
                  rw [StopsAtFailure] at hih
                  rw [hih]
                  constructor
                  · rintro ⟨-, hrest, hquiet⟩
                    refine ⟨?_, hrest⟩
                    rintro text' ⟨⟩ hfails
                    exact hquiet hfails
                  · rintro ⟨hquiet, hrest⟩
                    exact ⟨hstops, hrest, hquiet text rfl⟩
              | leave left =>
                  simp only [List.append_nil, and_true]
                  refine ⟨fun _ => ?_, fun _ => hstops⟩
                  rintro text' ⟨⟩ hfails
                  exact absurd hfails (hleave left hbody)
          | close =>
              simp [wsTrace, wsEvents, wsBody, QuietAfterFailure, endsAt_nil]
          | _ =>
              exact hother c rfl rfl rfl

/--
After a failed send: the pump never hands on another message and never sends again;
the websocket loop does neither exactly when no text arrives any more, before the
socket is closed, once a parse-error reply or a notification could not be sent.
-/
theorem stopsAtFailure_iff :
    (∀ (n : Nat) (c : Connection Reader σ),
      StopsAtFailure (pumpTrace serde crates core n c)) ∧
    (∀ (frames : List (Except String Message)) (c : WsConnection σ),
      StopsAtFailure (wsTrace serde crates core frames c) ↔
        QuietAfterFailure serde crates core frames c) :=
  ⟨stopsAtFailure_pumpTrace serde crates core,
    stopsAtFailure_wsTrace_iff crates core hserde⟩

omit hserde

/-- A tool call whose notification cannot be sent, or a text that is no JSON and whose
answer cannot be sent, and then a ping: the ping is handled and answered. -/
theorem not_stopsAtFailure_of_notification :
    let crates : Externals :=
      { display := fun _ => "shown", safeName := id, safeMessage := id,
        extractTraceparent := fun _ => .error "", setParent := fun _ => none }
    let core : ServerCore Nat :=
      { config := .new "server" "1.0",
        service :=
          { tools := fun s => ([], s),
            callTool := fun _ _ s => (.ok { ToolReply.text "" with toolsListChanged := true }, s),
            shutdown := id } }
    let request := fun method params => Value.object [("id", .number (.int 1)),
      ("method", .string method), ("params", .object params)]
    let serde : SerdeJson :=
      { fromStr := fun raw =>
          if raw = "call" then .ok (request "tools/call" [("name", .string "load")])
          else if raw = "ping" then .ok (request "ping" [])
          else .error "expected value",
        toString := fun _ => .ok "reply" }
    let frames := fun first => [Except.ok (Message.text first), .ok (.text "ping")]
    let connection := fun faults =>
      (⟨⟨[], faults⟩, ⟨true, .websocket⟩, ⟨0, [], []⟩⟩ : WsConnection Nat)
    ¬ StopsAtFailure (wsTrace serde crates core (frames "call")
      (connection [none, some "broken pipe"])) ∧
    ¬ StopsAtFailure (wsTrace serde crates core (frames "no json")
      (connection [some "broken pipe"])) := by
  intro crates core request serde frames connection
  constructor
  · intro h
    have hnothing := h [.handled "call", .sent ["reply"]] (.failed [])
      [.handled "ping", .sent ["reply"]] (by decide) trivial
    cases hnothing
  · intro h
    have hnothing := h [] (.failed []) [.handled "ping", .sent ["reply"]] (by decide) trivial
    cases hnothing

/-- A ping whose answer cannot be sent, and another. -/
theorem stopsAtFailure_iff_of_ping :
    let crates : Externals :=
      { display := fun _ => "shown", safeName := id, safeMessage := id,
        extractTraceparent := fun _ => .error "", setParent := fun _ => none }
    let core : ServerCore Nat :=
      { config := .new "server" "1.0",
        service :=
          { tools := fun s => ([], s), callTool := fun _ _ s => (.ok (.text ""), s),
            shutdown := id } }
    let serde : SerdeJson :=
      { fromStr := fun _ => .ok (.object [("id", .number (.int 1)), ("method", .string "ping")]),
        toString := fun _ => .ok "reply" }
    let frames := [Except.ok (Message.text "ping"), .ok (.text "ping")]
    let c : WsConnection Nat :=
      ⟨⟨[], [some "broken pipe"]⟩, ⟨true, .websocket⟩, ⟨0, [], []⟩⟩
    wsTrace serde crates core frames c = [.handled "ping", .failed []] ∧
    QuietAfterFailure serde crates core frames c := by
  intro crates core serde frames c
  have htrace : wsTrace serde crates core frames c = [.handled "ping", .failed []] := by
    decide
  have hserde : Serialises serde := fun value => ⟨"reply", rfl⟩
  obtain ⟨-, hiff⟩ := stopsAtFailure_iff crates core hserde
  refine ⟨htrace, (hiff frames c).mp ?_⟩
  rw [htrace]
  exact stopsAtFailure_handled (endsAt_singleton _) "ping"

end Stops

end Runner
end McpCore
