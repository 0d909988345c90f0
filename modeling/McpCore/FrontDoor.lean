import McpCore.Serving
import McpCore.Startup
import McpCore.Websocket

/-!
# The front door of the websocket server

`serve_websocket` builds an authenticator once; `ws_handler` has it check the headers of
each request before the upgrade, and upgrades with a cap on the size of messages.  Each
connection then has a task of its own that runs `ws_connection`.

`connections_guarded`: whatever is requested and received when, the service is only asked
for what the texts of admitted connections come to, each in a session of its own.
-/

namespace McpCore
namespace Runner

open Transport Server Auth

section Model

variable {φ σ : Type} (serde : SerdeJson) (crates : Externals)

/-- What the handlers of a router share; without the `auth` feature there is no
authenticator. -/
structure WsState (σ : Type) where
  core : ServerCore σ
  auth : Option Authenticator

/-- The state that `serve_websocket` sets up, from what `fetch` finds for an issuer. -/
def wsState (features : Startup.Features) (fetch : String → Discovery)
    (config : Startup.ServerConfig) (service : Service σ) : Except Error (WsState σ) :=
  if features.auth then
    match Authenticator.fromWsAuth fetch config.wsAuth config.wsClaimBindings with
    | .ok auth => .ok ⟨⟨config.toServerConfig, service⟩, some auth⟩
    | .error err => .error err
  else
    match config.wsAuth with
    | .none => .ok ⟨⟨config.toServerConfig, service⟩, none⟩
    | _ =>
        .error (.config
          "websocket_auth is configured but mcp-core was built without the `auth` feature")

/-- A response to a request for an upgrade. -/
inductive Response where
  | unauthorized (body : String)
  | upgrade (maxMessageSize : Text.Usize)
deriving DecidableEq

/-- The handler of the route; `libraries` is what other crates make of the headers. -/
def wsHandler (state : WsState σ) (libraries : Auth.Crates) (headers : HeaderMap) : Response :=
  let upgrade := Response.upgrade state.core.config.maxContentLength
  match state.auth with
  | none => upgrade
  | some auth =>
      match auth.check libraries headers with
      | .ok _ => upgrade
      | .error e => .unauthorized e.reason

/-- What the crate under `axum::extract::ws` makes of what a peer sends: of a message, in as
many frames as it may be, what `receiver.next()` gives where this `max_message_size` was
set. -/
structure Sockets (φ : Type) where
  receive : Text.Usize → φ → Except String Message

/-- How that crate is documented: no message is larger than what was set.  Its own limits,
such as that on a single frame, are its own affair. -/
structure Sockets.Documented (sockets : Sockets φ) : Prop where
  text : ∀ maxMessageSize frame text,
    sockets.receive maxMessageSize frame = .ok (.text text) →
      (Text.asBytes text).length ≤ maxMessageSize.val

/-- A task that serves a socket.  In its inbox is what `receiver.next()` is still to give,
`none` for the end of the stream. -/
structure WsTask where
  maxMessageSize : Text.Usize
  sink : Sink
  session : Session
  inbox : List (Option (Except String Message))
  finished : Bool

/-- The task of a connection that was just upgraded, to a socket with these faults. -/
def WsTask.upgraded (maxMessageSize : Text.Usize) (faults : List (Option String)) : WsTask :=
  ⟨maxMessageSize, ⟨[], faults⟩, Session.new.onTransport .websocket, [], false⟩

variable (sockets : Sockets φ)

def WsTask.receive (frame : Option φ) (task : WsTask) : WsTask :=
  { task with inbox := task.inbox ++ [frame.map (sockets.receive task.maxMessageSize)] }

variable (core : ServerCore σ)

/-- A task goes round its loop, if there is something to go on with. -/
def WsTask.turn (task : WsTask) (world : World σ) : List ServiceCall × WsTask × World σ :=
  if task.finished then ([], task, world)
  else
    match task.inbox with
    | [] => ([], task, world)
    | none :: inbox => ([], { task with inbox, finished := true }, world)
    | some frame :: inbox =>
        match wsBody serde crates core frame ⟨task.sink, task.session, world⟩ with
        | .next c =>
            (callsSince world c.world, ⟨task.maxMessageSize, c.sink, c.session, inbox, false⟩,
              c.world)
        | .leave c =>
            (callsSince world c.world, ⟨task.maxMessageSize, c.sink, c.session, inbox, true⟩,
              c.world)

/-- The tasks of a websocket server. -/
def wsTasks : Pool.Behaviour WsTask (Option φ) σ (World σ) (List ServiceCall) where
  arrive := WsTask.receive sockets
  turn := WsTask.turn serde crates core
  disturb service world := { world with service }

/-- One thing that happens to a websocket server. -/
inductive WsHappening (φ σ : Type) where
  | request (libraries : Auth.Crates) (headers : HeaderMap) (faults : List (Option String))
  | arrive (connection : Nat) (frame : Option φ)
  | turn (connection : Nat)
  | service (service : σ)

/-- A request that is refused changes nothing. -/
def WsHappening.move (state : WsState σ) :
    WsHappening φ σ → Option (Pool.Move WsTask (Option φ) σ)
  | .request libraries headers faults =>
      match wsHandler state libraries headers with
      | .upgrade maxMessageSize => some (.spawn (.upgraded maxMessageSize faults))
      | .unauthorized _ => none
  | .arrive connection frame => some (.arrive connection frame)
  | .turn connection => some (.turn connection)
  | .service service' => some (.disturb service')

/-- A websocket server after these happenings, and the calls each turn made. -/
def wsServing (state : WsState σ) (happenings : List (WsHappening φ σ)) (world : World σ) :
    List (Option (Nat × List ServiceCall)) × Pool.State WsTask (World σ) :=
  Mealy.run (Pool.step (wsTasks serde crates sockets state.core))
    (happenings.filterMap (WsHappening.move state)) (.init world)

end Model

section Specification

variable {φ σ : Type} (serde : SerdeJson) (crates : Externals) (sockets : Sockets φ)
  (core : ServerCore σ)

/-- What a text comes to: the values to send, the calls, and the session after it. -/
def wsHandle (message : Handled σ) (session : Session) :
    (List Value × List ServiceCall) × Session :=
  match serde.fromStr message.raw with
  | .error e => (([refused (-32700) s!"parse error: {e}" .null], []), session)
  | .ok value =>
      let (dispatch, session, world) :=
        handleMessage crates core value session ⟨message.found, [], []⟩
      ((dispatch.response.toList ++ dispatch.notifications, world.calls), session)

/-- What these texts come to on a connection of their own. -/
def wsHandleAll (messages : List (Handled σ)) :
    List (List Value × List ServiceCall) × Session :=
  Mealy.run (wsHandle serde crates core) messages (Session.new.onTransport .websocket)

/-- The text a frame carries, if it is a text. -/
def textIn : Option (Except String Message) → Option String
  | some frame => frameText frame
  | none => none

/-- Whether a connection goes on after a frame. -/
def goesOn : Option (Except String Message) → Bool
  | some (.ok .close) => false
  | some (.ok _) => true
  | _ => false

/-- The texts that a socket gives before its connection ends. -/
def heard (maxMessageSize : Text.Usize) (frames : List (Option φ)) : List String :=
  ((frames.map (Option.map (sockets.receive maxMessageSize))).takeWhile goesOn).filterMap textIn

/-- Of the sends over a socket that began with these faults one has failed. -/
def SendFailed (faults : List (Option String)) (sink : Sink) : Prop :=
  ∃ err, Faults.Fired faults sink.faults err

/-- A connection that got these frames was served as far as its `messages`; unless a send
has failed, it is served until it ends, and all that they come to was sent. -/
structure WsServed (faults : List (Option String)) (maxMessageSize : Text.Usize)
    (frames : List (Option φ)) (messages : List (Handled σ))
    (task : WsTask) (calls : List ServiceCall) : Prop where
  heard : messages.map Handled.raw <+: heard sockets maxMessageSize frames
  session : task.session = (wsHandleAll serde crates core messages).2
  calls : calls = (wsHandleAll serde crates core messages).1.flatMap Prod.snd
  finished : task.finished = true → ¬ SendFailed faults task.sink →
    messages.map Handled.raw = Runner.heard sockets maxMessageSize frames
  sent : ¬ SendFailed faults task.sink →
    task.sink.sent =
      ((wsHandleAll serde crates core messages).1.flatMap Prod.fst).map (textOf serde)

end Specification

section Frames

variable {φ : Type} {sockets : Sockets φ} {maxMessageSize : Text.Usize}

/-- A text that is heard is no larger than was set. -/
theorem fits_of_heard (hsockets : sockets.Documented) {frames : List (Option φ)} {text : String}
    (hmem : text ∈ heard sockets maxMessageSize frames) :
    (Text.asBytes text).length ≤ maxMessageSize.val := by
  obtain ⟨frame, hframe, htext⟩ := List.mem_filterMap.mp hmem
  obtain ⟨frame, -, rfl⟩ := List.mem_map.mp ((List.takeWhile_prefix _).subset hframe)
  cases frame with
  | none =>
      cases htext
  | some frame =>
      cases hreceive : sockets.receive maxMessageSize frame with
      | error e =>
          simp [hreceive, textIn, frameText] at htext
      | ok message =>
          cases message with
          | text raw =>
              simp only [Option.map_some, hreceive, textIn, frameText, Option.some.injEq] at htext
              subst htext
              exact hsockets.text maxMessageSize frame raw hreceive
          | _ =>
              simp [hreceive, textIn, frameText] at htext

/-- What is heard is heard whatever comes later, and nothing is heard after the end. -/
theorem heard_append (frames later : List (Option φ)) :
    heard sockets maxMessageSize frames <+: heard sockets maxMessageSize (frames ++ later) ∧
    ((∃ frame ∈ frames.map (Option.map (sockets.receive maxMessageSize)), goesOn frame = false) →
      heard sockets maxMessageSize (frames ++ later) = heard sockets maxMessageSize frames) := by
  unfold heard
  rw [List.map_append]
  generalize frames.map (Option.map (sockets.receive maxMessageSize)) = first
  by_cases hall : ∀ frame ∈ first, goesOn frame = true
  · rw [List.takeWhile_append_of_pos hall, List.takeWhile_eq_self_iff.mpr hall,
      List.filterMap_append]
    refine ⟨List.prefix_append _ _, fun ⟨frame, hmem, hend⟩ => ?_⟩
    rw [hall frame hmem] at hend
    cases hend
  · have hsame :
        (first ++ later.map (Option.map (sockets.receive maxMessageSize))).takeWhile goesOn =
          first.takeWhile goesOn := by
      rw [List.takeWhile_append, if_neg]
      intro hlength
      refine hall (List.takeWhile_eq_self_iff.mp ?_)
      exact (List.takeWhile_prefix _).eq_of_length hlength
    rw [hsame]
    exact ⟨List.prefix_refl _, fun _ => rfl⟩

/-- Frames after which the connection goes on are heard in full. -/
theorem prefix_heard {frames : List (Option φ)}
    {looked inbox : List (Option (Except String Message))}
    (hsplit : frames.map (Option.map (sockets.receive maxMessageSize)) = looked ++ inbox)
    (hall : ∀ frame ∈ looked, goesOn frame = true) :
    heard sockets maxMessageSize frames =
      looked.filterMap textIn ++ (inbox.takeWhile goesOn).filterMap textIn := by
  rw [heard, hsplit, List.takeWhile_append_of_pos hall, List.filterMap_append]

end Frames

section Solo

variable {σ : Type} {serde : SerdeJson} (crates : Externals) (core : ServerCore σ)

/-- What the loop leaves behind, whether it goes round or leaves. -/
def wsLeft : Loop.Step (WsConnection σ) (WsConnection σ) → WsConnection σ
  | .next c => c
  | .leave c => c

/-- What a text comes to depends on the session and the state of the service. -/
theorem wsText_spec (serde : SerdeJson) (text : String) (c : WsConnection σ) :
    (wsLeft (wsText serde crates core text c)).session =
        (wsHandle serde crates core ⟨text, c.world.service⟩ c.session).2 ∧
      (wsLeft (wsText serde crates core text c)).world.calls =
        c.world.calls ++ (wsHandle serde crates core ⟨text, c.world.service⟩ c.session).1.2 := by
  unfold wsText wsHandle
  cases serde.fromStr text with
  | error e =>
      exact ⟨rfl, (List.append_nil _).symm⟩
  | ok value =>
      obtain ⟨-, hsession, hserves⟩ := handleMessage_spec crates core value c.session c.world
      obtain ⟨-, hsession', hserves'⟩ :=
        handleMessage_spec crates core value c.session ⟨c.world.service, [], []⟩
      have hsame := hsession.trans hsession'.symm
      have hcalls := hserves.calls
      have hcalls' := hserves'.calls
      simp only
      generalize handleMessage crates core value c.session c.world = left at hsame hcalls ⊢
      generalize handleMessage crates core value c.session ⟨c.world.service, [], []⟩ = alone
        at hsame hcalls' ⊢
      obtain ⟨⟨response, notifications⟩, session, world⟩ := left
      rw [List.nil_append] at hcalls'
      have hworld := hcalls.trans (congrArg (c.world.calls ++ ·) hcalls'.symm)
      cases response with
      | none =>
          exact ⟨hsame, hworld⟩
      | some response =>
          simp only
          cases (sendValue serde response c.sink).1 with
          | true =>
              exact ⟨hsame, hworld⟩
          | false =>
              exact ⟨hsame, hworld⟩

theorem SendFailed.earlier {faults faults' : List (Option String)} {sink : Sink}
    (h : SendFailed faults' sink) (hsuffix : faults' <:+ faults) :
    SendFailed faults sink :=
  h.imp fun _ hfired => hfired.earlier hsuffix

theorem SendFailed.later {faults : List (Option String)} {sink sink' : Sink}
    (h : SendFailed faults sink) (hsuffix : sink'.faults <:+ sink.faults) :
    SendFailed faults sink' :=
  h.imp fun _ hfired => hfired.later hsuffix

/-- What sending these values came to: all of them were sent, unless a send failed. -/
structure SentOver (serde : SerdeJson) (values : List Value) (sink sink' : Sink) : Prop where
  taken : sink'.faults <:+ sink.faults
  sent : ¬ SendFailed sink.faults sink' → sink'.sent = sink.sent ++ values.map (textOf serde)

theorem sentOver_nil (serde : SerdeJson) (sink : Sink) :
    SentOver serde [] sink sink :=
  ⟨List.suffix_refl _, fun _ => (List.append_nil _).symm⟩

theorem SentOver.append {values values' : List Value} {first second third : Sink}
    (h : SentOver serde values first second) (h' : SentOver serde values' second third) :
    SentOver serde (values ++ values') first third := by
  refine ⟨h'.taken.trans h.taken, fun hnone => ?_⟩
  rw [h'.sent fun hfailed => hnone (hfailed.earlier h.taken),
    h.sent fun hfailed => hnone (hfailed.later h'.taken), List.append_assoc, List.map_append]

theorem sentOver_sendValue (hserde : CompactJson serde) (value : Value) (sink : Sink) :
    SentOver serde [value] sink (sendValue serde value sink).2 ∧
      ((sendValue serde value sink).1 = true →
        SendFailed sink.faults (sendValue serde value sink).2) := by
  obtain ⟨sent, faults⟩ := sink
  simp only [sendValue, textOf_eq hserde value, Sink.send]
  rcases faults with _ | ⟨_ | err, faults⟩
  · exact ⟨⟨List.suffix_refl _, fun _ => rfl⟩, fun h => by cases h⟩
  · exact ⟨⟨List.suffix_cons _ _, fun _ => rfl⟩, fun h => by cases h⟩
  · exact ⟨⟨List.suffix_cons _ _, fun hnone => absurd ⟨err, Faults.fired_cons⟩ hnone⟩,
      fun _ => ⟨err, Faults.fired_cons⟩⟩

theorem sentOver_sendNotifications (hserde : CompactJson serde) (values : List Value)
    (sink : Sink) :
    SentOver serde values sink (sendNotifications serde values sink) := by
  induction values generalizing sink with
  | nil =>
      exact sentOver_nil serde sink
  | cons value values ih =>
      obtain ⟨hsent, hfailed⟩ := sentOver_sendValue hserde value sink
      unfold sendNotifications
      generalize sendValue serde value sink = left at hsent hfailed
      obtain ⟨failed, sink'⟩ := left
      cases failed with
      | true =>
          exact ⟨hsent.taken, fun hnone => absurd (hfailed rfl) hnone⟩
      | false =>
          exact hsent.append (ih sink')

/-- What a text comes to is sent; only where a send fails the loop is left. -/
theorem wsText_sends (hserde : CompactJson serde) (text : String) (c : WsConnection σ) :
    let step := wsText serde crates core text c
    SentOver serde (wsHandle serde crates core ⟨text, c.world.service⟩ c.session).1.1 c.sink
        (wsLeft step).sink ∧
      (∀ c', step = .leave c' → SendFailed c.sink.faults c'.sink) := by
  simp only
  unfold wsText wsHandle
  cases serde.fromStr text with
  | error e =>
      simp only [← parseErrorResponse_eq]
      exact ⟨(sentOver_sendValue hserde _ c.sink).1, fun _ h => by cases h⟩
  | ok value =>
      obtain ⟨hdispatch, -, -⟩ := handleMessage_spec crates core value c.session c.world
      obtain ⟨hdispatch', -, -⟩ :=
        handleMessage_spec crates core value c.session ⟨c.world.service, [], []⟩
      have hsame := hdispatch.trans hdispatch'.symm
      simp only
      generalize handleMessage crates core value c.session c.world = left at hsame ⊢
      generalize handleMessage crates core value c.session ⟨c.world.service, [], []⟩ = alone
        at hsame ⊢
      obtain ⟨dispatch, session, world⟩ := left
      obtain ⟨dispatch', session', world'⟩ := alone
      obtain rfl : dispatch = dispatch' := hsame
      obtain ⟨response, notifications⟩ := dispatch
      cases response with
      | none =>
          exact ⟨sentOver_sendNotifications hserde notifications c.sink, fun _ h => by cases h⟩
      | some response =>
          obtain ⟨hsent, hfailed⟩ := sentOver_sendValue hserde response c.sink
          simp only [Option.toList_some]
          generalize sendValue serde response c.sink = left at hsent hfailed ⊢
          obtain ⟨failed, sink⟩ := left
          cases failed with
          | true =>
              refine ⟨⟨hsent.taken, fun hnone => absurd (hfailed rfl) hnone⟩, fun c' hleave => ?_⟩
              cases hleave
              exact hfailed rfl
          | false =>
              exact ⟨hsent.append (sentOver_sendNotifications hserde notifications sink),
                fun _ h => by cases h⟩

/-- A turn in which a text is received. -/
theorem turn_of_text (hserde : CompactJson serde) {task : WsTask} (hopen : task.finished = false)
    {text : String} {inbox : List (Option (Except String Message))}
    (hinbox : task.inbox = some (.ok (.text text)) :: inbox) (world : World σ) :
    (task.turn serde crates core world).1 =
        (wsHandle serde crates core ⟨text, world.service⟩ task.session).1.2 ∧
      ∃ sink finished, (task.turn serde crates core world).2.1 =
          ⟨task.maxMessageSize, sink,
            (wsHandle serde crates core ⟨text, world.service⟩ task.session).2, inbox, finished⟩ ∧
        SentOver serde (wsHandle serde crates core ⟨text, world.service⟩ task.session).1.1
          task.sink sink ∧
        (finished = true → SendFailed task.sink.faults sink) := by
  obtain ⟨hsession, hcalls⟩ :=
    wsText_spec crates core serde text ⟨task.sink, task.session, world⟩
  obtain ⟨hsent, hleft⟩ := wsText_sends crates core hserde text ⟨task.sink, task.session, world⟩
  have hbody : wsBody serde crates core (.ok (.text text)) ⟨task.sink, task.session, world⟩ =
      wsText serde crates core text ⟨task.sink, task.session, world⟩ := rfl
  simp only [WsTask.turn, hopen, Bool.false_eq_true, if_false, hinbox, hbody]
  generalize wsText serde crates core text ⟨task.sink, task.session, world⟩ = step
    at hsession hcalls hsent hleft
  cases step with
  | next c =>
      refine ⟨callsSince_append hcalls, c.sink, false, ?_, hsent, fun h => by cases h⟩
      rw [← hsession]
      rfl
  | leave c =>
      refine ⟨callsSince_append hcalls, c.sink, true, ?_, hsent, fun _ => hleft c rfl⟩
      rw [← hsession]
      rfl

/-- A turn in which a frame is received that is no text. -/
theorem turn_of_other (serde : SerdeJson) {task : WsTask} (hopen : task.finished = false)
    {frame : Option (Except String Message)} {inbox : List (Option (Except String Message))}
    (hinbox : task.inbox = frame :: inbox) (htext : textIn frame = none) (world : World σ) :
    (task.turn serde crates core world).1 = [] ∧
      (task.turn serde crates core world).2.1 =
        { task with inbox, finished := !goesOn frame } := by
  have hquiet : callsSince world world = [] := callsSince_append (by simp)
  unfold WsTask.turn
  rw [hopen, hinbox]
  rcases frame with _ | e | message
  · exact ⟨rfl, rfl⟩
  · exact ⟨hquiet, rfl⟩
  · cases message with
    | text text =>
        cases htext
    | _ =>
        exact ⟨hquiet, rfl⟩

end Solo

section Progress

variable {φ σ : Type} {serde : SerdeJson} (crates : Externals) (sockets : Sockets φ)
  (core : ServerCore σ)

/-- A connection that was served so far, when its task has looked at the frames `looked`. -/
structure WsProgress (serde : SerdeJson) (faults : List (Option String))
    (maxMessageSize : Text.Usize) (frames : List (Option φ))
    (looked : List (Option (Except String Message))) (messages : List (Handled σ))
    (task : WsTask) (calls : List ServiceCall) : Prop where
  served : WsServed serde crates sockets core faults maxMessageSize frames messages task calls
  cap : task.maxMessageSize = maxMessageSize
  split : task.finished = false →
    frames.map (Option.map (sockets.receive maxMessageSize)) = looked ++ task.inbox
  going : task.finished = false → ∀ frame ∈ looked, goesOn frame = true
  handled : task.finished = false → messages.map Handled.raw = looked.filterMap textIn
  ended : task.finished = true → ¬ SendFailed faults task.sink →
    ∃ frame ∈ frames.map (Option.map (sockets.receive maxMessageSize)), goesOn frame = false
  taken : task.sink.faults <:+ faults

variable {sockets}
variable {faults : List (Option String)} {maxMessageSize : Text.Usize}
  {frames : List (Option φ)} {looked inbox : List (Option (Except String Message))}
  {frame : Option (Except String Message)}
  {messages : List (Handled σ)} {task : WsTask} {calls : List ServiceCall}

/-- A connection that was just upgraded. -/
theorem progress_upgraded :
    WsProgress crates sockets core serde faults maxMessageSize [] [] []
      (.upgraded maxMessageSize faults) [] where
  served :=
    { heard := List.prefix_refl _, session := rfl, calls := rfl, finished := nofun,
      sent := fun _ => rfl }
  cap := rfl
  split _ := rfl
  going _ := nofun
  handled _ := rfl
  ended := nofun
  taken := List.suffix_refl _

/-- A frame arrives. -/
theorem WsProgress.receive
    (h : WsProgress crates sockets core serde faults maxMessageSize frames looked messages task
      calls)
    (frame : Option φ) :
    WsProgress crates sockets core serde faults maxMessageSize (frames ++ [frame]) looked messages
      (task.receive sockets frame) calls where
  served :=
    { heard := h.served.heard.trans (heard_append frames [frame]).1
      session := h.served.session
      calls := h.served.calls
      finished := by
        intro hfinished hsends
        rw [(heard_append frames [frame]).2 (h.ended hfinished hsends)]
        exact h.served.finished hfinished hsends
      sent := h.served.sent }
  cap := h.cap
  split hopen := by
    rw [List.map_append, h.split hopen, List.append_assoc, WsTask.receive, h.cap]
    rfl
  going := h.going
  handled := h.handled
  ended hfinished hsends := by
    obtain ⟨frame', hmem, hend⟩ := h.ended hfinished hsends
    rw [List.map_append]
    exact ⟨frame', List.mem_append_left _ hmem, hend⟩
  taken := h.taken

/-- What an open connection heard so far, and what it has yet to look at. -/
theorem WsProgress.heard_eq
    (h : WsProgress crates sockets core serde faults maxMessageSize frames looked messages task
      calls)
    (hopen : task.finished = false) :
    heard sockets maxMessageSize frames =
      messages.map Handled.raw ++ (task.inbox.takeWhile goesOn).filterMap textIn := by
  rw [prefix_heard (h.split hopen) (h.going hopen), h.handled hopen]

/-- A frame that is no text ends the connection or is passed over. -/
theorem WsProgress.other
    (h : WsProgress crates sockets core serde faults maxMessageSize frames looked messages task
      calls)
    (hopen : task.finished = false) (hinbox : task.inbox = frame :: inbox)
    (htext : textIn frame = none) :
    WsProgress crates sockets core serde faults maxMessageSize frames (looked ++ [frame]) messages
      { task with inbox, finished := !goesOn frame } calls where
  served :=
    { heard := h.served.heard
      session := h.served.session
      calls := h.served.calls
      finished := by
        intro hfinished _
        have hend : goesOn frame = false := by
          simpa using hfinished
        rw [h.heard_eq crates core hopen, hinbox, List.takeWhile_cons_of_neg (by simp [hend])]
        exact (List.append_nil _).symm
      sent := h.served.sent }
  cap := h.cap
  split _ := by
    rw [h.split hopen, hinbox, List.append_assoc]
    rfl
  going hgoes frame' hmem := by
    rcases List.mem_append.mp hmem with hmem | hmem
    · exact h.going hopen frame' hmem
    · rw [List.mem_singleton.mp hmem]
      simpa using hgoes
  handled _ := by
    rw [List.filterMap_append, List.filterMap_cons_none htext, h.handled hopen]
    exact (List.append_nil _).symm
  ended hfinished _ := by
    refine ⟨frame, ?_, by simpa using hfinished⟩
    rw [h.split hopen, hinbox]
    exact List.mem_append_right _ List.mem_cons_self
  taken := h.taken

theorem wsHandleAll_concat (serde : SerdeJson) (messages : List (Handled σ))
    (message : Handled σ) :
    wsHandleAll serde crates core (messages ++ [message]) =
      ((wsHandleAll serde crates core messages).1 ++
          [(wsHandle serde crates core message (wsHandleAll serde crates core messages).2).1],
        (wsHandle serde crates core message (wsHandleAll serde crates core messages).2).2) :=
  Mealy.run_concat _ _ _ _

/-- A text is handled, whether or not what it comes to can be sent. -/
theorem WsProgress.text
    (h : WsProgress crates sockets core serde faults maxMessageSize frames looked messages task
      calls)
    (hopen : task.finished = false) {text : String}
    (hinbox : task.inbox = some (.ok (.text text)) :: inbox) (found : σ)
    {sink : Sink} {finished : Bool}
    (hsent : SentOver serde (wsHandle serde crates core ⟨text, found⟩ task.session).1.1
      task.sink sink) (hfailed : finished = true → SendFailed task.sink.faults sink) :
    WsProgress crates sockets core serde faults maxMessageSize frames
      (looked ++ [some (.ok (.text text))]) (messages ++ [⟨text, found⟩])
      ⟨task.maxMessageSize, sink, (wsHandle serde crates core ⟨text, found⟩ task.session).2,
        inbox, finished⟩
      (calls ++ (wsHandle serde crates core ⟨text, found⟩ task.session).1.2) := by
  have hheard : heard sockets maxMessageSize frames =
      (messages ++ [Handled.mk text found]).map Handled.raw ++
        (inbox.takeWhile goesOn).filterMap textIn := by
    have htext : textIn (some (.ok (.text text))) = some text := rfl
    rw [h.heard_eq crates core hopen, hinbox, List.takeWhile_cons_of_pos rfl,
      List.filterMap_cons_some htext, List.map_append, List.append_assoc]
    rfl
  have hbegins : (messages ++ [Handled.mk text found]).map Handled.raw <+:
      heard sockets maxMessageSize frames := by
    rw [hheard]
    exact List.prefix_append _ _
  have hleft : finished = true → SendFailed faults sink :=
    fun hfinished => (hfailed hfinished).earlier h.taken
  refine
    { served :=
        { heard := hbegins
          session := ?_
          calls := ?_
          finished := fun hfinished hsends => absurd (hleft hfinished) hsends
          sent := fun hsends => ?_ }
      cap := h.cap
      split := fun _ => ?_
      going := fun _ frame hmem => ?_
      handled := fun _ => ?_
      ended := fun hfinished hsends => absurd (hleft hfinished) hsends
      taken := hsent.taken.trans h.taken }
  · rw [wsHandleAll_concat, ← h.served.session]
  · rw [wsHandleAll_concat, ← h.served.session, List.flatMap_append, ← h.served.calls,
      List.flatMap_singleton]
  · rw [wsHandleAll_concat, ← h.served.session, List.flatMap_append, List.map_append,
      ← h.served.sent fun hbefore => hsends (hbefore.later hsent.taken), List.flatMap_singleton]
    exact hsent.sent fun hsince => hsends (hsince.earlier h.taken)
  · rw [h.split hopen, hinbox, List.append_assoc]
    rfl
  · rcases List.mem_append.mp hmem with hmem | hmem
    · exact h.going hopen frame hmem
    · rw [List.mem_singleton.mp hmem]
      rfl
  · rw [List.map_append, List.filterMap_append, h.handled hopen]
    rfl

/-- A task takes a turn, in which it looks at the next frame if there is one. -/
theorem WsProgress.turn (hserde : CompactJson serde)
    (h : WsProgress crates sockets core serde faults maxMessageSize frames looked messages task
      calls)
    (world : World σ) :
    ∃ more looked', WsProgress crates sockets core serde faults maxMessageSize frames looked'
        (messages ++ more) (task.turn serde crates core world).2.1
        (calls ++ (task.turn serde crates core world).1) ∧
      (more.map Handled.found).Sublist [world.service] ∧
      ((task.turn serde crates core world).2.1.finished = true ∨
        min frames.length (looked.length + 1) ≤ looked'.length) := by
  by_cases hfinished : task.finished = true
  · refine ⟨[], looked, ?_, List.nil_sublist _, .inl ?_⟩
    · simp only [WsTask.turn, hfinished, if_true, List.append_nil]
      exact h
    · simp only [WsTask.turn, hfinished, if_true]
  · have hopen : task.finished = false := by
      simpa using hfinished
    have hlength := congrArg List.length (h.split hopen)
    rw [List.length_map, List.length_append] at hlength
    cases hinbox : task.inbox with
    | nil =>
        rw [hinbox, List.length_nil] at hlength
        refine ⟨[], looked, ?_, List.nil_sublist _, .inr (by omega)⟩
        simp only [WsTask.turn, hopen, Bool.false_eq_true, if_false, hinbox, List.append_nil]
        exact h
    | cons frame inbox =>
        have hmore : min frames.length (looked.length + 1) ≤ (looked ++ [frame]).length := by
          rw [List.length_append, List.length_singleton]
          omega
        by_cases htext : textIn frame = none
        · obtain ⟨hcalls, htask⟩ := turn_of_other crates core serde hopen hinbox htext world
          refine ⟨[], looked ++ [frame], ?_, List.nil_sublist _, .inr hmore⟩
          rw [hcalls, htask, List.append_nil, List.append_nil]
          exact h.other crates core hopen hinbox htext
        · obtain ⟨text, rfl⟩ : ∃ text, frame = some (.ok (.text text)) := by
            rcases frame with _ | e | message
            · exact absurd rfl htext
            · exact absurd rfl htext
            · cases message with
              | text text =>
                  exact ⟨text, rfl⟩
              | _ =>
                  exact absurd rfl htext
          obtain ⟨hcalls, sink, finished, htask, hsent, hfailed⟩ :=
            turn_of_text crates core hserde hopen hinbox world
          refine ⟨[⟨text, world.service⟩], _, ?_, List.Sublist.refl _, .inr hmore⟩
          rw [hcalls, htask]
          exact h.text crates core hopen hinbox world.service hsent hfailed

/-- All that was heard in the frames that were looked at was handled. -/
theorem WsProgress.heard_first {first later : List (Option φ)}
    (h : WsProgress crates sockets core serde faults maxMessageSize (first ++ later) looked
      messages task calls)
    (hlooked : task.finished = true ∨ first.length ≤ looked.length)
    (hgoes : task.finished = false ∨ ¬ SendFailed faults task.sink) :
    heard sockets maxMessageSize first <+: messages.map Handled.raw := by
  by_cases hfinished : task.finished = true
  · have hsends := hgoes.resolve_left (by simp [hfinished])
    rw [h.served.finished hfinished hsends]
    exact (heard_append first later).1
  · have hopen : task.finished = false := by
      simpa using hfinished
    have hsplit := h.split hopen
    rw [List.map_append] at hsplit
    have hbegins : first.map (Option.map (sockets.receive maxMessageSize)) <+: looked := by
      refine List.prefix_of_prefix_length_le ⟨_, rfl⟩ ⟨_, hsplit.symm⟩ ?_
      rw [List.length_map]
      exact hlooked.resolve_left hfinished
    rw [heard, h.handled hopen, List.takeWhile_eq_self_iff.mpr fun frame hmem =>
      h.going hopen frame (hbegins.subset hmem)]
    exact hbegins.filterMap _

/-- A task that has finished stays so. -/
theorem finished_alone (life : List (Pool.Own (Option φ) (World σ)))
    (hfinished : task.finished = true) :
    (Mealy.run (Pool.ownStep (wsTasks serde crates sockets core)) life task).2.finished = true := by
  refine Mealy.run_invariant _ (fun task : WsTask => task.finished = true)
    (fun own task hfinished => ?_) life hfinished
  cases own with
  | arrive frame =>
      exact hfinished
  | turn world =>
      simp only [Pool.ownStep, wsTasks, WsTask.turn, hfinished, if_true]

/-- A connection that is alone is served so far, whatever arrives and whenever its task
takes turns; in as many turns it has looked at as many frames, unless it has finished. -/
theorem WsProgress.alone (hserde : CompactJson serde)
    (life : List (Pool.Own (Option φ) (World σ)))
    (h : WsProgress crates sockets core serde faults maxMessageSize frames looked messages task
      calls) :
    let run := Mealy.run (Pool.ownStep (wsTasks serde crates sockets core)) life task
    ∃ more looked', WsProgress crates sockets core serde faults maxMessageSize
        (frames ++ life.filterMap Pool.Own.arrival) looked' (messages ++ more) run.2
        (calls ++ (run.1.filterMap id).flatten) ∧
      (more.map Handled.found).Sublist
        ((life.filterMap Pool.Own.found).map World.service) ∧
      (run.2.finished = true ∨
        min frames.length (looked.length + (life.filterMap Pool.Own.found).length) ≤
          looked'.length) := by
  induction life generalizing frames looked messages task calls with
  | nil =>
      refine ⟨[], looked, ?_, List.Sublist.refl _, .inr (Nat.min_le_right _ _)⟩
      simpa using h
  | cons own life ih =>
      cases own with
      | arrive frame =>
          obtain ⟨more, looked', hprogress, hfound, hgets⟩ := ih (h.receive crates core frame)
          refine ⟨more, looked', ?_, hfound, hgets.imp_right fun hle => ?_⟩
          · rw [List.append_assoc] at hprogress
            exact hprogress
          · rw [List.length_append, List.length_singleton] at hle
            refine Nat.le_trans ?_ hle
            have hcount : ((Pool.Own.arrive frame :: life).filterMap
                (Pool.Own.found (ρ := World σ))).length =
                  (life.filterMap Pool.Own.found).length := rfl
            omega
      | turn world =>
          obtain ⟨first, looked', hturn, hfound, hlooks⟩ := h.turn crates core hserde world
          obtain ⟨rest, looked'', hrest, hfounds, hgets⟩ := ih hturn
          refine ⟨first ++ rest, looked'', ?_, ?_, ?_⟩
          · rw [List.append_assoc, List.append_assoc] at hrest
            exact hrest
          · rw [List.map_append]
            exact hfound.append hfounds
          · rcases hlooks with hfinished | hle
            · exact .inl (finished_alone crates core life hfinished)
            · refine hgets.imp_right fun hle' => ?_
              have hcount : ((Pool.Own.turn world :: life).filterMap
                  (Pool.Own.found (α := Option φ))).length =
                    (life.filterMap (Pool.Own.found (α := Option φ))).length
                      + 1 := rfl
              omega

end Progress

section Server

variable {φ σ : Type} {serde : SerdeJson} (crates : Externals) (sockets : Sockets φ)
  (state : WsState σ)

/-- The frames that arrive on a connection. -/
def wsFrames (n : Nat) (happenings : List (WsHappening φ σ)) :
    List (Option φ) :=
  happenings.filterMap fun
    | .arrive k frame => if k = n then some frame else none
    | _ => none

/-- How many turns the task of a connection takes. -/
def wsTurns (n : Nat) (happenings : List (WsHappening φ σ)) : Nat :=
  happenings.countP fun
    | .turn k => k == n
    | _ => false

/-- What happens to a connection from a point on. -/
def wsLifeOf (serde : SerdeJson) (n : Nat) (before after : List (WsHappening φ σ))
    (world : World σ) : List (Pool.Own (Option φ) (World σ)) :=
  Pool.owns (wsTasks serde crates sockets state.core) n (after.filterMap (WsHappening.move state))
    (wsServing serde crates sockets state before world).2

/-- The states of the service that the turns of a connection find, from a point on. -/
def wsFoundBy (serde : SerdeJson) (n : Nat) (before after : List (WsHappening φ σ))
    (world : World σ) : List σ :=
  ((wsLifeOf crates sockets state serde n before after world).filterMap Pool.Own.found).map
    World.service

theorem arrivals_wsLifeOf (serde : SerdeJson) (n : Nat) (before after : List (WsHappening φ σ))
    (world : World σ) :
    (wsLifeOf crates sockets state serde n before after world).filterMap Pool.Own.arrival =
      wsFrames n after := by
  rw [wsLifeOf, Pool.arrivals_owns, List.filterMap_filterMap, wsFrames]
  refine List.filterMap_congr fun happening _ => ?_
  cases happening with
  | request libraries headers faults =>
      simp only [WsHappening.move]
      cases wsHandler state libraries headers with
      | _ =>
          rfl
  | _ =>
      rfl

theorem length_wsFound (serde : SerdeJson) (n : Nat) (before after : List (WsHappening φ σ))
    (world : World σ) :
    ((wsLifeOf crates sockets state serde n before after world).filterMap
      (Pool.Own.found (α := Option φ))).length = wsTurns n after := by
  refine (Pool.length_founds _ _).trans ?_
  rw [List.countP_filterMap, wsTurns]
  refine List.countP_congr fun happening _ => ?_
  cases happening with
  | request libraries headers faults =>
      simp only [WsHappening.move]
      cases wsHandler state libraries headers with
      | _ =>
          exact Iff.rfl
  | _ =>
      exact Iff.rfl

theorem wsLifeOf_append (serde : SerdeJson) (n : Nat)
    (before soon later : List (WsHappening φ σ)) (world : World σ) :
    wsLifeOf crates sockets state serde n before (soon ++ later) world =
      wsLifeOf crates sockets state serde n before soon world ++
        wsLifeOf crates sockets state serde n (before ++ soon) later world := by
  simp only [wsLifeOf, wsServing, List.filterMap_append, Pool.owns_append, Mealy.run_append_snd]

/-- The calls of a turn are those that it adds to the world's. -/
theorem calls_wsTurn (serde : SerdeJson) (core : ServerCore σ) (task : WsTask)
    (world : World σ) :
    (task.turn serde crates core world).2.2.calls =
      world.calls ++ (task.turn serde crates core world).1 := by
  have hquiet : world.calls = world.calls ++ [] := (List.append_nil _).symm
  unfold WsTask.turn
  by_cases hfinished : task.finished = true
  · rw [if_pos hfinished]
    exact hquiet
  · rw [if_neg hfinished]
    rcases task.inbox with _ | ⟨frame, inbox⟩
    · exact hquiet
    · rcases frame with _ | frame
      · exact hquiet
      · have hbody : ∃ calls, (wsLeft (wsBody serde crates core frame
            ⟨task.sink, task.session, world⟩)).world.calls = world.calls ++ calls := by
          rcases frame with e | message
          · exact ⟨[], hquiet⟩
          · cases message with
            | text text =>
                exact ⟨_, (wsText_spec crates core serde text _).2⟩
            | _ =>
                exact ⟨[], hquiet⟩
        obtain ⟨calls, hcalls⟩ := hbody
        simp only
        generalize wsBody serde crates core frame ⟨task.sink, task.session, world⟩ = step
          at hcalls
        have hsince := callsSince_append hcalls
        cases step with
        | _ c =>
            exact hcalls.trans (congrArg (world.calls ++ ·) hsince.symm)

/-- The calls in the world are those of the turns, in the order in which they were made. -/
theorem calls_wsServing (serde : SerdeJson) (happenings : List (WsHappening φ σ))
    (world : World σ) :
    (wsServing serde crates sockets state happenings world).2.shared.calls =
      world.calls ++ (wsServing serde crates sockets state happenings world).1.flatMap madeIn := by
  exact Pool.run_log World.calls madeIn rfl (fun _ => calls_wsTurn crates serde state.core)
    (fun _ _ => rfl) _ (.init world)

theorem wsHandler_upgrade {libraries : Auth.Crates} {headers : HeaderMap}
    {maxMessageSize : Text.Usize}
    (h : wsHandler state libraries headers = .upgrade maxMessageSize) :
    maxMessageSize = state.core.config.maxContentLength := by
  unfold wsHandler at h
  cases hauth : state.auth with
  | none =>
      simp only [hauth] at h
      exact (Response.upgrade.inj h).symm
  | some auth =>
      simp only [hauth] at h
      cases hcheck : auth.check libraries headers with
      | ok _ =>
          simp only [hcheck] at h
          exact (Response.upgrade.inj h).symm
      | error e =>
          simp only [hcheck] at h
          cases h

theorem move_request {libraries : Auth.Crates} {headers : HeaderMap}
    {maxMessageSize : Text.Usize} (faults : List (Option String))
    (h : wsHandler state libraries headers = .upgrade maxMessageSize) :
    WsHappening.move state (.request libraries headers faults : WsHappening φ σ) =
      some (.spawn (.upgraded maxMessageSize faults)) := by
  simp only [WsHappening.move, h]

/-- From its upgrade on a connection is served as if it were alone. -/
theorem wsServing_upgrade (serde : SerdeJson) (before after : List (WsHappening φ σ))
    {libraries : Auth.Crates} {headers : HeaderMap} (faults : List (Option String))
    {maxMessageSize : Text.Usize}
    (h : wsHandler state libraries headers = .upgrade maxMessageSize) (world : World σ) :
    let n := (wsServing serde crates sockets state before world).2.tasks.length
    let run := wsServing serde crates sockets state
      (before ++ .request libraries headers faults :: after) world
    let alone := Mealy.run (Pool.ownStep (wsTasks serde crates sockets state.core))
      (wsLifeOf crates sockets state serde n (before ++ [.request libraries headers faults]) after
        world)
      (.upgraded maxMessageSize faults)
    run.2.tasks[n]? = some alone.2 ∧ Pool.putOut n run.1 = alone.1.filterMap id := by
  intro n run alone
  have hspawn := Pool.run_spawn (b := wsTasks serde crates sockets state.core)
    (before.filterMap (WsHappening.move state)) (after.filterMap (WsHappening.move state))
    (.upgraded maxMessageSize faults) (.init world)
  simp only [run, alone, n, wsLifeOf, wsServing, List.filterMap_append,
    List.filterMap_cons_some (move_request state faults h), List.filterMap_nil]
  exact hspawn

/-- An admitted connection was served the texts that it heard, as far as it got. -/
theorem served_of_upgrade (hserde : CompactJson serde) (before soon later : List (WsHappening φ σ))
    (libraries : Auth.Crates) (headers : HeaderMap) (faults : List (Option String))
    (maxMessageSize : Text.Usize)
    (hupgrade : wsHandler state libraries headers = .upgrade maxMessageSize)
    (world : World σ) :
    let n := (wsServing serde crates sockets state before world).2.tasks.length
    let run := wsServing serde crates sockets state
      (before ++ .request libraries headers faults :: (soon ++ later)) world
    ∃ task messages, run.2.tasks[n]? = some task ∧
      WsServed serde crates sockets state.core faults maxMessageSize
        (wsFrames n (soon ++ later)) messages task (Pool.putOut n run.1).flatten ∧
      (messages.map Handled.found).Sublist (wsFoundBy crates sockets state serde n
        (before ++ [.request libraries headers faults]) (soon ++ later) world) ∧
      ((wsFrames n soon).length ≤ wsTurns n later →
        task.finished = false ∨ ¬ SendFailed faults task.sink →
        heard sockets maxMessageSize (wsFrames n soon) <+: messages.map Handled.raw) := by
  intro n run
  obtain ⟨htask, hputOut⟩ := wsServing_upgrade crates sockets state serde before
    (soon ++ later) faults hupgrade world
  have hsplit := wsLifeOf_append crates sockets state serde n
    (before ++ [.request libraries headers faults]) soon later world
  have hsoon := arrivals_wsLifeOf crates sockets state serde n
    (before ++ [.request libraries headers faults]) soon world
  have hlater := arrivals_wsLifeOf crates sockets state serde n
    (before ++ [.request libraries headers faults] ++ soon) later world
  have hturns := length_wsFound crates sockets state serde n
    (before ++ [.request libraries headers faults] ++ soon) later world
  have hframes : wsFrames n (soon ++ later) = wsFrames n soon ++ wsFrames n later :=
    List.filterMap_append
  rw [hsplit] at htask hputOut
  unfold wsFoundBy
  rw [hsplit]
  generalize wsLifeOf crates sockets state serde n (before ++ [.request libraries headers faults])
    soon world = first at htask hputOut hsoon ⊢
  generalize wsLifeOf crates sockets state serde n
    (before ++ [.request libraries headers faults] ++ soon) later world = rest
    at htask hputOut hlater hturns ⊢
  obtain ⟨messages, looked, hprogress, hfound, -⟩ :=
    (show WsProgress crates sockets state.core serde faults maxMessageSize [] [] [] _ [] from
      progress_upgraded crates state.core).alone crates state.core hserde first
  rw [hsoon, List.nil_append] at hprogress
  obtain ⟨more, looked', hserved, hfounds, hlooks⟩ := hprogress.alone crates state.core hserde rest
  rw [hlater, ← hframes] at hserved
  rw [hturns] at hlooks
  refine ⟨_, [] ++ messages ++ more, htask, ?_, ?_, fun hk hgoes => ?_⟩
  · rw [Mealy.run_append_snd, hputOut, Mealy.run_append_fst, List.filterMap_append,
      List.flatten_append]
    exact hserved.served
  · rw [List.filterMap_append, List.map_append, List.map_append, List.map_append]
    exact hfound.append hfounds
  · rw [Mealy.run_append_snd] at hgoes
    rw [hframes] at hserved
    refine hserved.heard_first crates state.core (hlooks.imp_right fun hle => ?_) hgoes
    exact Nat.le_trans (Nat.le_min.mpr ⟨Nat.le_refl _, Nat.le_add_left_of_le hk⟩) hle

/--
Sockets are served at once and each as if alone: whatever was requested before, whatever
frames arrive on which connection, which tasks take turns and how the service changes in
between, an admitted connection was served the texts that its socket gave, none larger than
the cap, each once and in order, up to where it ended; in as many turns as frames had
arrived, all that was heard in them was handled, unless a send had failed.
-/
theorem sockets_served (hserde : CompactJson serde) (hsockets : sockets.Documented)
    (before soon later : List (WsHappening φ σ)) (libraries : Auth.Crates) (headers : HeaderMap)
    (faults : List (Option String)) (maxMessageSize : Text.Usize)
    (hupgrade : wsHandler state libraries headers = .upgrade maxMessageSize)
    (world : World σ) :
    let n := (wsServing serde crates sockets state before world).2.tasks.length
    let run := wsServing serde crates sockets state
      (before ++ .request libraries headers faults :: (soon ++ later)) world
    run.2.shared.calls = world.calls ++ run.1.flatMap madeIn ∧
    ∃ task messages, run.2.tasks[n]? = some task ∧
      WsServed serde crates sockets state.core faults maxMessageSize
        (wsFrames n (soon ++ later)) messages task (Pool.putOut n run.1).flatten ∧
      (∀ message ∈ messages,
        (Text.asBytes message.raw).length ≤ state.core.config.maxContentLength.val) ∧
      (messages.map Handled.found).Sublist (wsFoundBy crates sockets state serde n
        (before ++ [.request libraries headers faults]) (soon ++ later) world) ∧
      ((wsFrames n soon).length ≤ wsTurns n later →
        task.finished = false ∨ ¬ SendFailed faults task.sink →
        heard sockets maxMessageSize (wsFrames n soon) <+: messages.map Handled.raw) := by
  intro n run
  obtain ⟨task, messages, htask, hserved, hfound, hheard⟩ :=
    served_of_upgrade crates sockets state hserde before soon later libraries headers faults
      maxMessageSize hupgrade world
  refine ⟨calls_wsServing crates sockets state serde _ world, task, messages, htask, hserved,
    fun message hmem => ?_, hfound, hheard⟩
  rw [← wsHandler_upgrade state hupgrade]
  exact fits_of_heard hsockets (hserved.heard.subset (List.mem_map_of_mem hmem))

/-- A crate that gives every message as it is, unless it is too large or larger than the
16 MiB that it allows for a frame. -/
def unfragmented : Sockets Message where
  receive maxMessageSize
    | .text text =>
        if (Text.asBytes text).length ≤ min maxMessageSize.val 16777216 then .ok (.text text)
        else .error "Space limit exceeded"
    | .binary bytes =>
        if bytes.length ≤ min maxMessageSize.val 16777216 then .ok (.binary bytes)
        else .error "Space limit exceeded"
    | message => .ok message

theorem documented_unfragmented : unfragmented.Documented where
  text maxMessageSize frame text h := by
    cases frame with
    | text raw =>
        simp only [unfragmented] at h
        split at h
        · cases h
          exact Nat.le_trans ‹_› (Nat.min_le_left _ _)
        · cases h
    | binary bytes =>
        simp only [unfragmented] at h
        split at h
        · cases h
        · cases h
    | _ =>
        cases h

/-- A ping is answered among frames of other kinds, while another client hangs up. -/
theorem sockets_served_of_ping :
    let ping := "\x7b\"id\":7,\"method\":\"ping\"\x7d"
    let core := saying (.ok (.text ""))
    let libraries := cratesFor ⟨none, none, none⟩
    let soon : List (WsHappening Message Unit) :=
      [.arrive 0 none, .arrive 1 (some (.binary [1])), .arrive 1 (some (.text ping)),
        .arrive 1 (some (.text "nope"))]
    let later : List (WsHappening Message Unit) :=
      [.turn 1, .turn 0, .turn 1, .arrive 1 (some .close), .turn 1, .turn 1]
    let run := wsServing pingJson plainCrates unfragmented ⟨core, none⟩
      ([.request libraries [] []] ++ .request libraries [] [] :: (soon ++ later)) ⟨(), [], []⟩
    ∃ task messages, run.2.tasks[1]? = some task ∧
      WsServed pingJson plainCrates unfragmented core [] core.config.maxContentLength
        (wsFrames 1 (soon ++ later)) messages task (Pool.putOut 1 run.1).flatten ∧
      messages.map Handled.raw = [ping, "nope"] := by
  intro ping core libraries soon later run
  have hserde : CompactJson pingJson :=
    compactJson_plainJson _ _
  obtain ⟨-, task, messages, htask, hserved, -, -, hheard⟩ := sockets_served plainCrates
    unfragmented ⟨core, none⟩ hserde documented_unfragmented [.request libraries [] []] soon later
    libraries [] [] core.config.maxContentLength rfl ⟨(), [], []⟩
  have hfirst : (wsServing pingJson plainCrates unfragmented ⟨core, none⟩
      [.request libraries [] []] ⟨(), [], []⟩).2.tasks.length = 1 := rfl
  have hrun : wsServing pingJson plainCrates unfragmented ⟨core, none⟩
      ([.request libraries [] []] ++ .request libraries [] [] :: (soon ++ later))
      ⟨(), [], []⟩ = run := rfl
  rw [hfirst, hrun] at htask hserved
  rw [hfirst] at hheard
  have hsoon : heard unfragmented core.config.maxContentLength (wsFrames 1 soon) =
      [ping, "nope"] := by
    decide +kernel
  have hall : heard unfragmented core.config.maxContentLength (wsFrames 1 (soon ++ later)) =
      [ping, "nope"] := by
    decide +kernel
  have hnone : ¬ SendFailed [] task.sink :=
    fun ⟨_, hfired⟩ => Faults.not_fired_nil hfired
  have hmost := hserved.heard
  have hleast := hheard (by decide) (.inr hnone)
  rw [hall] at hmost
  rw [hsoon] at hleast
  exact ⟨task, messages, htask, hserved, hmost.eq_of_length_le hleast.length_le⟩

end Server

section Guard

variable {φ σ : Type} {serde : SerdeJson} (crates : Externals) {sockets : Sockets φ}
  {state : WsState σ}

/-- A connection is there because of a request that was upgraded. -/
theorem exists_request {happenings : List (WsHappening φ σ)} {world : World σ} {n : Nat}
    (hlt : n < (wsServing serde crates sockets state happenings world).2.tasks.length) :
    ∃ before libraries headers faults after maxMessageSize,
      happenings = before ++ .request libraries headers faults :: after ∧
      (wsServing serde crates sockets state before world).2.tasks.length = n ∧
      wsHandler state libraries headers = .upgrade maxMessageSize := by
  have hthere : n < (Mealy.run (Pool.step (wsTasks serde crates sockets state.core))
      (happenings.filterMap (WsHappening.move state)) (.init world)).2.tasks.length := hlt
  obtain ⟨moves, task, moves', hmoves, hlength⟩ := Pool.exists_spawn _ (Nat.zero_le n) hthere
  obtain ⟨before, rest, rfl, rfl, hrest⟩ := List.filterMap_eq_append_iff.mp hmoves
  obtain ⟨refused, happening, after, rfl, hrefused, hspawn, -⟩ :=
    List.filterMap_eq_cons_iff.mp hrest
  cases happening with
  | request libraries headers faults =>
      cases hresponse : wsHandler state libraries headers with
      | unauthorized body =>
          simp only [WsHappening.move, hresponse] at hspawn
          cases hspawn
      | upgrade maxMessageSize =>
          refine ⟨before ++ refused, libraries, headers, faults, after, maxMessageSize,
            (List.append_assoc _ _ _).symm, ?_, hresponse⟩
          rw [wsServing, List.filterMap_append, List.filterMap_eq_nil_iff.mpr hrefused,
            List.append_nil]
          exact hlength
  | _ =>
      cases hspawn

/-- A turn that was taken was that of a connection. -/
theorem lt_of_mem_outs {happenings : List (WsHappening φ σ)} {world : World σ} {n : Nat}
    {calls : List ServiceCall}
    (hmem : some (n, calls) ∈ (wsServing serde crates sockets state happenings world).1) :
    n < (wsServing serde crates sockets state happenings world).2.tasks.length := by
  by_contra hge
  have hnone : (Mealy.run (Pool.step (wsTasks serde crates sockets state.core))
      (happenings.filterMap (WsHappening.move state)) (.init world)).2.tasks.length ≤ n :=
    Nat.not_lt.mp hge
  have hquiet := Pool.putOut_run _ hnone
  have hput : calls ∈ Pool.putOut n (wsServing serde crates sockets state happenings world).1 :=
    List.mem_filterMap.mpr ⟨_, hmem, by simp⟩
  rw [wsServing, hquiet] at hput
  cases hput

variable (sockets)

/-- A request that is refused changes nothing. -/
theorem wsServing_refused (serde : SerdeJson) (before after : List (WsHappening φ σ))
    {libraries : Auth.Crates} {headers : HeaderMap} (faults : List (Option String))
    (hrefused : ∀ maxMessageSize, wsHandler state libraries headers ≠ .upgrade maxMessageSize)
    (world : World σ) :
    wsServing serde crates sockets state (before ++ .request libraries headers faults :: after)
        world =
      wsServing serde crates sockets state (before ++ after) world := by
  have hmove : WsHappening.move state
      (.request libraries headers faults : WsHappening φ σ) = none := by
    simp only [WsHappening.move]
    cases hresponse : wsHandler state libraries headers with
    | unauthorized body =>
        rfl
    | upgrade maxMessageSize =>
        exact absurd hresponse (hrefused maxMessageSize)
  simp only [wsServing, List.filterMap_append, List.filterMap_cons_none hmove]

/-- A strategy comes to one set of keys and bindings. -/
theorem bound_unique {fetch : String → Discovery} {bindings bound bound' : WsClaimBindings}
    {auth : WsAuth} {keys keys' : KeySource} (h : Bound fetch bindings auth keys bound)
    (h' : Bound fetch bindings auth keys' bound') :
    keys = keys' ∧ bound = bound' := by
  cases h with
  | secret secret =>
      cases h'
      exact ⟨rfl, rfl⟩
  | jwks url =>
      cases h'
      exact ⟨rfl, rfl⟩
  | oidcIssuer issuer config hfetch hsame =>
      cases h' with
      | oidcIssuer _ config' hfetch' hsame' =>
          rw [hfetch] at hfetch'
          cases hfetch'
          exact ⟨rfl, rfl⟩

/-- The headers carry a token that the websocket, as it was guarded last, accepts. -/
def Admits (fetch : String → Discovery) (builders : List Startup.Builder)
    (signed : KeySource → String → Option Payload) (headers : HeaderMap) : Prop :=
  ∃ keys bound, Bound fetch (Startup.lastBindings builders) (Startup.lastAuth builders)
      keys bound ∧
    Accepts signed keys bound headers

variable {features : Startup.Features} {fetch : String → Discovery} {name version : String}
  {builders : List Startup.Builder} {service : Service σ}

/-- The cap of a websocket server is the one that was set last. -/
theorem maxContentLength_wsState
    (h : wsState features fetch (Startup.built name version builders) service = .ok state) :
    state.core.config.maxContentLength = Startup.lastMaxContentLength builders := by
  obtain ⟨-, -, hcap⟩ := Startup.guard_built name version builders
  rw [← hcap]
  unfold wsState at h
  split at h
  · split at h
    · cases h
      rfl
    · cases h
  · split at h
    · cases h
      rfl
    · cases h

/-- A server that is guarded upgrades exactly the requests that carry an accepted token. -/
theorem upgrade_iff
    (h : wsState features fetch (Startup.built name version builders) service = .ok state)
    (hauth : Startup.lastAuth builders ≠ .none)
    {libraries : Auth.Crates} {signed : KeySource → String → Option Payload}
    (hlibraries : libraries.Documented signed) (headers : HeaderMap) :
    wsHandler state libraries headers =
        .upgrade (Startup.lastMaxContentLength builders) ↔
      Admits fetch builders signed headers := by
  have hcap := maxContentLength_wsState h
  obtain ⟨hwsAuth, hbindings, -⟩ := Startup.guard_built name version builders
  unfold wsState at h
  rw [hwsAuth, hbindings] at h
  cases hfeature : features.auth with
  | false =>
      rw [hfeature] at h
      cases hlast : Startup.lastAuth builders with
      | none =>
          exact absurd hlast hauth
      | _ =>
          rw [hlast] at h
          cases h
  | true =>
      simp only [hfeature, if_true] at h
      cases hfrom : Authenticator.fromWsAuth fetch (Startup.lastAuth builders)
          (Startup.lastBindings builders) with
      | error err =>
          rw [hfrom] at h
          cases h
      | ok auth =>
          rw [hfrom] at h
          cases h
          obtain ⟨keys, bound, hbound, hcheck⟩ := check_iff_of_fromWsAuth hlibraries hauth hfrom
          have hadmits : Admits fetch builders signed headers ↔
              Accepts signed keys bound headers := by
            refine ⟨fun ⟨keys', bound', hbound', haccepts⟩ => ?_, fun haccepts =>
              ⟨keys, bound, hbound, haccepts⟩⟩
            obtain ⟨rfl, rfl⟩ := bound_unique hbound hbound'
            exact haccepts
          rw [hadmits, ← hcheck headers, wsHandler]
          simp only
          cases auth.check libraries headers with
          | ok _ =>
              exact ⟨fun _ => rfl, fun _ => congrArg _ hcap⟩
          | error e =>
              simp only [reduceCtorEq]

/--
The front door: of a server that is configured by a chain of builder calls and whatever
is requested and received when, the service is called only in turns of connections that
were upgraded; once a strategy is set these are exactly the connections whose request
carried a token that it accepts; and a request that is refused changes nothing.
-/
theorem connections_guarded (serde : SerdeJson)
    (hstate : wsState features fetch (Startup.built name version builders) service = .ok state)
    (happenings : List (WsHappening φ σ)) (world : World σ) :
    let run := wsServing serde crates sockets state happenings world
    run.2.shared.calls = world.calls ++ run.1.flatMap madeIn ∧
    (∀ n calls, some (n, calls) ∈ run.1 → ∃ before libraries headers faults after,
      happenings = before ++ .request libraries headers faults :: after ∧
      (wsServing serde crates sockets state before world).2.tasks.length = n ∧
      wsHandler state libraries headers =
        .upgrade (Startup.lastMaxContentLength builders)) ∧
    (Startup.lastAuth builders ≠ .none → ∀ libraries signed, libraries.Documented signed →
      ∀ headers,
        (wsHandler state libraries headers =
            .upgrade (Startup.lastMaxContentLength builders) ↔
          Admits fetch builders signed headers) ∧
        (¬ Admits fetch builders signed headers → ∀ before faults after,
          wsServing serde crates sockets state
              (before ++ .request libraries headers faults :: after) world =
            wsServing serde crates sockets state (before ++ after) world)) := by
  intro run
  have hcap := maxContentLength_wsState hstate
  refine ⟨calls_wsServing crates sockets state serde happenings world, fun n calls hmem => ?_,
    fun hauth libraries signed hlibraries headers => ?_⟩
  · obtain ⟨before, libraries, headers, faults, after, maxMessageSize, hsplit, hlength,
      hupgrade⟩ := exists_request crates (lt_of_mem_outs crates hmem)
    refine ⟨before, libraries, headers, faults, after, hsplit, hlength, ?_⟩
    rw [hupgrade, wsHandler_upgrade state hupgrade, hcap]
  · have hiff := upgrade_iff hstate hauth hlibraries headers
    refine ⟨hiff, fun hadmits before faults after => ?_⟩
    refine wsServing_refused crates sockets serde before after faults
      (fun maxMessageSize hupgrade => ?_) world
    refine hadmits (hiff.mp ?_)
    rw [hupgrade, wsHandler_upgrade state hupgrade, hcap]

/-- A server that asks for an audience turns away one client and lets in another. -/
theorem connections_guarded_of_two :
    let payload : Payload := ⟨some 4102444800, none, some ["mcp"]⟩
    let builders : List Startup.Builder :=
      [.withWebsocket, .websocketAuth (.secret "s3cr3t"), .websocketExpectedAudience "mcp",
        .maxContentLength 64]
    let features : Startup.Features := ⟨true, true, true, fun _ => rfl⟩
    let service := (saying (.ok (.text ""))).service
    let headers : HeaderMap := [("authorization", Text.asBytes "bearer token")]
    let stranger : List (WsHappening Message Unit) :=
      [.request (cratesFor payload) [] [], .arrive 0 (some (.text "nope")), .turn 0]
    ∃ state, wsState features (fun _ => .failed "404") (Startup.built "server" "1.0" builders)
        service = .ok state ∧
      wsHandler state (cratesFor payload) headers = .upgrade 64 ∧
      ∀ n calls,
        some (n, calls) ∉
          (wsServing pingJson plainCrates unfragmented state stranger ⟨(), [], []⟩).1 := by
  intro payload builders features service headers stranger
  obtain ⟨state, hstate⟩ : ∃ state, wsState features (fun _ => .failed "404")
      (Startup.built "server" "1.0" builders) service = .ok state := ⟨_, rfl⟩
  obtain ⟨-, hturns, hguarded⟩ :=
    connections_guarded plainCrates unfragmented pingJson hstate stranger ⟨(), [], []⟩
  refine ⟨state, hstate, ?_, fun n calls hmem => ?_⟩
  · refine ((hguarded nofun (cratesFor payload) _ (documented_cratesFor payload) headers).1).mpr
      ⟨_, _, .secret "s3cr3t", "token", payload, ?_, rfl, rfl, nofun, fun _ h => ?_⟩
    · exact ⟨"bearer", "token", by decide, by decide, by decide, by decide, by decide⟩
    · exact ⟨_, rfl, by cases h; decide⟩
  · obtain ⟨before, libraries, headers, faults, after, hsplit, -, hupgrade⟩ := hturns n calls hmem
    have hrequest : WsHappening.request libraries headers faults ∈ stranger := by
      rw [hsplit]
      exact List.mem_append_right _ List.mem_cons_self
    have hsame : libraries = cratesFor payload ∧ headers = [] ∧ faults = [] := by
      simpa [stranger] using hrequest
    obtain ⟨rfl, rfl, rfl⟩ := hsame
    obtain ⟨keys, bound, -, token, payload', hcarries, -⟩ :=
      (hguarded nofun _ _ (documented_cratesFor payload) []).1.mp hupgrade
    obtain ⟨scheme, rest, hlookup, -⟩ := hcarries
    cases hlookup

end Guard

end Runner
end McpCore
