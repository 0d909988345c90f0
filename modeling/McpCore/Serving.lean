import McpCore.Arrivals
import McpCore.Emissions
import McpCore.Library.Pool

/-!
# Connections served at once

`serve_unix` spawns a task for each connection it accepts.  A task pumps a transport of
its own with a session of its own; the service is what all of them share, and it may
also change by itself.  Connections are accepted, bytes arrive and tasks take turns in
any order.

`connections_served`: at every point of every run each connection has been served as far
as its messages were read, in turn, each once, whatever happens on the others.
`failures_logged`: those that failed have each been told of once.
-/

namespace McpCore
namespace Runner

open Transport Server

section Model

variable {σ : Type} (serde : SerdeJson) (crates : Externals) (core : ServerCore σ)

/-- A task that serves a connection, and what its `pump` returned, once it has. -/
structure Task where
  transport : FramedTransport Reader
  session : Session
  returned : Option (Except Error Unit)

/-- The task of a connection that was just accepted. -/
def Task.accepted (maxLen : Text.Usize) (writer : Writer) : Task :=
  ⟨.new (.new [] false) writer maxLen, Session.new.onTransport .unix, none⟩

def Task.receive (incoming : Incoming) (task : Task) : Task :=
  { task with transport := task.transport.mapReader (Reader.receive incoming) }

/-- The calls made to the service between two worlds. -/
def callsSince (world world' : World σ) : List ServiceCall :=
  world'.calls.drop world.calls.length

/-- What is logged of a connection whose pump failed. -/
def connectionFailed (err : Error) : Signal :=
  .event .error [("transport", "unix"), ("error", crates.safeMessage err.display)]
    "connection failed"

/-- A task goes round the loop of its pump; the calls it makes are put out. -/
def Task.turn (task : Task) (world : World σ) : List ServiceCall × Task × World σ :=
  match task.returned with
  | some _ => ([], task, world)
  | none =>
      match pumpBody serde crates core ⟨task.transport, task.session, world⟩ with
      | .next c => (callsSince world c.world, ⟨c.transport, c.session, none⟩, c.world)
      -- A read that waits is taken up again in a later turn.
      | .leave (.running, _) => ([], task, world)
      | .leave (.ok _, c) =>
          (callsSince world c.world, ⟨c.transport, c.session, some (.ok ())⟩, c.world)
      | .leave (.err err, c) =>
          (callsSince world c.world, ⟨c.transport, c.session, some (.error err)⟩,
            c.world.emit (connectionFailed crates err))

/-- The tasks of a server. -/
def tasks : Pool.Behaviour Task Incoming σ (World σ) (List ServiceCall) where
  arrive := Task.receive
  turn := Task.turn serde crates core
  disturb service world := { world with service }

/-- One thing that happens to a server. -/
inductive Happening (σ : Type) where
  | accept (writer : Writer)
  | arrive (connection : Nat) (incoming : Incoming)
  | turn (connection : Nat)
  | service (service : σ)

def Happening.move (maxLen : Text.Usize) : Happening σ → Pool.Move Task Incoming σ
  | .accept writer => .spawn (.accepted maxLen writer)
  | .arrive connection incoming => .arrive connection incoming
  | .turn connection => .turn connection
  | .service state => .disturb state

/-- A server after these happenings, and the calls each turn made. -/
def serving (happenings : List (Happening σ)) (world : World σ) :
    List (Option (Nat × List ServiceCall)) × Pool.State Task (World σ) :=
  Mealy.run (Pool.step (tasks serde crates core))
    (happenings.map (Happening.move core.config.maxContentLength)) (.init world)

end Model

section Specification

variable {σ : Type} (serde : SerdeJson) (crates : Externals) (core : ServerCore σ)

/-- A message that was handled, and the service as it was found. -/
structure Handled (σ : Type) where
  raw : String
  found : σ

/-- What a message comes to: the values to send, the calls, and the session after it. -/
def handle (message : Handled σ) (session : Session) :
    (List Value × List ServiceCall) × Session :=
  let (values, session, world) :=
    reply serde crates core message.raw (session, ⟨message.found, [], []⟩)
  ((values, world.calls), session)

/-- What these messages come to on a connection of their own. -/
def handleAll (messages : List (Handled σ)) :
    List (List Value × List ServiceCall) × Session :=
  Mealy.run (handle serde crates core) messages (Session.new.onTransport .unix)

/-- The bytes of an event. -/
def bytesOf : Event → List UInt8
  | .chunk bytes _ => bytes
  | .fail _ => []

/-- The bytes that have arrived on a connection, and whether its peer has hung up. -/
def noteArrival (sofar : List UInt8 × Bool) (incoming : Incoming) : List UInt8 × Bool :=
  if sofar.2 then sofar
  else
    match incoming with
    | .event event => (sofar.1 ++ bytesOf event, false)
    | .hangUp => (sofar.1, true)

def received (incomings : List Incoming) : List UInt8 × Bool :=
  incomings.foldl noteArrival ([], false)

/-- What may still arrive on a stream that has ended, or has not. -/
abbrev MayFollow (ended : Bool) (more : List UInt8) : Prop :=
  ended = true → more = []

/-- The bytes that values are sent as. -/
def wire (framing : Framing) (values : List Value) : List UInt8 :=
  values.flatMap fun value => encode framing (textOf serde value)

/-- A connection on which `bytes` have arrived, and which is answered over `writer`, was
served as far as its `messages`; then reading came to `err`, if there is one, or a write
failed. -/
structure Served (writer : Writer) (bytes : List UInt8) (ended : Bool)
    (messages : List (Handled σ)) (err : Option Error) (task : Task)
    (calls : List ServiceCall) : Prop where
  /-- The messages and the error are what the stream begins with, however it goes on. -/
  decoded : ∀ more, MayFollow ended more →
    (decodes core.config.maxContentLength.val (messages.length + err.toList.length)
        ⟨.undecided, bytes ++ more⟩).1.map some =
      messages.map (fun message => some (.message message.raw)) ++
        err.toList.map fun err => variant (.err err)
  /-- A message settles the framing. -/
  framing : messages ≠ [] → ∀ more, MayFollow ended more →
    (decodes core.config.maxContentLength.val messages.length
      ⟨.undecided, bytes ++ more⟩).2.phase.framing = some task.transport.framing
  returned : task.returned =
      (err.map fun err => if isConnectionClosed err then .ok () else .error err) ∨
    err = none ∧ ∃ fault, Faults.Fired writer.faults task.transport.writer.faults fault ∧
      task.returned = some (.error (.io fault.2))
  session : task.session = (handleAll serde crates core messages).2
  calls : calls = (handleAll serde crates core messages).1.flatMap Prod.snd
  /-- What was written is what they come to, or what it begins with if the task ended by a
  write that failed; and then the farewell, unless a write of it failed. -/
  written : ∃ sent last,
    task.transport.writer.written = writer.written ++ sent ++ last ∧
    (let replies := wire serde task.transport.framing
      ((handleAll serde crates core messages).1.flatMap Prod.fst)
    sent <+: replies ∧ (task.returned = none ∨ err ≠ none → sent = replies)) ∧
    (let bye := wire serde task.transport.framing (err.elim [] farewell)
    last <+: bye ∧ (last = bye ∨
      ∃ fault, Faults.Fired writer.faults task.transport.writer.faults fault))

end Specification

section Writes

variable {R σ : Type} {serde : SerdeJson} {t : FramedTransport R}

theorem sends_nothing (t : FramedTransport R) : Sends [] t (.ok (), t) :=
  ⟨⟨t.writer, rfl⟩, ⟨[], (List.append_nil _).symm, List.prefix_refl _, fun _ => rfl⟩,
    List.suffix_refl _, .inl rfl⟩

theorem sends_send (hserde : CompactJson serde) (value : Value) (t : FramedTransport R) :
    Sends (wire serde t.framing [value]) t (send serde value t) := by
  have hwire : wire serde t.framing [value] = encode t.framing (textOf serde value) :=
    List.flatMap_singleton ..
  rw [hwire]
  simp only [send, textOf_eq hserde value]
  exact sends_writeMessage _ t

theorem wire_append (framing : Framing) (values values' : List Value) :
    wire serde framing (values ++ values') =
      wire serde framing values ++ wire serde framing values' :=
  List.flatMap_append

theorem sends_sendAll (hserde : CompactJson serde) (values : List Value)
    (t : FramedTransport R) :
    Sends (wire serde t.framing values) t (sendAll serde values t) := by
  induction values generalizing t with
  | nil =>
      exact sends_nothing t
  | cons value values ih =>
      rw [← List.singleton_append, wire_append]
      refine (sends_send hserde value t).andThen fun _ u hframing => ?_
      rw [← hframing]
      exact ih u

theorem sends_sendDispatch (hserde : CompactJson serde) (dispatch : Dispatch)
    (t : FramedTransport R) :
    Sends (wire serde t.framing (dispatch.response.toList ++ dispatch.notifications)) t
      (sendDispatch serde dispatch t) := by
  unfold sendDispatch
  rw [wire_append]
  refine Sends.andThen ?_ fun _ u hframing => ?_
  · cases dispatch.response with
    | none =>
        exact sends_nothing t
    | some response =>
        exact sends_send hserde response t
  · rw [← hframing]
    exact sends_sendAll hserde dispatch.notifications u

/-- The peer is told of an error, as far as the writer lets it be told. -/
theorem sends_tellPeer (hserde : CompactJson serde) (err : Error) (t : FramedTransport R) :
    ∃ outcome, Sends (wire serde t.framing (farewell err)) t (outcome, tellPeer serde err t) := by
  by_cases hquiet : farewell err = []
  · have hsame : tellPeer serde err t = t := by
      unfold tellPeer
      split
      · cases hquiet
      · rfl
    rw [hsame, hquiet]
    exact ⟨.ok (), sends_nothing t⟩
  · obtain ⟨reason, rfl⟩ : ∃ reason, err = .transport (.invalidMessage reason) := by
      unfold farewell at hquiet
      split at hquiet
      · exact ⟨_, rfl⟩
      · exact absurd rfl hquiet
    have hlast : farewell (.transport (.invalidMessage reason)) =
        [framingErrorResponse reason] := by
      rw [framingErrorResponse_eq]
      rfl
    rw [hlast, tellPeer_invalidMessage]
    exact ⟨_, sends_send hserde _ t⟩

end Writes

section Solo

variable {σ : Type} {serde : SerdeJson} (crates : Externals) (core : ServerCore σ)

/-- What a message comes to depends on the session and the state of the service. -/
theorem reply_handle (serde : SerdeJson) (raw : String) (session : Session) (world : World σ) :
    let left := reply serde crates core raw (session, world)
    let handled := handle serde crates core ⟨raw, world.service⟩ session
    left.1 = handled.1.1 ∧ left.2.1 = handled.2 ∧
      left.2.2.calls = world.calls ++ handled.1.2 := by
  intro left handled
  simp only [left, handled, handle, reply]
  by_cases hblank : Text.trim raw = ""
  · simp [hblank]
  · simp only [if_neg hblank]
    cases serde.fromStr raw with
    | error e =>
        simp
    | ok message =>
        obtain ⟨hdispatch, hsession, hserves⟩ :=
          handleMessage_spec crates core message session world
        obtain ⟨hdispatch', hsession', hserves'⟩ :=
          handleMessage_spec crates core message session ⟨world.service, [], []⟩
        refine ⟨?_, ?_, ?_⟩
        · simp only [hdispatch, hdispatch']
        · simp only [hsession, hsession']
        · simp only [hserves.calls, hserves'.calls, List.nil_append]

theorem callsSince_append {world world' : World σ} {calls : List ServiceCall}
    (h : world'.calls = world.calls ++ calls) :
    callsSince world world' = calls := by
  rw [callsSince, h, List.drop_left]

/-- An answer is written as far as the writer takes it. -/
theorem answer_spec (hserde : CompactJson serde) {raw : String} (hblank : Text.trim raw ≠ "")
    (t : FramedTransport Reader) (session : Session) (world : World σ) :
    let answered := answer serde crates core raw t session world
    let left := reply serde crates core raw (session, world)
    Sends (wire serde t.framing left.1) t answered.1 ∧ answered.2 = left.2 := by
  intro answered left
  simp only [answered, left, answer, reply, if_neg hblank]
  cases serde.fromStr raw with
  | error e =>
      simp only [parseErrorResponse_eq]
      exact ⟨sends_send hserde _ t, trivial⟩
  | ok value =>
      exact ⟨sends_sendDispatch hserde _ t, rfl⟩

/-- What came of writing these bytes: as many of them as the writer took, and the failure
that the pump returned, if one came in between. -/
structure Wrote (writer writer' : Writer) (bytes : List UInt8)
    (returned : Option (Except Error Unit)) : Prop where
  sent : ∃ sent, writer'.written = writer.written ++ sent ∧ sent <+: bytes ∧
    (returned = none → sent = bytes)
  taken : writer'.faults <:+ writer.faults
  returned : returned = none ∨
    ∃ fault, Faults.Fired writer.faults writer'.faults fault ∧
      returned = some (.error (.io fault.2))

variable {task : Task} {u : FramedTransport Reader}

/-- A turn in which a message is read. -/
theorem turn_of_message (hserde : CompactJson serde) (hopen : task.returned = none)
    {raw : String} (hread : readMessage task.transport = (.ok raw, u)) (world : World σ) :
    (task.turn serde crates core world).1 =
        (handle serde crates core ⟨raw, world.service⟩ task.session).1.2 ∧
      ∃ writer returned,
        (task.turn serde crates core world).2.1 = ⟨{ u with writer },
          (handle serde crates core ⟨raw, world.service⟩ task.session).2, returned⟩ ∧
        Wrote u.writer writer (wire serde u.framing
          (handle serde crates core ⟨raw, world.service⟩ task.session).1.1) returned := by
  obtain ⟨hvalues, hsession, hcalls⟩ :=
    reply_handle crates core serde raw task.session world
  generalize handle serde crates core ⟨raw, world.service⟩ task.session = handled
    at hvalues hsession hcalls ⊢
  by_cases hblank : Text.trim raw = ""
  · have hleft : reply serde crates core raw (task.session, world) = ([], task.session, world) :=
      if_pos hblank
    rw [hleft] at hvalues hsession hcalls
    simp only [Task.turn, hopen, pumpBody, hread, if_pos hblank]
    refine ⟨callsSince_append hcalls, u.writer, none,
      congrArg (fun session => (⟨u, session, none⟩ : Task)) hsession, ?_⟩
    rw [← hvalues]
    exact ⟨⟨[], (List.append_nil _).symm, List.prefix_refl _, fun _ => rfl⟩,
      List.suffix_refl _, .inl rfl⟩
  · obtain ⟨hsends, hafter⟩ := answer_spec crates core hserde hblank u task.session world
    rw [hvalues] at hsends
    rw [← hafter] at hsession hcalls
    simp only [Task.turn, hopen, pumpBody, hread, if_neg hblank]
    generalize answer serde crates core raw u task.session world = answered
      at hsends hsession hcalls ⊢
    obtain ⟨⟨outcome, u'⟩, session, world'⟩ := answered
    obtain ⟨⟨writer, honly⟩, ⟨sent, hwritten, hprefix, hall⟩, htaken, hreturns⟩ := hsends
    simp only at honly hwritten hall htaken hreturns hsession hcalls
    subst honly
    rcases hreturns with rfl | ⟨fault, hfired, rfl⟩
    · exact ⟨callsSince_append hcalls, writer, none,
        congrArg (fun session => (⟨{ u with writer }, session, none⟩ : Task)) hsession,
        ⟨sent, hwritten, hprefix, fun _ => hall rfl⟩, htaken, .inl rfl⟩
    · exact ⟨callsSince_append hcalls, writer, some (.error (.io fault.2)),
        congrArg (fun session =>
          (⟨{ u with writer }, session, some (.error (.io fault.2))⟩ : Task)) hsession,
        ⟨sent, hwritten, hprefix, fun h => by cases h⟩, htaken, .inr ⟨fault, hfired, rfl⟩⟩

/-- A turn in which reading stops. -/
theorem turn_of_stop (hserde : CompactJson serde) (hopen : task.returned = none) {err : Error}
    (hread : readMessage task.transport = (.err err, u)) (world : World σ) :
    (task.turn serde crates core world).1 = [] ∧
    ∃ writer outcome, (task.turn serde crates core world).2.1 =
        ⟨{ u with writer }, task.session,
          some (if isConnectionClosed err then .ok () else .error err)⟩ ∧
      Sends (wire serde u.framing (farewell err)) u (outcome, { u with writer }) := by
  have hquiet : callsSince world world = [] := callsSince_append (List.append_nil _).symm
  cases hclosed : isConnectionClosed err with
  | true =>
      obtain rfl : err = .transport .connectionClosed := by
        unfold isConnectionClosed at hclosed
        split at hclosed
        · rfl
        · cases hclosed
      simp only [Task.turn, hopen, pumpBody, hread, hclosed, if_true]
      exact ⟨hquiet, u.writer, .ok (), rfl, sends_nothing u⟩
  | false =>
      obtain ⟨outcome, hsends⟩ := sends_tellPeer hserde err u
      obtain ⟨writer, htell⟩ := hsends.only
      simp only at htell
      rw [htell] at hsends
      simp only [Task.turn, hopen, pumpBody, hread, hclosed, Bool.false_eq_true, if_false, htell]
      exact ⟨hquiet, writer, outcome, rfl, hsends⟩

/-- A turn in which there is nothing to read yet. -/
theorem turn_of_waiting (hread : (readMessage task.transport).1 = .running) (world : World σ) :
    (task.turn serde crates core world).1 = [] ∧
    (task.turn serde crates core world).2.1 = task := by
  cases hreturned : task.returned with
  | some returned =>
      simp only [Task.turn, hreturned, and_self]
  | none =>
      rcases hleft : readMessage task.transport with ⟨outcome, u⟩
      rw [hleft] at hread
      obtain rfl : outcome = .running := hread
      have hbody : pumpBody serde crates core ⟨task.transport, task.session, world⟩ =
          .leave (.running, ⟨u, task.session, world⟩) := by
        simp only [pumpBody, hleft]
      simp only [Task.turn, hreturned, hbody, and_self]

end Solo

section Progress

variable {σ : Type} {serde : SerdeJson} (crates : Externals) (core : ServerCore σ)

/-- A transport where a decoder is that was not given up is in its framing. -/
theorem phase_framing_of_tracks {maxLen : Text.Usize} {t : FramedTransport Stream}
    {d : Decoder} (h : Tracks maxLen t d) (hphase : d.phase ≠ .refused) :
    d.phase.framing = some t.framing := by
  cases h with
  | refused hdesync =>
      exact absurd rfl hphase
  | synced hframing hat =>
      rw [hat.framing]
      exact hframing

/-- A connection that was served so far, in a state to go on unless it has returned. -/
structure Progress (serde : SerdeJson) (writer : Writer) (bytes : List UInt8) (ended : Bool)
    (messages : List (Handled σ)) (err : Option Error) (task : Task)
    (calls : List ServiceCall) : Prop where
  served : Served serde crates core writer bytes ended messages err task calls
  taken : task.transport.writer.faults <:+ writer.faults
  settled : messages ≠ [] → task.transport.framing ≠ .auto
  closed : task.returned = none → task.transport.reader.closed = ended
  tracks : task.returned = none → ∀ more, MayFollow ended more →
    Tracks core.config.maxContentLength
      ((task.transport.mapReader Reader.unchunked).mapReader (Stream.onto more))
      (decodes core.config.maxContentLength.val messages.length ⟨.undecided, bytes ++ more⟩).2

variable {writer : Writer} {bytes : List UInt8} {ended : Bool} {messages : List (Handled σ)}
  {err : Option Error} {task : Task} {calls : List ServiceCall}

/-- A connection that was just accepted. -/
theorem progress_accepted (writer : Writer) :
    Progress crates core serde writer [] false [] none
      (.accepted core.config.maxContentLength writer) [] where
  served :=
    { decoded := fun _ _ => rfl, framing := fun h => absurd rfl h, returned := .inl rfl,
      session := rfl, calls := rfl
      written := ⟨[], [], by simp [Task.accepted, FramedTransport.new],
        ⟨List.prefix_refl _, fun _ => rfl⟩, List.prefix_refl _, .inl rfl⟩ }
  taken := List.suffix_refl _
  settled h := absurd rfl h
  closed _ := rfl
  tracks _ more _ := .synced rfl ⟨rfl, rfl, rfl, rfl, by
    simp [Task.accepted, FramedTransport.new, FramedTransport.mapReader, Reader.new,
      Reader.unchunked, Reader.items, Stream.onto]⟩

/-- Bytes arrive. -/
theorem Progress.arrive (h : Progress crates core serde writer bytes false messages err task calls)
    {event : Event} {chunk : List UInt8} (hevent : event.items = chunk.map .byte) :
    Progress crates core serde writer (bytes ++ chunk) false messages err
      (task.receive (.event event)) calls where
  served :=
    { decoded := by
        intro more _
        rw [List.append_assoc]
        exact h.served.decoded (chunk ++ more) (fun h => by cases h)
      framing := by
        intro hne more _
        rw [List.append_assoc]
        exact h.served.framing hne (chunk ++ more) (fun h => by cases h)
      returned := h.served.returned
      session := h.served.session
      calls := h.served.calls
      written := h.served.written }
  taken := h.taken
  settled := h.settled
  closed hopen := by
    have hclosed := h.closed hopen
    simp [Task.receive, FramedTransport.mapReader, Reader.receive, hclosed]
  tracks hopen more _ := by
    have htracks := h.tracks hopen (chunk ++ more) (fun h => by cases h)
    rw [List.append_assoc]
    simp only [FramedTransport.mapReader] at htracks ⊢
    rw [← receive_event_onto _ (h.closed hopen) hevent] at htracks
    exact htracks

/-- The peer hangs up. -/
theorem Progress.hangUp
    (h : Progress crates core serde writer bytes false messages err task calls) :
    Progress crates core serde writer bytes true messages err (task.receive .hangUp) calls where
  served :=
    { decoded := fun more _ => h.served.decoded more (fun h => by cases h)
      framing := fun hne more _ => h.served.framing hne more (fun h => by cases h)
      returned := h.served.returned
      session := h.served.session
      calls := h.served.calls
      written := h.served.written }
  taken := h.taken
  settled := h.settled
  closed hopen := by
    have hclosed := h.closed hopen
    simp [Task.receive, FramedTransport.mapReader, Reader.receive, hclosed]
  tracks hopen more hmore := by
    obtain rfl := hmore rfl
    have htracks := h.tracks hopen [] (fun h => by cases h)
    simp only [FramedTransport.mapReader] at htracks ⊢
    rw [← receive_hangUp_onto _ (h.closed hopen) []] at htracks
    exact htracks

/-- While it goes on, reading has come to no error. -/
theorem Served.err_eq_none
    (h : Served serde crates core writer bytes ended messages err task calls)
    (hopen : task.returned = none) :
    err = none := by
  rcases h.returned with hreturned | ⟨hnone, -⟩
  · cases err with
    | none =>
        rfl
    | some err =>
        rw [hopen] at hreturned
        cases hreturned
  · exact hnone

/-- Where no write fails, the task returns as its reads stopped, and all was written. -/
theorem Served.returned_eq {crates : Externals} {core : ServerCore σ}
    (h : Served serde crates core writer bytes ended messages err task calls)
    (hfaults : writer.faults = []) :
    task.returned = err.map fun err => if isConnectionClosed err then .ok () else .error err := by
  refine h.returned.resolve_right fun ⟨_, fault, hfired, _⟩ => ?_
  rw [hfaults] at hfired
  exact Faults.not_fired_nil hfired

theorem Served.written_eq {crates : Externals} {core : ServerCore σ}
    (h : Served serde crates core writer bytes ended messages err task calls)
    (hfaults : writer.faults = []) :
    task.transport.writer.written = writer.written ++ wire serde task.transport.framing
      ((handleAll serde crates core messages).1.flatMap Prod.fst ++ err.elim [] farewell) := by
  obtain ⟨sent, last, hwritten, ⟨-, hall⟩, -, hlast⟩ := h.written
  have hsent := hall (by
    rw [h.returned_eq hfaults]
    cases err with
    | none =>
        exact .inl rfl
    | some err =>
        exact .inr (Option.some_ne_none err))
  have hbye := hlast.resolve_right fun ⟨fault, hfired⟩ => by
    rw [hfaults] at hfired
    exact Faults.not_fired_nil hfired
  rw [hwritten, hsent, hbye, wire_append, List.append_assoc]

/-- What a turn reads is what the decoder decodes next, however the stream goes on. -/
theorem Progress.decode_read (hcap : core.config.maxContentLength.val < Text.usizeMax)
    (h : Progress crates core serde writer bytes ended messages err task calls)
    (hopen : task.returned = none)
    {outcome : Transport.Outcome String} {u : FramedTransport Reader}
    (hread : readMessage task.transport = (outcome, u)) (hreturns : outcome ≠ .running)
    (more : List UInt8) (hmore : MayFollow ended more) :
    let d := (decodes core.config.maxContentLength.val messages.length
      ⟨.undecided, bytes ++ more⟩).2
    variant outcome = some (decode core.config.maxContentLength.val d).1 ∧
    Tracks core.config.maxContentLength
      ((u.mapReader Reader.unchunked).mapReader (Stream.onto more))
      (decode core.config.maxContentLength.val d).2 := by
  exact answers_onto hcap hread hreturns (h.tracks hopen more hmore)

theorem handleAll_concat (serde : SerdeJson) (messages : List (Handled σ))
    (message : Handled σ) :
    handleAll serde crates core (messages ++ [message]) =
      ((handleAll serde crates core messages).1 ++
          [(handle serde crates core message (handleAll serde crates core messages).2).1],
        (handle serde crates core message (handleAll serde crates core messages).2).2) :=
  Mealy.run_concat _ _ _ _

/-- Which writer a transport has does not matter to the decoder. -/
theorem tracks_writer {maxLen : Text.Usize} {more : List UInt8} {u : FramedTransport Reader}
    {d : Decoder} (writer : Writer)
    (h : Tracks maxLen ((u.mapReader Reader.unchunked).mapReader (Stream.onto more)) d) :
    Tracks maxLen ((({ u with writer } : FramedTransport Reader).mapReader
      Reader.unchunked).mapReader (Stream.onto more)) d := by
  generalize hv : (u.mapReader Reader.unchunked).mapReader (Stream.onto more) = v at h
  cases h with
  | synced hphase hat =>
      subst hv
      exact .synced hphase ⟨hat.cap, hat.framing, hat.sync, hat.closed, hat.items⟩
  | refused hdesync =>
      subst hv
      exact .refused hdesync

/-- While it goes on, all was written in every framing that reading may come to. -/
theorem Progress.written_eq
    (h : Progress crates core serde writer bytes ended messages err task calls)
    (hopen : task.returned = none) {framing : Framing}
    (hkept : task.transport.framing ≠ .auto → framing = task.transport.framing) :
    task.transport.writer.written = writer.written ++
      wire serde framing ((handleAll serde crates core messages).1.flatMap Prod.fst) := by
  obtain ⟨sent, last, hwritten, ⟨-, hall⟩, hbegins, -⟩ := h.served.written
  rw [h.served.err_eq_none crates core hopen] at hbegins
  rw [hwritten, hall (.inl hopen), List.prefix_nil.mp hbegins, List.append_nil]
  by_cases hnone : messages = []
  · subst hnone
    rfl
  · rw [hkept (h.settled hnone)]

/-- A message that is read settles the framing, of the transport and of the decoder alike. -/
theorem Progress.settles (hcap : core.config.maxContentLength.val < Text.usizeMax)
    (h : Progress crates core serde writer bytes ended messages err task calls)
    (hopen : task.returned = none) {raw : String} {u : FramedTransport Reader}
    (hread : readMessage task.transport = (.ok raw, u)) :
    u.framing ≠ .auto ∧ ∀ more, MayFollow ended more →
      (decodes core.config.maxContentLength.val (messages.length + 1)
        ⟨.undecided, bytes ++ more⟩).2.phase.framing = some u.framing := by
  have hphase : ∀ more, MayFollow ended more →
      let d := (decodes core.config.maxContentLength.val (messages.length + 1)
        ⟨.undecided, bytes ++ more⟩).2
      (d.phase = .newline ∨ d.phase = .contentLength) ∧ d.phase.framing = some u.framing := by
    intro more hmore d
    obtain ⟨hvariant, htracks⟩ := h.decode_read crates core hcap hopen hread (by simp) more hmore
    obtain ⟨hphase, -⟩ := decode_message (Prod.ext (Option.some.inj hvariant).symm rfl)
    have hlast : d = (decode core.config.maxContentLength.val (decodes
        core.config.maxContentLength.val messages.length ⟨.undecided, bytes ++ more⟩).2).2 := by
      simp only [d, decodes_succ_last]
    rw [hlast]
    refine ⟨hphase, phase_framing_of_tracks htracks ?_⟩
    rcases hphase with hphase | hphase
    · simp [hphase]
    · simp [hphase]
  refine ⟨fun hauto => ?_, fun more hmore => (hphase more hmore).2⟩
  obtain ⟨hphase, hframing⟩ := hphase [] fun _ => rfl
  rw [hauto] at hframing
  rcases hphase with hphase | hphase
  · rw [hphase] at hframing
    cases hframing
  · rw [hphase] at hframing
    cases hframing

/-- A turn that reads a message handles it. -/
theorem Progress.message (hserde : CompactJson serde)
    (hcap : core.config.maxContentLength.val < Text.usizeMax)
    (h : Progress crates core serde writer bytes ended messages err task calls)
    (hopen : task.returned = none) {raw : String} {u : FramedTransport Reader}
    (hread : readMessage task.transport = (.ok raw, u)) (world : World σ) :
    Progress crates core serde writer bytes ended (messages ++ [⟨raw, world.service⟩]) none
      (task.turn serde crates core world).2.1
      (calls ++ (task.turn serde crates core world).1) := by
  have hkept := kept_readMessage task.transport
  have hclosed := closed_of_readMessage task.transport
  rw [hread] at hkept hclosed
  obtain ⟨hcalls, writer', returned, htask, hwrote⟩ :=
    turn_of_message crates core hserde hopen hread world
  obtain ⟨sent, hwritten, hprefix, hall⟩ := hwrote.sent
  have hdecode := h.decode_read crates core hcap hopen hread (by simp)
  obtain ⟨hsettled, hframing⟩ := h.settles crates core hcap hopen hread
  have herr := h.served.err_eq_none crates core hopen
  have htaken : u.writer.faults <:+ writer.faults := by
    rw [hkept.writer]
    exact h.taken
  rw [hcalls, htask]
  refine ⟨⟨fun more hmore => ?_, fun _ more hmore => ?_, ?_, ?_, ?_, ?_⟩,
    hwrote.taken.trans htaken, fun _ => hsettled, fun _ => ?_, fun _ more hmore => ?_⟩
  · have hsofar := h.served.decoded more hmore
    obtain ⟨hvariant, -⟩ := hdecode more hmore
    simp only [herr, Option.toList_none, List.length_nil, Nat.add_zero, List.map_nil,
      List.append_nil, List.length_append, List.length_cons, Nat.zero_add, decodes_succ_last,
      List.map_append] at hsofar ⊢
    rw [hsofar, List.map_cons, List.map_cons, ← hvariant]
    rfl
  · rw [List.length_append, List.length_singleton]
    exact hframing more hmore
  · exact hwrote.returned.imp_right fun ⟨fault, hfired, hfailed⟩ =>
      ⟨rfl, fault, hfired.earlier htaken, hfailed⟩
  · rw [handleAll_concat, ← h.served.session]
  · rw [handleAll_concat, ← h.served.session, List.flatMap_append, ← h.served.calls]
    simp
  · rw [handleAll_concat, ← h.served.session]
    simp only [List.flatMap_append, List.flatMap_singleton, wire_append]
    refine ⟨_, [], ?_, ⟨(List.prefix_append_right_inj _).mpr hprefix, fun hnone => ?_⟩,
      List.prefix_refl _, .inl rfl⟩
    · rw [hwritten, hkept.writer, h.written_eq crates core hopen hkept.framing, List.append_nil,
        List.append_assoc]
    · rw [hall (hnone.resolve_right fun hsome => hsome rfl)]
  · exact hclosed.trans (h.closed hopen)
  · rw [List.length_append, List.length_singleton, decodes_succ_last]
    exact tracks_writer writer' (hdecode more hmore).2

/-- A turn in which reading stops ends the task. -/
theorem Progress.stop (hserde : CompactJson serde)
    (hcap : core.config.maxContentLength.val < Text.usizeMax)
    (h : Progress crates core serde writer bytes ended messages none task calls)
    (hopen : task.returned = none) {err : Error} {u : FramedTransport Reader}
    (hread : readMessage task.transport = (.err err, u)) (world : World σ) :
    Progress crates core serde writer bytes ended messages (some err)
      (task.turn serde crates core world).2.1
      (calls ++ (task.turn serde crates core world).1) := by
  have hkept := kept_readMessage task.transport
  rw [hread] at hkept
  obtain ⟨hcalls, writer', outcome, htask, -, ⟨last, hwritten, hprefix, hall⟩, htaken, hreturns⟩ :=
    turn_of_stop crates core hserde hopen hread world
  have hdecode := h.decode_read crates core hcap hopen hread (by simp)
  have htaken' : u.writer.faults <:+ writer.faults := by
    rw [hkept.writer]
    exact h.taken
  rw [hcalls, htask, List.append_nil]
  refine ⟨⟨fun more hmore => ?_, fun hne more hmore => ?_, .inl rfl, h.served.session,
    h.served.calls, ?_⟩, htaken.trans htaken', fun hne => ?_, nofun, nofun⟩
  · have hsofar := h.served.decoded more hmore
    obtain ⟨hvariant, -⟩ := hdecode more hmore
    simp only [Option.toList_none, Option.toList_some, List.length_nil, Nat.add_zero,
      List.map_nil, List.append_nil, List.length_singleton, decodes_succ_last,
      List.map_append] at hsofar ⊢
    rw [hsofar, List.map_singleton, List.map_singleton, ← hvariant]
  · have hframing : u.framing = task.transport.framing := hkept.framing (h.settled hne)
    rw [h.served.framing hne more hmore, ← hframing]
  · refine ⟨_, last, ?_, ⟨List.prefix_refl _, fun _ => rfl⟩, hprefix,
      hreturns.imp hall fun ⟨fault, hfired, _⟩ => ⟨fault, hfired.earlier htaken'⟩⟩
    simp only at hwritten
    rw [hwritten, hkept.writer, h.written_eq crates core hopen hkept.framing]
  · have hsettled := h.settled hne
    have hframing : u.framing = task.transport.framing := hkept.framing hsettled
    change u.framing ≠ .auto
    rw [hframing]
    exact hsettled

end Progress

section Alone

variable {σ : Type} {serde : SerdeJson} (crates : Externals) (core : ServerCore σ)
variable {writer : Writer} {sofar : List UInt8 × Bool} {messages : List (Handled σ)}
  {err : Option Error} {task : Task} {calls : List ServiceCall}

/-- Something arrives that is no failure to read. -/
theorem Progress.receive
    (h : Progress crates core serde writer sofar.1 sofar.2 messages err task calls)
    {incoming : Incoming} (hsound : ∀ failure, incoming ≠ .event (.fail failure)) :
    Progress crates core serde writer (noteArrival sofar incoming).1 (noteArrival sofar incoming).2
      messages err (task.receive incoming) calls := by
  obtain ⟨bytes, ended⟩ := sofar
  cases ended with
  | true =>
      -- Nothing arrives after the end, for the task as little as for the note of it.
      refine ⟨⟨h.served.decoded, h.served.framing, h.served.returned, h.served.session,
        h.served.calls, h.served.written⟩, h.taken, h.settled, fun hopen => ?_,
        fun hopen more hmore => ?_⟩
      · have hclosed := h.closed hopen
        simp only [Task.receive, FramedTransport.mapReader, receive_of_closed incoming hclosed]
        exact hclosed
      · have htracks := h.tracks hopen more hmore
        simp only [Task.receive, FramedTransport.mapReader,
          receive_of_closed incoming (h.closed hopen)] at htracks ⊢
        exact htracks
  | false =>
      cases incoming with
      | event event =>
          cases event with
          | chunk chunk nonempty =>
              exact h.arrive crates core rfl
          | fail failure =>
              exact absurd rfl (hsound failure)
      | hangUp =>
          exact h.hangUp crates core

/-- A task takes a turn, in which it gets on unless its read waits. -/
theorem Progress.turn (hserde : CompactJson serde)
    (hcap : core.config.maxContentLength.val < Text.usizeMax)
    {bytes : List UInt8} {ended : Bool}
    (h : Progress crates core serde writer bytes ended messages err task calls) (world : World σ) :
    ∃ more err', Progress crates core serde writer bytes ended (messages ++ more) err'
        (task.turn serde crates core world).2.1
        (calls ++ (task.turn serde crates core world).1) ∧
      (more.map Handled.found).Sublist [world.service] ∧
      (err.toList.length ≤ err'.toList.length ∧
        (task.returned = none → (readMessage task.transport).1 ≠ .running →
          0 < more.length + err'.toList.length)) := by
  cases hreturned : task.returned with
  | some returned =>
      refine ⟨[], err, ?_, List.nil_sublist _, Nat.le_refl _, nofun⟩
      simp only [Task.turn, hreturned, List.append_nil]
      exact h
  | none =>
      obtain rfl := h.served.err_eq_none crates core hreturned
      rcases hread : readMessage task.transport with ⟨outcome, u⟩
      cases outcome with
      | ok raw =>
          exact ⟨_, none, h.message crates core hserde hcap hreturned hread world,
            List.Sublist.refl _, Nat.le_refl _, fun _ _ => Nat.zero_lt_one⟩
      | err err =>
          refine ⟨[], some err, ?_, List.nil_sublist _, Nat.zero_le _, fun _ _ => Nat.zero_lt_one⟩
          rw [List.append_nil]
          exact h.stop crates core hserde hcap hreturned hread world
      | running =>
          have hwaits : (readMessage task.transport).1 = .running := by
            rw [hread]
          obtain ⟨hcalls, htask⟩ := turn_of_waiting crates core hwaits world
          refine ⟨[], none, ?_, List.nil_sublist _, Nat.le_refl _, fun _ hreturns =>
            absurd rfl hreturns⟩
          rw [hcalls, htask, List.append_nil, List.append_nil]
          exact h

/-- A connection that is alone is served so far, whatever arrives and whenever its task
takes turns. -/
theorem Progress.alone (hserde : CompactJson serde)
    (hcap : core.config.maxContentLength.val < Text.usizeMax)
    (life : List (Pool.Own Incoming (World σ)))
    (hsound : ∀ incoming ∈ life.filterMap Pool.Own.arrival,
      ∀ failure, incoming ≠ .event (.fail failure))
    (h : Progress crates core serde writer sofar.1 sofar.2 messages err task calls) :
    let now := (life.filterMap Pool.Own.arrival).foldl noteArrival sofar
    let run := Mealy.run (Pool.ownStep (tasks serde crates core)) life task
    ∃ more err', Progress crates core serde writer now.1 now.2 (messages ++ more) err' run.2
        (calls ++ (run.1.filterMap id).flatten) ∧
      (more.map Handled.found).Sublist
        ((life.filterMap Pool.Own.found).map World.service) := by
  induction life generalizing sofar messages err task calls with
  | nil =>
      refine ⟨[], err, ?_, List.Sublist.refl _⟩
      simpa using h
  | cons own life ih =>
      cases own with
      | arrive incoming =>
          have hnext := h.receive crates core (hsound incoming (by simp [Pool.Own.arrival]))
          exact ih (fun incoming hmem => hsound incoming (List.mem_cons_of_mem _ hmem)) hnext
      | turn world =>
          obtain ⟨first, err', hturn, hfound, -⟩ := h.turn crates core hserde hcap world
          obtain ⟨rest, err'', hrest, hfounds⟩ := ih hsound hturn
          refine ⟨first ++ rest, err'', ?_, ?_⟩
          · rw [List.append_assoc, List.append_assoc] at hrest
            exact hrest
          · rw [List.map_append]
            exact hfound.append hfounds

end Alone

section Server

variable {σ : Type} {serde : SerdeJson} (crates : Externals) (core : ServerCore σ)

/-- What arrives on a connection. -/
def arrivals (n : Nat) (happenings : List (Happening σ)) : List Incoming :=
  happenings.filterMap fun
    | .arrive k incoming => if k = n then some incoming else none
    | _ => none

theorem arrivalFor_move (maxLen : Text.Usize) (n : Nat) (happenings : List (Happening σ)) :
    (happenings.map (Happening.move maxLen)).filterMap (Pool.Move.arrivalFor n) =
      arrivals n happenings := by
  rw [List.filterMap_map, arrivals]
  refine List.filterMap_congr fun happening _ => ?_
  cases happening with
  | _ =>
      rfl

/-- What the body of a pump leaves behind, whether it goes round or leaves. -/
def leftBy {R : Type} : Loop.Step (Connection R σ) (Transport.Outcome Unit × Connection R σ) →
    Connection R σ
  | .next c => c
  | .leave left => left.2

/-- A pump changes the world only by handling messages. -/
theorem world_pumpBody (serde : SerdeJson) (c : Connection Reader σ) :
    (leftBy (pumpBody serde crates core c)).world = c.world ∨
    ∃ message, (leftBy (pumpBody serde crates core c)).world =
      (handleMessage crates core message c.session c.world).2.2 := by
  unfold pumpBody
  rcases readMessage c.transport with ⟨raw | err | _, t⟩
  · by_cases hblank : Text.trim raw = ""
    · simp only [if_pos hblank]
      exact .inl rfl
    · simp only [if_neg hblank, answer]
      cases serde.fromStr raw with
      | error e =>
          simp only
          rcases send serde (parseErrorResponse e) t with ⟨_ | _ | _, t'⟩
          · exact .inl rfl
          · exact .inl rfl
          · exact .inl rfl
      | ok message =>
          refine .inr ⟨message, ?_⟩
          simp only
          rcases handleMessage crates core message c.session c.world with ⟨dispatch, session, world⟩
          simp only
          rcases sendDispatch serde dispatch t with ⟨_ | _ | _, t'⟩
          · rfl
          · rfl
          · rfl
  · by_cases hclosed : isConnectionClosed err = true
    · simp only [if_pos hclosed]
      exact .inl rfl
    · simp only [if_neg hclosed]
      exact .inl rfl
  · exact .inl rfl

/-- A pump only adds to the calls. -/
theorem calls_pumpBody (serde : SerdeJson) (c : Connection Reader σ) :
    ∃ calls, (leftBy (pumpBody serde crates core c)).world.calls = c.world.calls ++ calls := by
  rcases world_pumpBody crates core serde c with hworld | ⟨message, hworld⟩
  · exact ⟨[], by rw [hworld, List.append_nil]⟩
  · obtain ⟨-, -, hserves⟩ := handleMessage_spec crates core message c.session c.world
    exact ⟨_, by rw [hworld, hserves.calls]⟩

/-- The calls of a turn are those that it adds to the world's. -/
theorem calls_turn (serde : SerdeJson) (task : Task) (world : World σ) :
    (task.turn serde crates core world).2.2.calls =
      world.calls ++ (task.turn serde crates core world).1 := by
  obtain ⟨calls, hcalls⟩ :=
    calls_pumpBody crates core serde ⟨task.transport, task.session, world⟩
  unfold Task.turn
  cases task.returned with
  | some returned =>
      exact (List.append_nil _).symm
  | none =>
      generalize pumpBody serde crates core ⟨task.transport, task.session, world⟩ = step at hcalls
      have hsince := callsSince_append hcalls
      cases step with
      | next c =>
          exact hcalls.trans (congrArg (world.calls ++ ·) hsince.symm)
      | leave left =>
          obtain ⟨outcome, c⟩ := left
          cases outcome with
          | running =>
              exact (List.append_nil _).symm
          | _ =>
              exact hcalls.trans (congrArg (world.calls ++ ·) hsince.symm)

/-- The calls that one happening made. -/
def madeIn : Option (Nat × List ServiceCall) → List ServiceCall
  | some (_, calls) => calls
  | none => []

/-- The calls in the world are those of the turns, in the order in which they were made. -/
theorem calls_serving (serde : SerdeJson) (happenings : List (Happening σ)) (world : World σ) :
    (serving serde crates core happenings world).2.shared.calls =
      world.calls ++ (serving serde crates core happenings world).1.flatMap madeIn := by
  exact Pool.run_log World.calls madeIn rfl (fun _ => calls_turn crates core serde)
    (fun _ _ => rfl) _ (.init world)

/-- What happens to a connection from a point on. -/
def lifeOf (serde : SerdeJson) (n : Nat) (before after : List (Happening σ)) (world : World σ) :
    List (Pool.Own Incoming (World σ)) :=
  Pool.owns (tasks serde crates core) n
    (after.map (Happening.move core.config.maxContentLength))
    (serving serde crates core before world).2

/-- The states of the service that the turns of a connection find, from a point on. -/
def foundBy (serde : SerdeJson) (n : Nat) (before after : List (Happening σ))
    (world : World σ) : List σ :=
  ((lifeOf crates core serde n before after world).filterMap Pool.Own.found).map World.service

/-- From when it is accepted a connection is served as if it were alone. -/
theorem serving_accept (serde : SerdeJson) (before after : List (Happening σ))
    (writer : Writer) (world : World σ) :
    let n := (serving serde crates core before world).2.tasks.length
    let run := serving serde crates core (before ++ .accept writer :: after) world
    let alone := Mealy.run (Pool.ownStep (tasks serde crates core))
      (lifeOf crates core serde n (before ++ [.accept writer]) after world)
      (.accepted core.config.maxContentLength writer)
    run.2.tasks[n]? = some alone.2 ∧ Pool.putOut n run.1 = alone.1.filterMap id := by
  intro n run alone
  have hspawn := Pool.run_spawn (b := tasks serde crates core)
    (before.map (Happening.move core.config.maxContentLength))
    (after.map (Happening.move core.config.maxContentLength))
    (.accepted core.config.maxContentLength writer) (.init world)
  simp only [run, alone, n, lifeOf, serving, List.map_append, List.map_cons, List.map_nil]
  exact hspawn

/-- What arrives in the life of a connection is what arrives on it. -/
theorem arrivals_lifeOf (serde : SerdeJson) (n : Nat) (before after : List (Happening σ))
    (world : World σ) :
    (lifeOf crates core serde n before after world).filterMap Pool.Own.arrival =
      arrivals n after := by
  rw [lifeOf, Pool.arrivals_owns, arrivalFor_move]

/-- A connection on which no read fails was served as far as its messages were read. -/
theorem served_of_accept (hserde : CompactJson serde)
    (hcap : core.config.maxContentLength.val < Text.usizeMax)
    (before after : List (Happening σ)) (writer : Writer) (world : World σ) :
    let n := (serving serde crates core before world).2.tasks.length
    let run := serving serde crates core (before ++ .accept writer :: after) world
    let arrived := received (arrivals n after)
    (∀ failure, Incoming.event (.fail failure) ∉ arrivals n after) →
    ∃ task messages err, run.2.tasks[n]? = some task ∧
      Served serde crates core writer arrived.1 arrived.2 messages err task
        (Pool.putOut n run.1).flatten ∧
      (messages.map Handled.found).Sublist
        (foundBy crates core serde n (before ++ [.accept writer]) after world) := by
  intro n run arrived hsound
  obtain ⟨htask, hputOut⟩ := serving_accept crates core serde before after writer world
  have harrived := arrivals_lifeOf crates core serde n (before ++ [.accept writer]) after world
  obtain ⟨messages, err, hprogress, hfound⟩ :=
    (show Progress crates core serde writer (received []).1 (received []).2 [] none _ [] from
      progress_accepted crates core writer).alone crates core hserde hcap
      (lifeOf crates core serde n (before ++ [.accept writer]) after world)
      (by
        rw [harrived]
        rintro incoming hmem failure rfl
        exact hsound failure hmem)
  rw [harrived] at hprogress
  refine ⟨_, messages, err, htask, ?_, hfound⟩
  rw [hputOut]
  exact hprogress.served

/--
Connections are served at once and each as if alone: whatever was accepted before, and
whatever arrives on which connection, which tasks take turns and how the service changes
in between, a connection on which no read fails was served as far as its messages were
read, each once and in order, finding the service as its turns did, until a write failed;
and the calls the service got are those of all the turns, in their order.
-/
theorem connections_served (hserde : CompactJson serde)
    (hcap : core.config.maxContentLength.val < Text.usizeMax)
    (before after : List (Happening σ)) (writer : Writer) (world : World σ) :
    let n := (serving serde crates core before world).2.tasks.length
    let run := serving serde crates core (before ++ .accept writer :: after) world
    let arrived := received (arrivals n after)
    run.2.shared.calls = world.calls ++ run.1.flatMap madeIn ∧
    ((∀ failure, Incoming.event (.fail failure) ∉ arrivals n after) →
      ∃ task messages err, run.2.tasks[n]? = some task ∧
        Served serde crates core writer arrived.1 arrived.2 messages err task
          (Pool.putOut n run.1).flatten ∧
        (messages.map Handled.found).Sublist
          (foundBy crates core serde n (before ++ [.accept writer]) after world)) := by
  intro n run arrived
  exact ⟨calls_serving crates core serde _ world,
    served_of_accept crates core hserde hcap before after writer world⟩

/-- Two clients shut the service down, the second while the first is still sending. -/
theorem connections_served_of_two :
    let shutdown := "\x7b\"method\":\"shutdown\"\x7d"
    let serde := plainJson shutdown (.object [("method", .string "shutdown")])
    let crates : Externals :=
      { display := fun _ => "", safeName := id, safeMessage := id,
        extractTraceparent := fun _ => .error "", setParent := fun _ => none }
    let core : ServerCore Nat :=
      { config := .new "server" "1.0",
        service :=
          { tools := fun s => ([], s), callTool := fun _ _ s => (.ok (.text ""), s),
            shutdown := (· + 1) } }
    let first : List (Happening Nat) :=
      [.accept .reliable, .arrive 0 (.event (.chunk (Text.asBytes "\x7b\"method") (by decide)))]
    let rest : List (Happening Nat) :=
      [.turn 0, .arrive 1 (.event (.chunk (Text.asBytes (shutdown ++ "\n")) (by decide))),
        .turn 1, .arrive 1 .hangUp, .service 5,
        .arrive 0 (.event (.chunk (Text.asBytes "\":\"shutdown\"\x7d\n") (by decide))),
        .turn 0, .turn 1]
    let run := serving serde crates core (first ++ .accept .reliable :: rest) ⟨0, [], []⟩
    (∃ task messages err, run.2.tasks[1]? = some task ∧
      Served serde crates core .reliable (Text.asBytes (shutdown ++ "\n")) true messages err task
        (Pool.putOut 1 run.1).flatten ∧
      (messages.map Handled.found).Sublist [0, 6]) ∧
    run.2.shared.service = 6 ∧ run.2.shared.calls = run.1.flatMap madeIn := by
  intro shutdown serde crates core first rest run
  have hserde : CompactJson serde :=
    compactJson_plainJson _ _
  obtain ⟨hcalls, hserved⟩ := connections_served crates core hserde (by decide) first rest
    .reliable ⟨0, [], []⟩
  have hfirst : (serving serde crates core first ⟨0, [], []⟩).2.tasks.length = 1 := by
    decide +kernel
  have harrived : received (arrivals 1 rest) = (Text.asBytes (shutdown ++ "\n"), true) := by
    decide +kernel
  have hfound : foundBy crates core serde 1 (first ++ [.accept .reliable]) rest ⟨0, [], []⟩ =
      [0, 6] := by
    decide +kernel
  have hrun : serving serde crates core (first ++ .accept .reliable :: rest) ⟨0, [], []⟩ = run :=
    rfl
  rw [hfirst, harrived, hfound, hrun] at hserved
  rw [List.nil_append, hrun] at hcalls
  have hsound : ∀ failure, Incoming.event (.fail failure) ∉ arrivals 1 rest := by
    intro failure hmem
    simp [rest, arrivals] at hmem
  have hservice : run.2.shared.service = 6 := by
    decide +kernel
  exact ⟨hserved hsound, hservice, hcalls⟩

end Server

section Failures

variable {σ : Type} (crates : Externals) (core : ServerCore σ)

/-- Whether a signal tells of a connection that failed. -/
def tellsFailure : Signal → Bool
  | .event _ _ message => message == "connection failed"
  | _ => false

/-- What there is to tell of a task. -/
def Task.failure (task : Task) : List Signal :=
  match task.returned with
  | some (.error err) => [connectionFailed crates err]
  | _ => []

/-- Handling a message tells of no failed connection. -/
theorem tells_emitted (message : Value) (session : Session) (before : σ) :
    (emitted crates core message session before).filter tellsFailure = [] := by
  have hrejected : (rejectedTrace crates message).filter tellsFailure = [] := by
    unfold rejectedTrace
    split
    · rfl
    · split
      · rfl
      · rfl
  have hjoined : (joinedTrace crates message).filter tellsFailure = [] := by
    unfold joinedTrace
    split
    · rfl
    · split
      · rfl
      · split
        · rfl
        · rfl
  have hsignals : ∀ request : Request,
      (request.signals crates core session.initialized before).filter tellsFailure = [] := by
    intro request
    unfold Request.signals
    split
    · split
      · unfold callSignals
        rcases (core.service.callTool _ _ before).1 with (msg | msg | msg) | reply
        · rfl
        · rfl
        · rfl
        · rfl
      · rfl
    · rfl
  rw [emitted, List.filter_append, hrejected, List.nil_append, List.filter_cons_of_neg (by
    simp [requestSpan, tellsFailure]), List.filter_append, hjoined, List.nil_append,
    List.filter_append, hsignals]
  rfl

theorem tells_pumpBody (serde : SerdeJson) (c : Connection Reader σ) :
    (leftBy (pumpBody serde crates core c)).world.signals.filter tellsFailure =
      c.world.signals.filter tellsFailure := by
  rcases world_pumpBody crates core serde c with hworld | ⟨message, hworld⟩
  · rw [hworld]
  · rw [hworld, handleMessage_signals, List.filter_append, tells_emitted, List.append_nil]

/-- A turn tells of its connection when it ends it with a failure, and only then. -/
theorem failure_turn (serde : SerdeJson) (task : Task) (world : World σ) :
    (task.turn serde crates core world).2.2.signals.filter tellsFailure ++ task.failure crates =
      world.signals.filter tellsFailure ++
        (task.turn serde crates core world).2.1.failure crates := by
  have htells := tells_pumpBody crates core serde ⟨task.transport, task.session, world⟩
  unfold Task.turn
  cases hreturned : task.returned with
  | some returned =>
      rfl
  | none =>
      have hfailure : task.failure crates = [] := by
        rw [Task.failure, hreturned]
      rw [hfailure, List.append_nil]
      generalize pumpBody serde crates core ⟨task.transport, task.session, world⟩ = step at htells
      rcases step with c | ⟨_ | err | _, c⟩
      · exact htells.trans (List.append_nil _).symm
      · exact htells.trans (List.append_nil _).symm
      · simp only [emit_signals, List.filter_append]
        have htold : c.world.signals.filter tellsFailure = world.signals.filter tellsFailure :=
          htells
        rw [htold]
        rfl
      · simp only [hfailure, List.append_nil]

/--
Every failed connection is told of once: whatever arrives when, reads and writes that fail
included, the events that tell of failed connections are, but for their order, one for
each task whose pump has returned an error, with that error, and no others.
-/
theorem failures_logged (serde : SerdeJson) (happenings : List (Happening σ)) (world : World σ) :
    let run := serving serde crates core happenings world
    List.Perm (run.2.shared.signals.filter tellsFailure)
      (world.signals.filter tellsFailure ++ run.2.tasks.flatMap (Task.failure crates)) := by
  refine Pool.run_tally (fun world : World σ => world.signals.filter tellsFailure)
    (Task.failure crates) (fun incoming task => rfl) (failure_turn crates core serde)
    (fun service world => rfl) (fun task hmem => ?_) ?_
  · obtain ⟨happening, -, hmove⟩ := List.mem_map.mp hmem
    cases happening with
    | accept writer =>
        cases hmove
        rfl
    | _ =>
        cases hmove
  · exact .of_eq (List.append_nil _).symm

end Failures

end Runner
end McpCore
