import McpCore.Termination
import McpCore.ToolCalls

/-!
# The websocket loop

`ws_connection` reads a message from each text frame, lets a session of its own
handle it and sends what it comes to.  Frames are received already cut, so that what
a transport detects and decodes does not come up.

`websocket_agrees_iff` compares it with the pump: the same messages come to the same
calls and the same texts, except under the one cap at which the pump never reads.
-/

namespace McpCore
namespace Runner

open Transport Server

section Model

/-- `axum::extract::ws::Message`. -/
inductive Message where
  | text (text : String)
  | binary (bytes : List UInt8)
  | ping (bytes : List UInt8)
  | pong (bytes : List UInt8)
  | close
deriving DecidableEq

/-- The sending half of a socket.  Each send takes the next entry of `faults`: `none`
lets it succeed, `some err` makes it fail; it succeeds when there is no entry left. -/
structure Sink where
  sent : List String
  faults : List (Option String)
deriving DecidableEq

/-- `sender.send(Message::Text(..))`.  A text that failed is dropped here; the library may
keep it in a buffer and send it with the next one. -/
def Sink.send (text : String) (sink : Sink) : Except String Unit × Sink :=
  match sink.faults with
  | some err :: faults => (.error err, { sink with faults })
  | none :: faults => (.ok (), ⟨sink.sent ++ [text], faults⟩)
  | [] => (.ok (), ⟨sink.sent ++ [text], []⟩)

/-- A sink on which every send succeeds. -/
def Sink.reliable : Sink :=
  ⟨[], []⟩

/-- What the loop works on: the socket, its session, and what sessions share. -/
structure WsConnection (σ : Type) where
  sink : Sink
  session : Session
  world : World σ

variable {σ : Type} (serde : SerdeJson)

/-- Send a value, if it can be serialised; whether sending failed. -/
def sendValue (value : Value) (sink : Sink) : Bool × Sink :=
  match serde.toString value with
  | .ok s =>
      match sink.send s with
      | (.ok _, sink) => (false, sink)
      | (.error _, sink) => (true, sink)
  | .error _ => (false, sink)

/-- The loop over the notifications; a failure leaves this loop only. -/
def sendNotifications : List Value → Sink → Sink
  | [], sink => sink
  | notif :: notifications, sink =>
      match sendValue serde notif sink with
      | (true, sink) => sink
      | (false, sink) => sendNotifications notifications sink

variable (crates : Externals) (core : ServerCore σ)

/-- What the loop does with a text. -/
def wsText (text : String) (c : WsConnection σ) :
    Loop.Step (WsConnection σ) (WsConnection σ) :=
  match serde.fromStr text with
  | .error e =>
      .next { c with sink := (sendValue serde (parseErrorResponse e) c.sink).2 }
  | .ok value =>
      let (dispatch, session, world) := handleMessage crates core value c.session c.world
      let (failed, sink) :=
        match dispatch.response with
        | some resp => sendValue serde resp c.sink
        | none => (false, c.sink)
      if failed then .leave ⟨sink, session, world⟩
      else .next ⟨sendNotifications serde dispatch.notifications sink, session, world⟩

/-- What the loop does with a frame it received, or failed to receive. -/
def wsBody (frame : Except String Message) (c : WsConnection σ) :
    Loop.Step (WsConnection σ) (WsConnection σ) :=
  match frame with
  | .ok (.text text) => wsText serde crates core text c
  | .ok .close => .leave c
  | .error _ => .leave c
  | .ok _ => .next c

/-- `while let Some(msg) = receiver.next().await`. -/
def wsLoop : List (Except String Message) → WsConnection σ → WsConnection σ
  | [], c => c
  | frame :: frames, c =>
      match wsBody serde crates core frame c with
      | .next c => wsLoop frames c
      | .leave c => c

/-- Serve one socket, from the frames it receives until it ends. -/
def wsConnection (frames : List (Except String Message)) (sink : Sink) (world : World σ) :
    WsConnection σ :=
  wsLoop serde crates core frames ⟨sink, Session.new.onTransport .websocket, world⟩

end Model

section Reliable

variable {σ : Type} {serde : SerdeJson} (crates : Externals) (core : ServerCore σ)

/-- The text a frame carries, if it is a text. -/
def frameText : Except String Message → Option String
  | .ok (.text text) => some text
  | _ => none

/-- A frame that does not end the connection. -/
def GoesOn (frame : Except String Message) : Prop :=
  ∃ message, frame = .ok message ∧ message ≠ .close

/-- A sink after these values were sent over it. -/
def sunk (serde : SerdeJson) (values : List Value) (sink : Sink) : Sink :=
  ⟨sink.sent ++ values.map (textOf serde), []⟩

theorem sendValue_eq (hserde : CompactJson serde) {sink : Sink} (h : sink.faults = [])
    (value : Value) :
    sendValue serde value sink = (false, sunk serde [value] sink) := by
  simp [sendValue, textOf_eq hserde value, Sink.send, h, sunk]

theorem sendNotifications_eq (hserde : CompactJson serde) {sink : Sink} (h : sink.faults = [])
    (values : List Value) :
    sendNotifications serde values sink = sunk serde values sink := by
  induction values generalizing sink with
  | nil =>
      obtain ⟨sent, faults⟩ := sink
      simp only at h
      simp [sendNotifications, sunk, h]
  | cons value values ih =>
      simp only [sendNotifications, sendValue_eq hserde h]
      rw [ih rfl]
      simp [sunk]

/-- A text that is not blank is answered as the pump answers it. -/
theorem wsText_eq (hserde : CompactJson serde) {c : WsConnection σ} (h : c.sink.faults = [])
    {text : String} (hblank : Text.trim text ≠ "") :
    wsText serde crates core text c =
      .next ⟨sunk serde (reply serde crates core text (c.session, c.world)).1 c.sink,
        (reply serde crates core text (c.session, c.world)).2.1,
        (reply serde crates core text (c.session, c.world)).2.2⟩ := by
  simp only [wsText, reply, if_neg hblank]
  cases serde.fromStr text with
  | error e =>
      simp only [parseErrorResponse_eq, sendValue_eq hserde h]
  | ok value =>
      cases hresponse : (handleMessage crates core value c.session c.world).1.response with
      | none =>
          simp only [hresponse, Bool.false_eq_true, if_false, Option.toList_none, List.nil_append]
          rw [sendNotifications_eq hserde h]
      | some response =>
          simp only [hresponse, sendValue_eq hserde h, Bool.false_eq_true, if_false,
            Option.toList_some]
          rw [sendNotifications_eq hserde rfl]
          simp [sunk]

/-- The loop answers the texts in turn and passes over the other frames. -/
theorem wsLoop_eq (hserde : CompactJson serde) (frames : List (Except String Message))
    (hframes : ∀ frame ∈ frames, GoesOn frame)
    (hblank : ∀ text ∈ frames.filterMap frameText, Text.trim text ≠ "")
    {c : WsConnection σ} (h : c.sink.faults = []) :
    wsLoop serde crates core frames c =
      let run := Mealy.run (reply serde crates core) (frames.filterMap frameText)
        (c.session, c.world)
      ⟨sunk serde run.1.flatten c.sink, run.2.1, run.2.2⟩ := by
  induction frames generalizing c with
  | nil =>
      obtain ⟨⟨sent, faults⟩, session, world⟩ := c
      simp only at h
      simp [wsLoop, sunk, h]
  | cons frame frames ih =>
      obtain ⟨message, rfl, hclose⟩ := hframes frame (by simp)
      have hrest := fun frame hmem => hframes frame (List.mem_cons_of_mem _ hmem)
      cases message with
      | close =>
          exact absurd rfl hclose
      | text text =>
          have hsplit : (Except.ok (Message.text text) :: frames).filterMap frameText =
              text :: frames.filterMap frameText := rfl
          rw [hsplit] at hblank ⊢
          simp only [wsLoop, wsBody, wsText_eq crates core hserde h (hblank text (by simp))]
          rw [ih hrest (fun text hmem => hblank text (List.mem_cons_of_mem _ hmem)) rfl]
          simp [sunk, Mealy.run]
      | binary bytes =>
          exact ih hrest hblank h
      | ping bytes =>
          exact ih hrest hblank h
      | pong bytes =>
          exact ih hrest hblank h

end Reliable

section Fed

/-- Texts that are read back one by one when they are sent in this framing to a reader
with this cap. -/
inductive Fits (maxLen : Nat) (texts : List String) : Framing → Prop
  | contentLength
      (hfits : ∀ text ∈ texts, (Text.asBytes text).length ≤ maxLen ∧
        (Text.asBytes (headerLine (Text.asBytes text).length)).length ≤ maxLen) :
      Fits maxLen texts .contentLength
  | newline
      (hlines : ∀ text ∈ texts, IsLineText text ∧ (Text.asBytes text).length + 1 ≤ maxLen)
      (hfirst : ∀ text ∈ texts.head?, contentLengthValue text = none) :
      Fits maxLen texts .newline

theorem Fits.decode {maxLen : Nat} {texts : List String} {framing : Framing}
    (h : Fits maxLen texts framing) (hblank : ∀ text ∈ texts, Text.trim text ≠ "") :
    ∃ phase, phase.framing = some framing ∧
      (∀ text ∈ texts.head?, ∀ rest,
        Transport.decode maxLen ⟨.undecided, encode framing text ++ rest⟩ =
          (.message text, ⟨phase, rest⟩)) ∧
      (∀ text ∈ texts, ∀ rest,
        Transport.decode maxLen ⟨phase, encode framing text ++ rest⟩ =
          (.message text, ⟨phase, rest⟩)) ∧
      Transport.decode maxLen ⟨phase, []⟩ = (.connectionClosed, ⟨phase, []⟩) := by
  cases h with
  | contentLength hfits =>
      refine ⟨.contentLength, rfl, fun text hmem rest => ?_, fun text hmem rest => ?_, rfl⟩
      · obtain ⟨hlen, hheader⟩ := hfits text (List.mem_of_mem_head? hmem)
        exact decode_frame hlen hheader (.inl rfl) rest
      · obtain ⟨hlen, hheader⟩ := hfits text hmem
        exact decode_frame hlen hheader (.inr rfl) rest
  | newline hlines hfirst =>
      refine ⟨.newline, rfl, fun text hmem rest => ?_, fun text hmem rest => ?_, rfl⟩
      · obtain ⟨htext, hlen⟩ := hlines text (List.mem_of_mem_head? hmem)
        have hsolid : ∃ c ∈ text.toList, Text.isWhitespace c = false := by
          by_contra hnone
          refine hblank text (List.mem_of_mem_head? hmem) ((Text.trim_eq_empty_iff text).mpr ?_)
          intro c hc
          by_contra hspace
          exact hnone ⟨c, hc, by simpa using hspace⟩
        exact decode_line htext hlen (.inr ⟨rfl, hsolid, hfirst text hmem⟩) rest
      · obtain ⟨htext, hlen⟩ := hlines text hmem
        exact decode_line htext hlen (.inl rfl) rest

variable {maxLen : Text.Usize} {t : FramedTransport Reader} {d : Decoder}

theorem framing_of_tracks {phase : Phase} {framing : Framing}
    (h : Tracks maxLen (t.mapReader Reader.unchunked) d) (hphase : d.phase = phase)
    (hframing : phase.framing = some framing) :
    t.framing = framing := by
  cases h with
  | refused hdesync =>
      subst hphase
      cases hframing
  | synced hphase' hat =>
      subst hphase
      rw [hphase'] at hframing
      cases hframing
      exact hat.framing

/-- What a decoder decodes, a transport that tracks it reads. -/
theorem readsUntil_of_decodes (hcap : maxLen.val < Text.usizeMax) (texts : List String)
    (htracks : Tracks maxLen (t.mapReader Reader.unchunked) d)
    (h : (decodes maxLen (texts.length + 1) d).1 =
      texts.map .message ++ [.connectionClosed]) :
    ∃ u, ReadsUntil t texts (.transport .connectionClosed) u := by
  induction texts generalizing t d with
  | nil =>
      have hanswers := readMessage_tracks htracks hcap
      rw [readMessage_unchunked] at hanswers
      have hclosed : (Transport.decode maxLen d).1 = .connectionClosed := by
        simpa [decodes] using h
      have hread := eq_closed_of_variant (hanswers.same.trans (congrArg some hclosed))
      exact ⟨_, .stop (Prod.ext hread rfl)⟩
  | cons text texts ih =>
      rw [List.length_cons, decodes_succ, List.map_cons, List.cons_append,
        List.cons.injEq] at h
      have hanswers := readMessage_tracks htracks hcap
      rw [readMessage_unchunked] at hanswers
      have hread := eq_ok_of_variant (hanswers.same.trans (congrArg some h.1))
      obtain ⟨u, hrest⟩ := ih hanswers.tracks h.2
      exact ⟨u, .message (Prod.ext hread rfl) hrest⟩

/-- Each message that is read takes a byte at least. -/
theorem length_le_of_readsUntil (hcap : maxLen.val < Text.usizeMax)
    {texts : List String} {err : Error} {u : FramedTransport Reader}
    (h : ReadsUntil t texts err u)
    (htracks : Tracks maxLen (t.mapReader Reader.unchunked) d) :
    texts.length ≤ d.rest.length := by
  induction h generalizing d with
  | stop hread =>
      exact Nat.zero_le _
  | message hread hrest ih =>
      obtain ⟨hdecode, htracks'⟩ := decode_of_read htracks hcap hread
      obtain ⟨-, hlt⟩ := decode_message hdecode
      have hle := ih htracks'
      rw [List.length_cons]
      omega

/-- Texts that fit are read one by one, and settle the framing they are sent in. -/
theorem Fits.readsUntil (hcap : maxLen.val < Text.usizeMax)
    {texts : List String} {framing : Framing} (h : Fits maxLen.val texts framing)
    (hblank : ∀ text ∈ texts, Text.trim text ≠ "") (writer : Writer) {chunks : List Chunk}
    (hchunks : chunks.flatMap Subtype.val = texts.flatMap (encode framing)) :
    ∃ u, ReadsUntil (overChunks maxLen writer chunks) texts
        (.transport .connectionClosed) u ∧
      (texts ≠ [] → u.framing = framing) := by
  obtain ⟨phase, hphase, hfirst, hstep, hend⟩ := h.decode hblank
  have htracks := tracks_overChunks maxLen writer chunks
  rw [hchunks] at htracks
  obtain ⟨u, hreads⟩ := readsUntil_of_decodes hcap texts htracks
    (decodes_detected texts hfirst hstep hend)
  refine ⟨u, hreads, fun hne => ?_⟩
  cases hreads with
  | stop hread =>
      exact absurd rfl hne
  | @message t t' u text texts err hread hrest =>
      obtain ⟨-, htracks'⟩ := decode_of_read htracks hcap hread
      have hdecode := hfirst text rfl (texts.flatMap (encode framing))
      rw [← List.flatMap_cons] at hdecode
      have hframing : t'.framing = framing :=
        framing_of_tracks htracks' (by rw [hdecode]) hphase
      rw [hrest.framing (framing_of_read htracks hcap hread), hframing]

end Fed

section Agreement

variable {σ : Type} {serde : SerdeJson} (crates : Externals) (core : ServerCore σ)

/-- Sessions in one state with the service in one state, after the same calls;
telemetry and the kind of transport aside. -/
structure InStep (s s' : Session × World σ) : Prop where
  initialized : s.1.initialized = s'.1.initialized
  service : s.2.service = s'.2.service
  calls : s.2.calls = s'.2.calls

/-- Sessions in step answer alike and stay in step. -/
theorem reply_inStep (serde : SerdeJson) (raw : String) (s s' : Session × World σ)
    (h : InStep s s') :
    (reply serde crates core raw s).1 = (reply serde crates core raw s').1 ∧
    InStep (reply serde crates core raw s).2 (reply serde crates core raw s').2 := by
  unfold reply
  split
  · exact ⟨rfl, h⟩
  · split
    · exact ⟨rfl, h⟩
    · rename_i message _
      obtain ⟨hdispatch, hsession, hserves⟩ := handleMessage_spec crates core message s.1 s.2
      obtain ⟨hdispatch', hsession', hserves'⟩ := handleMessage_spec crates core message s'.1 s'.2
      refine ⟨?_, ?_, ?_, ?_⟩
      · simp only [hdispatch, hdispatch', h.initialized, h.service]
      · simp only [hsession, hsession', h.initialized]
      · simp only [hserves.service, hserves'.service, h.initialized, h.service]
      · simp only [hserves.calls, hserves'.calls, h.initialized, h.calls]

/-- What a connection comes to depends on the texts among its frames only. -/
theorem wsConnection_eq (hserde : CompactJson serde) {texts : List String}
    (hblank : ∀ text ∈ texts, Text.trim text ≠ "")
    {frames : List (Except String Message)} (hframes : ∀ frame ∈ frames, GoesOn frame)
    (htexts : frames.filterMap frameText = texts) (world : World σ) :
    wsConnection serde crates core frames .reliable world =
      let run := Mealy.run (reply serde crates core) texts
        (Session.new.onTransport .websocket, world)
      ⟨sunk serde run.1.flatten .reliable, run.2.1, run.2.2⟩ := by
  subst htexts
  exact wsLoop_eq crates core hserde frames hframes hblank rfl

/-- A websocket connection and a pump that ended after the same calls, with session and
service in the same state and the same texts sent, the pump's in `framing`. -/
structure Agrees (framing : Framing) (ws : WsConnection σ)
    (pumped : Transport.Outcome Unit × Connection Reader σ) : Prop where
  returns : pumped.1 = .ok ()
  calls : ws.world.calls = pumped.2.world.calls
  service : ws.world.service = pumped.2.world.service
  initialized : ws.session.initialized = pumped.2.session.initialized
  sent : pumped.2.transport.writer.written = ws.sink.sent.flatMap (encode framing)

section Texts

variable (hserde : CompactJson serde) {maxLen : Text.Usize} {framing : Framing}
  {texts : List String} (hblank : ∀ text ∈ texts, Text.trim text ≠ "")
  {chunks : List Chunk} (hchunks : chunks.flatMap Subtype.val = texts.flatMap (encode framing))
  {frames : List (Except String Message)} (hframes : ∀ frame ∈ frames, GoesOn frame)
  (htexts : frames.filterMap frameText = texts)
  (transport : TransportKind) (world : World σ)

include hserde hblank hframes htexts

/-- A pump that reads the texts and then the end of the stream agrees. -/
theorem agrees_of_readsUntil {u : FramedTransport Reader}
    (hframing : texts ≠ [] → u.framing = framing)
    {pumped : Transport.Outcome Unit × Connection Reader σ}
    (hpumped : pumped =
      (stopped (.transport .connectionClosed),
        ⟨sent serde (replies serde crates core texts (.transport .connectionClosed)
            (Session.new.onTransport transport, world)) { u with writer := .reliable },
          (Mealy.run (reply serde crates core) texts
            (Session.new.onTransport transport, world)).2.1,
          (Mealy.run (reply serde crates core) texts
            (Session.new.onTransport transport, world)).2.2⟩)) :
    Agrees framing (wsConnection serde crates core frames .reliable world) pumped := by
  have hstart : InStep (Session.new.onTransport .websocket, world)
      (Session.new.onTransport transport, world) :=
    ⟨rfl, rfl, rfl⟩
  obtain ⟨houtputs, hstep⟩ := Mealy.run_simulation (reply serde crates core)
    (reply serde crates core) InStep id id (reply_inStep crates core serde) texts hstart
  rw [List.map_id, List.map_id] at houtputs
  rw [wsConnection_eq crates core hserde hblank hframes htexts world, hpumped]
  refine ⟨rfl, hstep.calls, hstep.service, hstep.initialized, ?_⟩
  simp only [sent, sunk, replies, farewell, houtputs, List.append_nil, Writer.reliable,
    Sink.reliable, List.nil_append, List.flatMap_map]
  by_cases hne : texts = []
  · subst hne
    rfl
  · rw [hframing hne]

include hchunks

theorem agrees_of_lt (hcap : maxLen.val < Text.usizeMax) (hfits : Fits maxLen.val texts framing) :
    Agrees framing (wsConnection serde crates core frames .reliable world)
      (pump serde crates core
        ⟨overChunks maxLen .reliable chunks, Session.new.onTransport transport, world⟩) := by
  have htracks := tracks_overChunks maxLen .reliable chunks
  obtain ⟨u, hreads, hframing⟩ := hfits.readsUntil hcap hblank .reliable hchunks
  have hsize : texts.length < fuel (overChunks maxLen .reliable chunks) := by
    have hle := length_le_of_readsUntil hcap hreads htracks
    have hitems := congrArg List.length (at_overChunks maxLen .reliable chunks).items
    rw [List.length_map] at hitems
    exact Nat.lt_succ_of_le (hle.trans (le_of_eq hitems.symm))
  exact agrees_of_readsUntil crates core hserde hblank hframes htexts transport world hframing
    (pump_eq_of_run crates core (run_pumpBody crates core hcap hserde hreads htracks .reliable rfl
      (Session.new.onTransport transport) world hsize))

omit hblank hchunks hframes htexts in
/-- A pump whose stream is empty reads no text, under whatever cap. -/
theorem pump_nil :
    pump serde crates core
      ⟨overChunks maxLen .reliable [], Session.new.onTransport transport, world⟩ =
        (stopped (.transport .connectionClosed),
          ⟨sent serde (replies serde crates core [] (.transport .connectionClosed)
            (Session.new.onTransport transport, world)) (overChunks maxLen .reliable []),
            Session.new.onTransport transport, world⟩) := by
  have hended : Ended (overChunks maxLen .reliable []) :=
    ⟨rfl, rfl⟩
  exact pump_eq_of_run crates core (Loop.run_succ_of_leave _
    (pumpBody_stop crates core hserde rfl (hended.readMessage_of_sync rfl)))

omit hserde hblank hframes htexts in
/-- Under the cap `usize::MAX` a pump that has something to read never returns. -/
theorem pump_running_at_max (hmax : maxLen.val = Text.usizeMax) (hne : texts ≠ []) :
    (pump serde crates core
      ⟨overChunks maxLen .reliable chunks, Session.new.onTransport transport, world⟩).1 =
        .running := by
  have hchunked : chunks ≠ [] := by
    rintro rfl
    obtain ⟨text, rest, rfl⟩ := List.exists_cons_of_ne_nil hne
    rw [List.flatMap_nil, List.flatMap_cons] at hchunks
    exact encode_ne_nil framing text (List.append_eq_nil_iff.mp hchunks.symm).1
  have hread := readMessage_spins_on_byte (t := overChunks maxLen .reliable chunks) hmax
    (startsWithByte_overChunks hchunked) rfl
  have hbody : pumpBody serde crates core
      ⟨overChunks maxLen .reliable chunks, Session.new.onTransport transport, world⟩ =
        .leave (.running, ⟨overChunks maxLen .reliable chunks,
          Session.new.onTransport transport, world⟩) := by
    simp only [pumpBody, hread]
  rw [pump_eq_of_run crates core (Loop.run_succ_of_leave _ hbody)]

end Texts

/--
The websocket loop and the framed pump agree: fed the same texts, none of them blank,
one as text frames among others that do not end the connection, the other in a framing
they fit in, in any chunks, they make the same calls, leave session and service in the
same state and send the same texts, exactly if the cap is not `usize::MAX` or there is
no text.  The other frames never change anything.
-/
theorem websocket_agrees_iff
    (hserde : CompactJson serde) (maxLen : Text.Usize) (framing : Framing)
    (texts : List String) (hblank : ∀ text ∈ texts, Text.trim text ≠ "")
    (hfits : Fits maxLen.val texts framing) (chunks : List Chunk)
    (hchunks : chunks.flatMap Subtype.val = texts.flatMap (encode framing))
    (frames : List (Except String Message)) (hframes : ∀ frame ∈ frames, GoesOn frame)
    (htexts : frames.filterMap frameText = texts)
    (transport : TransportKind) (world : World σ) :
    let ws := wsConnection serde crates core frames .reliable world
    let pumped := pump serde crates core
      ⟨overChunks maxLen .reliable chunks, Session.new.onTransport transport, world⟩
    (Agrees framing ws pumped ↔ maxLen.val < Text.usizeMax ∨ texts = []) ∧
    ws = wsConnection serde crates core (texts.map fun text => .ok (.text text)) .reliable
      world := by
  intro ws pumped
  have hplain : (texts.map fun text => Except.ok (Message.text text)).filterMap frameText =
      texts := by
    rw [List.filterMap_map]
    exact List.filterMap_some
  have hgoesOn : ∀ frame ∈ texts.map fun text => Except.ok (Message.text text),
      GoesOn frame := by
    intro frame hmem
    obtain ⟨text, -, rfl⟩ := List.mem_map.mp hmem
    exact ⟨_, rfl, nofun⟩
  refine ⟨⟨fun hagrees => ?_, ?_⟩, ?_⟩
  · by_contra hnot
    obtain ⟨hcap, hne⟩ := not_or.mp hnot
    have hmax := Text.eq_usizeMax_of_not_lt hcap
    have hrunning : pumped.1 = .running :=
      pump_running_at_max crates core hchunks transport world hmax hne
    rw [hagrees.returns] at hrunning
    cases hrunning
  · rintro (hcap | rfl)
    · exact agrees_of_lt crates core hserde hblank hchunks hframes htexts transport world hcap
        hfits
    · obtain rfl : chunks = [] := by
        rw [List.flatMap_nil, List.flatMap_eq_nil_iff] at hchunks
        exact List.eq_nil_iff_forall_not_mem.mpr fun chunk hmem => chunk.2 (hchunks chunk hmem)
      have hpumped : pumped = _ := pump_nil crates core hserde transport world
      exact agrees_of_readsUntil crates core hserde hblank hframes htexts transport world
        (u := overChunks maxLen .reliable []) (fun hne => absurd rfl hne) hpumped
  · exact (wsConnection_eq crates core hserde hblank hframes htexts world).trans
      (wsConnection_eq crates core hserde hblank hgoesOn hplain world).symm

/-- A ping and what a `serde_json` makes of it. -/
def pingJson : SerdeJson :=
  plainJson "\x7b\"id\":7,\"method\":\"ping\"\x7d"
    (.object [("id", .number (.int 7)), ("method", .string "ping")])

/-- A ping and a text that is no JSON, with other frames between them, and the same
texts in frames, cut in the middle of a header. -/
theorem websocket_agrees_iff_of_two :
    let ping := "\x7b\"id\":7,\"method\":\"ping\"\x7d"
    let frames : List (Except String Message) :=
      [.ok (.ping []), .ok (.text ping), .ok (.binary [1]), .ok (.text "nope"), .ok (.pong [])]
    let chunks : List Chunk :=
      [⟨Text.asBytes "Content-", by decide⟩,
        ⟨Text.asBytes ("Length: 24\r\n\r\n" ++ ping ++ "Content-Length: 4\r\n\r\nnope"),
          by decide⟩]
    let core := saying (.ok (.text ""))
    let ws := wsConnection pingJson plainCrates core frames .reliable ⟨(), [], []⟩
    Agrees .contentLength ws (pump pingJson plainCrates core
      ⟨overChunks 64 .reliable chunks, Session.new.onTransport .stdio, ⟨(), [], []⟩⟩) ∧
    ws.sink.sent.length = 2 := by
  intro ping frames chunks core ws
  have hfits : Fits (64 : Text.Usize).val [ping, "nope"] .contentLength :=
    .contentLength (by decide)
  have hframes : ∀ frame ∈ frames, GoesOn frame := by
    simp [frames, GoesOn]
  obtain ⟨hagrees, -⟩ := websocket_agrees_iff plainCrates core (compactJson_plainJson _ _) 64
    .contentLength [ping, "nope"] (by decide) hfits chunks (by decide) frames hframes rfl .stdio
    ⟨(), [], []⟩
  exact ⟨hagrees.mpr (.inl (by decide)), by decide⟩

/-- Under the cap `usize::MAX` a ping is answered over a websocket only. -/
theorem websocket_disagrees_at_max :
    let ping := "\x7b\"id\":7,\"method\":\"ping\"\x7d"
    let maxLen : Text.Usize := ⟨Text.usizeMax, by decide⟩
    let core := saying (.ok (.text ""))
    let ws := wsConnection pingJson plainCrates core [.ok (.text ping)] .reliable ⟨(), [], []⟩
    let pumped := pump pingJson plainCrates core
      ⟨overChunks maxLen .reliable [⟨Text.asBytes (ping ++ "\n"), by decide⟩],
        Session.new.onTransport .stdio, ⟨(), [], []⟩⟩
    CompactJson pingJson ∧ Fits maxLen.val [ping] .newline ∧
    ws.sink.sent.length = 1 ∧ pumped.1 = .running ∧ ¬ Agrees .newline ws pumped := by
  intro ping maxLen core ws pumped
  have hfits : Fits maxLen.val [ping] .newline :=
    .newline (by decide) (by decide)
  have hchunks : ([⟨Text.asBytes (ping ++ "\n"), by decide⟩] : List Chunk).flatMap Subtype.val =
      [ping].flatMap (encode .newline) := by
    decide
  have hrunning : pumped.1 = .running :=
    pump_running_at_max plainCrates core hchunks .stdio _ rfl (List.cons_ne_nil _ _)
  refine ⟨compactJson_plainJson _ _, hfits, by decide, hrunning, fun hagrees => ?_⟩
  have hreturns := hagrees.returns
  rw [hrunning] at hreturns
  cases hreturns

end Agreement

end Runner
end McpCore
