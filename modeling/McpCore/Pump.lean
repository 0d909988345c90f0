import McpCore.RoundTrip
import McpCore.Replies
import McpCore.Runner

/-!
# What the pump writes

On a stream without I/O failures, with writes that succeed, a pump reads the
messages a transport reads on its own, hands each to the session in turn, and
writes what these come to in the framing it detected.
-/

namespace McpCore

namespace Transport

open Text

section Progress

variable {maxLen : Nat} {text : String}

theorem line_of_skipHeaders
    {more : Nat} {rest rest' : List UInt8}
    (h : skipHeaders maxLen more rest = .body rest') :
    ∃ line, rest ≠ [] ∧ ¬ maxLen < (splitLine rest).1.length ∧
      decodeUtf8 (splitLine rest).1 = some line := by
  have hne : rest ≠ [] := by
    rintro rfl
    rw [skipHeaders_nil] at h
    cases h
  have hgood : ¬ (maxLen < (splitLine rest).1.length ∨
      decodeUtf8 (splitLine rest).1 = none) := by
    intro hbad
    rw [skipHeaders_of_bad hne hbad] at h
    cases h
  obtain ⟨hfits, hsome⟩ := not_or.mp hgood
  obtain ⟨line, hline⟩ := Option.ne_none_iff_exists'.mp hsome
  exact ⟨line, hne, hfits, hline⟩

/-- Headers that end in a body are followed by less than there was. -/
theorem length_of_skipHeaders
    {more : Nat} {rest rest' : List UInt8}
    (h : skipHeaders maxLen more rest = .body rest') :
    rest'.length < rest.length := by
  induction more generalizing rest with
  | zero =>
      obtain ⟨line, hne, hfits, hsome⟩ := line_of_skipHeaders h
      rw [skipHeaders_of_line hne hfits hsome] at h
      split at h
      · cases h
        exact splitLine_snd_length_lt hne
      · cases h
  | succ more ih =>
      obtain ⟨line, hne, hfits, hsome⟩ := line_of_skipHeaders h
      have hlt := splitLine_snd_length_lt hne
      rw [skipHeaders_of_line hne hfits hsome] at h
      split at h
      · cases h
        exact hlt
      · exact Nat.lt_trans (ih h) hlt

theorem decodeFrame_message
    {first : String} {rest : List UInt8} {d : Decoder}
    (h : decodeFrame maxLen first rest = (.message text, d)) :
    d.phase = .contentLength ∧ d.rest.length ≤ rest.length := by
  rcases decodeFrame_cases maxLen first rest with
    hleft | ⟨-, hleft⟩ | ⟨n, body, -, hskip, -, hleft⟩
  · rw [hleft] at h
    cases h
  · rw [hleft] at h
    cases h
  · have hlt := length_of_skipHeaders hskip
    rw [hleft] at h
    obtain rfl := congrArg Prod.snd h
    refine ⟨rfl, ?_⟩
    simp only [List.length_drop]
    omega

theorem decodeUndecided_message
    {rest : List UInt8} {d : Decoder}
    (h : decodeUndecided maxLen rest = (.message text, d)) :
    (d.phase = .newline ∨ d.phase = .contentLength) ∧ d.rest.length < rest.length := by
  induction rest using decodeUndecided.induct maxLen with
  | case1 =>
      rw [decodeUndecided, dif_pos rfl] at h
      cases h
  | case2 rest hne hlong =>
      rw [decodeUndecided, dif_neg hne, if_pos hlong] at h
      cases h
  | case3 rest hne hfits hnone =>
      rw [decodeUndecided, dif_neg hne, if_neg hfits, hnone] at h
      cases h
  | case4 rest hne hfits line hsome hblank ih =>
      rw [decodeUndecided, dif_neg hne, if_neg hfits, hsome] at h
      simp only [if_pos hblank] at h
      obtain ⟨hphase, hlt⟩ := ih h
      exact ⟨hphase, Nat.lt_trans hlt (splitLine_snd_length_lt hne)⟩
  | case5 rest hne hfits line hsome hblank hheader =>
      rw [decodeUndecided, dif_neg hne, if_neg hfits, hsome] at h
      simp only [if_neg hblank, if_pos hheader] at h
      obtain ⟨hphase, hle⟩ := decodeFrame_message h
      exact ⟨Or.inr hphase, Nat.lt_of_le_of_lt hle (splitLine_snd_length_lt hne)⟩
  | case6 rest hne hfits line hsome hblank hheader =>
      rw [decodeUndecided, dif_neg hne, if_neg hfits, hsome] at h
      simp only [if_neg hblank, if_neg hheader] at h
      cases h
      exact ⟨Or.inl rfl, splitLine_snd_length_lt hne⟩

/-- A message settles the framing and takes something from the stream. -/
theorem decode_message
    {d d' : Decoder} (h : decode maxLen d = (.message text, d')) :
    (d'.phase = .newline ∨ d'.phase = .contentLength) ∧ d'.rest.length < d.rest.length := by
  obtain ⟨phase, rest⟩ := d
  cases phase with
  | undecided =>
      exact decodeUndecided_message h
  | newline =>
      simp only [decode, decodeNewline] at h
      split at h
      · cases h
      · rename_i hne
        split at h
        · cases h
        · split at h
          · cases h
          · cases h
            exact ⟨Or.inl rfl, splitLine_snd_length_lt hne⟩
  | contentLength =>
      simp only [decode, decodeContentLength] at h
      split at h
      · cases h
      · rename_i hne
        split at h
        · cases h
        · split at h
          · cases h
          · obtain ⟨hphase, hle⟩ := decodeFrame_message h
            exact ⟨Or.inr hphase, Nat.lt_of_le_of_lt hle (splitLine_snd_length_lt hne)⟩
  | refused =>
      cases h

end Progress

section Messages

/-- The transport reads these messages, then fails with `err`. -/
inductive ReadsUntil : FramedTransport Reader → List String → Error →
    FramedTransport Reader → Prop
  | stop {t u err} (hread : readMessage t = (.err err, u)) : ReadsUntil t [] err u
  | message {t t' u raw messages err} (hread : readMessage t = (.ok raw, t'))
      (hrest : ReadsUntil t' messages err u) : ReadsUntil t (raw :: messages) err u

variable {t t' u : FramedTransport Reader} {messages : List String} {err : Error}

theorem ReadsUntil.framing
    (h : ReadsUntil t messages err u) (hsettled : t.framing ≠ .auto) :
    u.framing = t.framing := by
  induction h with
  | @stop t u err hread =>
      have hkept := kept_readMessage t
      rw [hread] at hkept
      exact hkept.framing hsettled
  | @message t t' u raw messages err hread _ ih =>
      have hkept := kept_readMessage t
      rw [hread] at hkept
      have hframing := hkept.framing hsettled
      rw [← hframing]
      exact ih (by rw [hframing]; exact hsettled)

variable {maxLen : Usize} {d : Decoder}

/-- A transport that reads a message tracks a decoder that decodes it. -/
theorem decode_of_read
    (htracks : Tracks maxLen (t.mapReader Reader.unchunked) d) (hcap : maxLen.val < usizeMax)
    {raw : String} (hread : readMessage t = (.ok raw, t')) :
    decode maxLen d = (.message raw, (decode maxLen d).2) ∧
    Tracks maxLen (t'.mapReader Reader.unchunked) (decode maxLen d).2 := by
  have hanswers := readMessage_tracks htracks hcap
  rw [readMessage_unchunked, hread] at hanswers
  refine ⟨Prod.ext ?_ rfl, hanswers.tracks⟩
  exact (Option.some.inj hanswers.same).symm

/-- After a message the framing is settled. -/
theorem framing_of_read
    (htracks : Tracks maxLen (t.mapReader Reader.unchunked) d) (hcap : maxLen.val < usizeMax)
    {raw : String} (hread : readMessage t = (.ok raw, t')) :
    t'.framing ≠ .auto := by
  obtain ⟨hdecode, htracks'⟩ := decode_of_read htracks hcap hread
  obtain ⟨hphase, -⟩ := decode_message hdecode
  generalize decode maxLen d = left at htracks' hphase
  obtain ⟨_, d'⟩ := left
  simp only at htracks' hphase
  cases htracks' with
  | refused hdesync =>
      simp at hphase
  | @synced phase framing rest hframing hat =>
      have hsame : t'.framing = framing := hat.framing
      rw [hsame]
      rcases hphase with h | h
      · simp only at h
        subst h
        cases hframing
        simp
      · simp only at h
        subst h
        cases hframing
        simp

/-- A stream that ends is read to an error. -/
theorem exists_readsUntil
    (htracks : Tracks maxLen (t.mapReader Reader.unchunked) d) (hcap : maxLen.val < usizeMax) :
    ∃ messages err u, ReadsUntil t messages err u ∧ messages.length ≤ d.rest.length := by
  generalize hlen : d.rest.length = n
  induction n using Nat.strong_induction_on generalizing t d with
  | _ n ih =>
      rcases hread : readMessage t with ⟨raw | err | _, t'⟩
      · obtain ⟨hdecode, htracks'⟩ := decode_of_read htracks hcap hread
        obtain ⟨-, hlt⟩ := decode_message hdecode
        obtain ⟨messages, err, u, hreads, hle⟩ :=
          ih _ (by rw [← hlen]; exact hlt) htracks' rfl
        refine ⟨raw :: messages, err, u, .message hread hreads, ?_⟩
        rw [List.length_cons]
        omega
      · exact ⟨[], err, t', .stop hread, by simp⟩
      · have hanswers := readMessage_tracks htracks hcap
        rw [readMessage_unchunked, hread] at hanswers
        cases hanswers.same

end Messages

end Transport

namespace Runner

open Transport Server

variable {σ : Type} (serde : SerdeJson) (crates : Externals) (core : ServerCore σ)

section Replies

/-- What the pump relies on when it serialises: that succeeds, and gives text
without line ends, which for an object starts with its brace. -/
structure CompactJson (serde : SerdeJson) : Prop where
  succeeds : ∀ value, ∃ text, serde.toString value = .ok text
  oneLine : ∀ value text, serde.toString value = .ok text →
    '\n' ∉ text.toList ∧ '\r' ∉ text.toList
  braced : ∀ value text, value.isObject = true → serde.toString value = .ok text →
    text.toList.head? = some '{'

/-- The text of a value. -/
def textOf (value : Value) : String :=
  (serde.toString value).toOption.getD ""

/-- What a message that was read comes to: the values to send, and the session
and the world after it. -/
def reply (raw : String) (s : Session × World σ) : List Value × Session × World σ :=
  if Text.trim raw = "" then ([], s)
  else
    match serde.fromStr raw with
    | .error e => ([refused (-32700) s!"parse error: {e}" .null], s)
    | .ok value =>
        let (dispatch, s) := handleMessage crates core value s.1 s.2
        (dispatch.response.toList ++ dispatch.notifications, s)

/-- The last thing to send, when reading stopped with `err`. -/
def farewell : Error → List Value
  | .transport (.invalidMessage reason) => [refused (-32700) s!"framing error: {reason}" .null]
  | _ => []

/-- What a pump sends for these messages and the error after them. -/
def replies (messages : List String) (err : Error) (s : Session × World σ) : List Value :=
  (Mealy.run (reply serde crates core) messages s).1.flatten ++ farewell err

/-- What a pump returns when reading stopped with `err`. -/
def stopped (err : Error) : Transport.Outcome Unit :=
  if isConnectionClosed err then .ok () else .err err

theorem parseErrorResponse_eq (e : String) :
    parseErrorResponse e = refused (-32700) s!"parse error: {e}" .null :=
  errorResponse_eq_refused none _ _

theorem framingErrorResponse_eq (reason : String) :
    framingErrorResponse reason = refused (-32700) s!"framing error: {reason}" .null :=
  errorResponse_eq_refused none _ _

end Replies

section Sent

variable {serde} {R : Type} {t : FramedTransport R}

/-- The transport after these values were sent over it. -/
def sent (serde : SerdeJson) (values : List Value) (t : FramedTransport R) :
    FramedTransport R :=
  { t with writer :=
      ⟨t.writer.written ++ values.flatMap fun value => encode t.framing (textOf serde value), []⟩ }

@[simp] theorem sent_faults (values : List Value) :
    (sent serde values t).writer.faults = [] := by
  rfl

theorem sent_nil (h : t.writer.faults = []) :
    sent serde [] t = t := by
  obtain ⟨reader, ⟨written, faults⟩, framing, maxLen, desync⟩ := t
  simp only at h
  subst h
  simp [sent]

theorem sent_append (values values' : List Value) :
    sent serde values' (sent serde values t) = sent serde (values ++ values') t := by
  simp [sent]

theorem textOf_eq (hserde : CompactJson serde) (value : Value) :
    serde.toString value = .ok (textOf serde value) := by
  obtain ⟨text, htext⟩ := hserde.succeeds value
  simp [textOf, htext, Except.toOption]

theorem send_eq (hserde : CompactJson serde) (h : t.writer.faults = []) (value : Value) :
    send serde value t = (.ok (), sent serde [value] t) := by
  obtain ⟨text, htext⟩ := hserde.succeeds value
  simp only [send, htext, writeMessage_reliable h]
  simp [sent, textOf, htext, Except.toOption]

theorem sendAll_eq (hserde : CompactJson serde) (h : t.writer.faults = [])
    (values : List Value) :
    sendAll serde values t = (.ok (), sent serde values t) := by
  induction values generalizing t with
  | nil =>
      rw [sent_nil h]
      rfl
  | cons value values ih =>
      simp only [sendAll, send_eq hserde h, andThen]
      rw [ih (sent_faults _), sent_append]
      rfl

theorem sendDispatch_eq (hserde : CompactJson serde) (h : t.writer.faults = [])
    (dispatch : Dispatch) :
    sendDispatch serde dispatch t =
      (.ok (), sent serde (dispatch.response.toList ++ dispatch.notifications) t) := by
  unfold sendDispatch
  cases dispatch.response with
  | none =>
      simp only [andThen, Option.toList_none, List.nil_append]
      exact sendAll_eq hserde h _
  | some response =>
      simp only [send_eq hserde h, andThen, Option.toList_some]
      rw [sendAll_eq hserde (sent_faults _), sent_append]

theorem tellPeer_invalidMessage (serde : SerdeJson) (reason : String) (t : FramedTransport R) :
    tellPeer serde (.transport (.invalidMessage reason)) t =
      (send serde (framingErrorResponse reason) t).2 := by
  simp only [tellPeer, send]
  cases serde.toString (framingErrorResponse reason) with
  | ok text => rfl
  | error msg => rfl

theorem tellPeer_eq (hserde : CompactJson serde) (h : t.writer.faults = []) (err : Error) :
    tellPeer serde err t = sent serde (farewell err) t := by
  cases err with
  | transport err =>
      cases err with
      | invalidMessage reason =>
          rw [tellPeer_invalidMessage, framingErrorResponse_eq, send_eq hserde h]
          rfl
      | _ =>
          exact (sent_nil h).symm
  | _ =>
      exact (sent_nil h).symm

end Sent

section Run

variable {serde} {t u : FramedTransport Reader} {session : Session} {world : World σ}

/-- One iteration that reads a message. -/
theorem pumpBody_message (hserde : CompactJson serde) (h : t.writer.faults = [])
    {c : Connection Reader σ} {raw : String} (hread : readMessage c.transport = (.ok raw, t)) :
    pumpBody serde crates core c =
      .next ⟨sent serde (reply serde crates core raw (c.session, c.world)).1 t,
        (reply serde crates core raw (c.session, c.world)).2.1,
        (reply serde crates core raw (c.session, c.world)).2.2⟩ := by
  simp only [pumpBody, hread, reply, answer]
  by_cases hblank : Text.trim raw = ""
  · simp only [if_pos hblank, sent_nil h]
  · simp only [if_neg hblank]
    cases serde.fromStr raw with
    | error e =>
        simp only [parseErrorResponse_eq, send_eq hserde h]
    | ok value =>
        simp only [sendDispatch_eq hserde h]

/-- The iteration in which reading stops. -/
theorem pumpBody_stop (hserde : CompactJson serde) (h : t.writer.faults = [])
    {c : Connection Reader σ} {err : Error} (hread : readMessage c.transport = (.err err, t)) :
    pumpBody serde crates core c =
      .leave (stopped err, { c with transport := sent serde (farewell err) t }) := by
  simp only [pumpBody, hread, stopped, tellPeer_eq hserde h]
  by_cases hclosed : isConnectionClosed err = true
  · have hquiet : farewell err = [] := by
      unfold isConnectionClosed at hclosed
      split at hclosed
      · rfl
      · cases hclosed
    simp only [if_pos hclosed, hquiet, sent_nil h]
  · simp only [if_neg hclosed]

/-- A pump over a stream that is read to an error: what it comes to in the end. -/
theorem run_pumpBody
    {maxLen : Text.Usize} (hcap : maxLen.val < Text.usizeMax) (hserde : CompactJson serde)
    {messages : List String} {err : Error} (hreads : ReadsUntil t messages err u)
    {d : Decoder} (htracks : Tracks maxLen (t.mapReader Reader.unchunked) d)
    (writer : Writer) (hwriter : writer.faults = []) (session : Session) (world : World σ)
    {n : Nat} (hn : messages.length < n) :
    Loop.run (pumpBody serde crates core) n ⟨{ t with writer }, session, world⟩ =
      some (stopped err,
        ⟨sent serde (replies serde crates core messages err (session, world)) { u with writer },
          (Mealy.run (reply serde crates core) messages (session, world)).2.1,
          (Mealy.run (reply serde crates core) messages (session, world)).2.2⟩) := by
  induction hreads generalizing d writer session world n with
  | @stop t u err hread =>
      obtain ⟨n, rfl⟩ : ∃ k, n = k + 1 := ⟨n - 1, by omega⟩
      have hread' : readMessage { t with writer } = (.err err, { u with writer }) := by
        rw [readMessage_writer, hread]
      exact Loop.run_succ_of_leave n (pumpBody_stop crates core hserde hwriter hread')
  | @message t t' u raw messages err hread hrest ih =>
      obtain ⟨n, rfl⟩ : ∃ k, n = k + 1 := ⟨n - 1, by omega⟩
      have hread' : readMessage { t with writer } = (.ok raw, { t' with writer }) := by
        rw [readMessage_writer, hread]
      have hframing := hrest.framing (framing_of_read htracks hcap hread)
      rw [Loop.run_succ_of_next n (pumpBody_message crates core hserde hwriter hread')]
      generalize hreply : reply serde crates core raw (session, world) = answered
      obtain ⟨values, session', world'⟩ := answered
      rw [List.length_cons] at hn
      have hrun := ih (decode_of_read htracks hcap hread).2
        (sent serde values { t' with writer }).writer rfl session' world' (n := n) (by omega)
      refine hrun.trans ?_
      have hwriters : { u with writer := (sent serde values { t' with writer }).writer } =
          sent serde values { u with writer } := by
        simp only [sent, hframing]
      rw [hwriters, sent_append]
      simp only [replies, Mealy.run, hreply, List.flatten_cons, List.append_assoc]

theorem pump_eq_of_run
    {c : Connection Reader σ} {left : Transport.Outcome Unit × Connection Reader σ}
    (h : Loop.run (pumpBody serde crates core) (fuel c.transport) c = some left) :
    pump serde crates core c = left := by
  simp only [pump, h]

end Run

section EndToEnd

/-- Everything a message comes to is an object. -/
theorem isObject_of_reply (raw : String) (s : Session × World σ) :
    ∀ value ∈ (reply serde crates core raw s).1, value.isObject = true := by
  unfold reply
  split
  · simp
  · split
    · simp [refused, Value.isObject]
    · rename_i message _
      obtain ⟨hdispatch, -, -⟩ := handleMessage_spec crates core message s.1 s.2
      intro value hmem
      simp only [hdispatch] at hmem
      rcases List.mem_append.mp hmem with hmem | hmem
      · exact (respondsTo_finish (Option.mem_toList.mp hmem)).2.isObject
      · rw [show ((Request.of message).dispatch core s.1.initialized s.2.service
          (message.get "id")).notifications = _ from
          (notifications_outcome (List.ne_nil_of_mem hmem)).1] at hmem
        cases List.mem_singleton.mp hmem
        rfl

theorem isObject_of_replies (messages : List String) (err : Error) (s : Session × World σ) :
    ∀ value ∈ replies serde crates core messages err s, value.isObject = true := by
  have houtputs := Mealy.run_outputs (reply serde crates core) (fun _ => True)
    (fun values => ∀ value ∈ values, value.isObject = true)
    (fun raw s _ => ⟨trivial, isObject_of_reply serde crates core raw s⟩) messages (s := s)
    trivial
  intro value hmem
  rcases List.mem_append.mp hmem with hmem | hmem
  · obtain ⟨values, hvalues, hmem⟩ := List.mem_flatten.mp hmem
    exact houtputs values hvalues value hmem
  · unfold farewell at hmem
    split at hmem
    · cases List.mem_singleton.mp hmem
      rfl
    · simp at hmem

/-- Compact texts of objects are lines that open no frame. -/
theorem isLineText_textOf (hserde : CompactJson serde) {value : Value}
    (hobject : value.isObject = true) :
    IsLineText (textOf serde value) ∧
    (∃ c ∈ (textOf serde value).toList, Text.isWhitespace c = false) ∧
    contentLengthValue (textOf serde value) = none := by
  obtain ⟨text, htext⟩ := hserde.succeeds value
  have hsame : textOf serde value = text := by
    simp [textOf, htext, Except.toOption]
  obtain ⟨hlf, hcr⟩ := hserde.oneLine value text htext
  have hbrace := hserde.braced value text hobject htext
  rw [hsame]
  refine ⟨⟨hlf, fun hlast => hcr (List.mem_of_getLast? hlast)⟩, ⟨'{', ?_, by decide⟩,
    contentLengthValue_of_brace hbrace⟩
  exact List.mem_of_head? hbrace

/-- What a pump did, given the messages its transport reads, the error after them
and the texts to send. -/
structure Pumped (c : Connection Reader σ) (messages : List String) (err : Error)
    (u : FramedTransport Reader) (texts : List String)
    (left : Transport.Outcome Unit × Connection Reader σ) : Prop where
  /-- The transport on its own reads these messages, then fails. -/
  readsMessages : ReadsUntil c.transport messages err u
  /-- `Ok` when the connection was closed, else the very error. -/
  returns : left.1 = if isConnectionClosed err then .ok () else .err err
  /-- The texts are those of what the messages and the error come to; a message that is no
  JSON and a framing violation come to a refusal with -32700 and a null id. -/
  serialised : (replies serde crates core messages err (c.session, c.world)).map serde.toString =
    texts.map .ok
  /-- They were sent in one framing, the one that was detected. -/
  writes : left.2.transport.writer.written = texts.flatMap (encode u.framing)
  /-- A fresh transport with a large enough cap reads them back. -/
  readBack : ∀ (cap : Text.Usize) (writer : Writer) (chunks : List Chunk),
    cap.val < Text.usizeMax → 20 ≤ cap.val →
    (∀ text ∈ texts, (Text.asBytes text).length + 1 ≤ cap.val) →
    chunks.flatMap Subtype.val = left.2.transport.writer.written →
    (reads (texts.length + 1) (overChunks cap writer chunks)).1 =
      texts.map .ok ++ [.err (.transport .connectionClosed)]

/--
Pump end to end: whatever the bytes and the chunks they arrive in, whatever the
service and the session, the pump reads what its transport reads on its own, and
writes in the framing that was detected what these messages come to in turn; a
fresh transport with a large enough cap reads exactly these texts back.
-/
theorem pump_end_to_end
    (hserde : CompactJson serde) (maxLen : Text.Usize) (hcap : maxLen.val < Text.usizeMax)
    (chunks : List Chunk) (session : Session) (world : World σ) :
    ∃ messages err u texts,
      Pumped serde crates core ⟨overChunks maxLen .reliable chunks, session, world⟩
        messages err u texts
        (pump serde crates core ⟨overChunks maxLen .reliable chunks, session, world⟩) := by
  have htracks := tracks_overChunks maxLen .reliable chunks
  obtain ⟨messages, err, u, hreads, hle⟩ := exists_readsUntil htracks hcap
  have hsize : messages.length < fuel (overChunks maxLen .reliable chunks) := by
    have hitems := congrArg List.length (at_overChunks maxLen .reliable chunks).items
    rw [List.length_map] at hitems
    exact Nat.lt_succ_of_le (hle.trans (le_of_eq hitems.symm))
  have hrun := run_pumpBody crates core hcap hserde hreads htracks .reliable rfl session world hsize
  have hpump :
      pump serde crates core ⟨overChunks maxLen .reliable chunks, session, world⟩ = _ :=
    pump_eq_of_run crates core hrun
  have hobjects := isObject_of_replies serde crates core messages err (session, world)
  generalize hvalues : replies serde crates core messages err (session, world) = values
    at hpump hobjects
  rw [hpump]
  have hwritten : (sent serde values { u with writer := .reliable }).writer.written =
      (values.map (textOf serde)).flatMap (encode u.framing) := by
    simp only [sent, Writer.reliable, List.nil_append, List.flatMap_map]
  refine ⟨messages, err, u, values.map (textOf serde), hreads, rfl, ?_, hwritten, ?_⟩
  · simp only [hvalues, List.map_map]
    exact List.map_congr_left fun value _ => (textOf_eq hserde value)
  · intro cap writer chunks' hcap' h20 hfits hchunks
    rw [hwritten] at hchunks
    have hlines : ∀ text ∈ values.map (textOf serde), IsLineText text ∧
        (∃ c ∈ text.toList, Text.isWhitespace c = false) ∧
        contentLengthValue text = none := by
      intro text hmem
      obtain ⟨value, hvalue, rfl⟩ := List.mem_map.mp hmem
      exact isLineText_textOf serde hserde (hobjects value hvalue)
    by_cases hframing : u.framing = .contentLength
    · rw [hframing] at hchunks
      refine reads_frames hcap' writer hchunks fun text hmem => ?_
      have hlen : (Text.asBytes text).length ≤ cap.val := by
        have := hfits text hmem
        omega
      exact ⟨hlen, length_headerLine_le h20 hlen⟩
    · rw [encode_of_ne hframing] at hchunks
      exact reads_lines hcap' writer hchunks
        (fun text hmem => ⟨(hlines text hmem).1, hfits text hmem⟩)
        (fun text hmem => (hlines text (List.mem_of_mem_head? hmem)).2)

mutual

/-- The compact JSON of values whose strings need no escapes. -/
def plainText : Value → String
  | .null => "null"
  | .bool b => if b then "true" else "false"
  | .number (.int n) => toString n
  | .number (.float _) => "0.0"
  | .string s => "\"" ++ s ++ "\""
  | .array elements => "[" ++ plainElements elements ++ "]"
  | .object members => "\x7b" ++ plainMembers members ++ "\x7d"

def plainElements : List Value → String
  | [] => ""
  | [v] => plainText v
  | v :: w :: vs => plainText v ++ "," ++ plainElements (w :: vs)

def plainMembers : List (String × Value) → String
  | [] => ""
  | [(k, v)] => "\"" ++ k ++ "\":" ++ plainText v
  | (k, v) :: m :: ms => "\"" ++ k ++ "\":" ++ plainText v ++ "," ++ plainMembers (m :: ms)

end

/-- A `serde_json` that knows one text, and prints without escapes. -/
def plainJson (text : String) (value : Value) : SerdeJson where
  fromStr raw := if raw = text then .ok value else .error "expected ident at line 1 column 2"
  toString v := .ok (String.ofList ((plainText v).toList.filter fun c => c != '\n' && c != '\r'))

theorem compactJson_plainJson (text : String) (value : Value) :
    CompactJson (plainJson text value) where
  succeeds _ := ⟨_, rfl⟩
  oneLine v text htext := by
    cases htext
    simp
  braced v text hobject htext := by
    cases htext
    cases v with
    | object members =>
        simp [plainText]
    | _ =>
        cases hobject

/-- A ping and a line that is no JSON, read and answered in one chunk each; and a ping
after which the framing is violated. -/
theorem pump_end_to_end_of_ping :
    let ping := "\x7b\"id\":7,\"method\":\"ping\"\x7d"
    let serde := plainJson ping
      (.object [("id", .number (.int 7)), ("method", .string "ping")])
    let crates : Externals :=
      { display := fun _ => "7", safeName := id, safeMessage := id,
        extractTraceparent := fun _ => .error "", setParent := fun _ => none }
    let core : ServerCore Unit :=
      { config := .new "server" "1.0",
        service :=
          { tools := fun s => ([], s), callTool := fun _ _ s => (.ok (.text ""), s),
            shutdown := id } }
    let c : Connection Reader Unit :=
      ⟨overChunks 64 .reliable
        [⟨Text.asBytes (ping ++ "\n"), by decide⟩, ⟨Text.asBytes "nope\n", by decide⟩],
        .new, ⟨(), [], []⟩⟩
    let violating : Connection Reader Unit :=
      ⟨overChunks 64 .reliable
        [⟨Text.asBytes ("Content-Length: 24\r\n\r\n" ++ ping), by decide⟩,
          ⟨Text.asBytes "Content-Length: no\r\n", by decide⟩],
        .new, ⟨(), [], []⟩⟩
    let pong := "\x7b\"id\":7,\"jsonrpc\":\"2.0\",\"result\":\x7b\x7d\x7d"
    let reason := "Content-Length value no is not a byte count"
    (∃ messages err u texts,
      Pumped serde crates core c messages err u texts (pump serde crates core c)) ∧
    (pump serde crates core c).1 = .ok () ∧
    (pump serde crates core c).2.transport.writer.written =
      Text.asBytes (pong ++ "\n" ++
        "\x7b\"error\":\x7b\"code\":-32700,\"message\":" ++
        "\"parse error: expected ident at line 1 column 2\"\x7d," ++
        "\"id\":null,\"jsonrpc\":\"2.0\"\x7d\n") ∧
    (∃ messages err u texts,
      Pumped serde crates core violating messages err u texts
        (pump serde crates core violating)) ∧
    (pump serde crates core violating).1 = .err (.transport (.invalidMessage reason)) ∧
    (pump serde crates core violating).2.transport.writer.written =
      Text.asBytes ("Content-Length: 36\r\n\r\n" ++ pong ++ "Content-Length: 122\r\n\r\n" ++
        "\x7b\"error\":\x7b\"code\":-32700,\"message\":\"framing error: " ++ reason ++ "\"\x7d," ++
        "\"id\":null,\"jsonrpc\":\"2.0\"\x7d") := by
  intro ping serde crates core c violating pong reason
  have hserde : CompactJson serde :=
    compactJson_plainJson _ _
  refine ⟨pump_end_to_end serde crates core hserde 64 (by decide) _ _ _, ?_, ?_,
    pump_end_to_end serde crates core hserde 64 (by decide) _ _ _, ?_, ?_⟩
  · decide
  · decide +kernel
  · decide
  · decide +kernel

end EndToEnd

end Runner
end McpCore
