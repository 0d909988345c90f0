import McpCore.Recovery

/-!
# Streams that arrive while they are read

A peer sends what it likes when it likes, and the transport reads what has arrived.  A
read that has to wait takes up again when there is more, and comes to what it would have
come to if the whole stream had been there; so what is read of a stream does not depend
on when it arrives (`readMessage_onto`).  A text is read as soon as its frame or its line
is there whole, without a look at what comes after it (`readMessage_returns`).
-/

namespace McpCore

/-- Something more of a stream. -/
inductive Incoming where
  | event (event : Event)
  | hangUp
deriving DecidableEq

/-- What has arrived is there to be read; after the end nothing arrives. -/
def Reader.receive (incoming : Incoming) (r : Reader) : Reader :=
  if r.closed then r
  else
    match incoming with
    | .event event => { r with events := r.events ++ [event] }
    | .hangUp => { r with closed := true }

/-- The stream, if these bytes and then its end are to follow. -/
def Stream.onto (more : List UInt8) (s : Stream) : Stream :=
  if s.closed then s
  else { s with items := s.items ++ more.map .byte, closed := true }

namespace Transport

open Text

section Onto

variable (more : List UInt8)

theorem onto_of_closed {s : Stream} (h : s.closed = true) :
    s.onto more = s := by
  simp [Stream.onto, h]

theorem onto_of_open {s : Stream} (h : s.closed = false) :
    s.onto more = ⟨s.items ++ more.map .byte, true, s.consumed⟩ := by
  simp [Stream.onto, h]

/-- An open stream, and what it is if more is to follow. -/
def Goes (s s' : Stream) : Prop :=
  s.closed = false ∧ s' = s.onto more

variable {more}

/-- A line is what it is if more follows, unless its end is still to come. -/
theorem collectLine_goes {t u : FramedTransport Stream} (h : Alike (Goes more) Eq t u) :
    Agree True (Goes more) Eq (LineReader.collectLine t) (LineReader.collectLine u) := by
  cases h with
  | @mk s s' writer writer' h hw framing maxLen desync =>
      subst hw
      obtain ⟨hopen, rfl⟩ := h
      rw [onto_of_open more hopen]
      by_cases hspin : maxLen.val = usizeMax ∧ startsWithByte s.items = true
      · simp only [LineReader.collectLine, if_pos hspin]
        exact .waiting trivial
      · by_cases hnil : s.items = []
        · have hwait : LineReader.collectLine
              (⟨s, writer, framing, maxLen, desync⟩ : FramedTransport Stream) =
                (.running, advance ⟨s, writer, framing, maxLen, desync⟩ [] []) := by
            simp [LineReader.collectLine, hnil, startsWithByte, lineOutcome, scanLine,
              lineEndOutcome, hopen]
          rw [hwait]
          exact .waiting trivial
        · have hspin' : ¬ (maxLen.val = usizeMax ∧
              startsWithByte (s.items ++ more.map .byte) = true) := by
            rw [startsWithByte_append _ hnil]
            exact hspin
          simp only [LineReader.collectLine, if_neg hspin, if_neg hspin', lineOutcome,
            List.length_nil, hopen]
          rcases scanLine_extend maxLen true 0 s.items (more.map .byte) with
            hwait | ⟨hscan, heof⟩
          · rw [hwait]
            exact .waiting trivial
          · rw [hscan]
            generalize scanLine maxLen false 0 s.items = scan at heof
            obtain ⟨lineEnd, taken, items⟩ := scan
            have hleft : Alike (Goes more) Eq
                (advance ⟨s, writer, framing, maxLen, desync⟩ taken items)
                (advance ⟨⟨s.items ++ more.map .byte, true, s.consumed⟩, writer, framing,
                  maxLen, desync⟩ taken (items ++ more.map .byte)) :=
              .mk ⟨hopen, by rw [onto_of_open more (by exact hopen)]⟩ rfl ..
            cases lineEnd with
            | newline =>
                exact .same hleft
            | eof =>
                exact absurd rfl heof
            | overlong =>
                exact desyncError_agree hleft _
            | failed err =>
                exact .same hleft
            | waiting =>
                exact .waiting trivial

theorem respects_goes : Respects True (Goes more) Eq where
  line := collectLine_goes
  body := by
    rintro s _ ⟨hopen, rfl⟩ n
    rw [onto_of_open more hopen]
    simp only [LineReader.collectBody, hopen]
    rcases scanBody_extend true n s.items (more.map .byte) with hwait | hscan
    · exact .inl ⟨trivial, hwait⟩
    · exact .inr ⟨_, _, _, _, rfl, by rw [hscan], rfl, (onto_of_open more rfl).symm⟩
  size := by
    rintro s _ ⟨hopen, rfl⟩
    refine .inr ⟨trivial, ?_⟩
    rw [onto_of_open more hopen]
    simp only [LineReader.size, List.length_append]
    omega

variable (more)

/-- A read waits, or comes to what it comes to if more follows. -/
theorem readMessage_onto (t : FramedTransport Stream) :
    (readMessage t).1 = .running ∨
    readMessage (t.mapReader (Stream.onto more)) = through (Stream.onto more) (readMessage t) := by
  cases hclosed : t.reader.closed with
  | true =>
      have hkept := (closed_readMessage t).trans hclosed
      have hsame : ∀ u : FramedTransport Stream, u.reader.closed = true →
          u.mapReader (Stream.onto more) = u := by
        intro u hu
        simp only [FramedTransport.mapReader, onto_of_closed more hu]
      right
      rw [hsame t hclosed, through, hsame _ hkept]
  | false =>
      have halike : Alike (Goes more) Eq t (t.mapReader (Stream.onto more)) := by
        obtain ⟨s, writer, framing, maxLen, desync⟩ := t
        exact .mk ⟨hclosed, rfl⟩ rfl ..
      have hagree := readMessage_agree respects_goes halike
      generalize readMessage (t.mapReader (Stream.onto more)) = call' at hagree
      generalize readMessage t = call at hagree
      cases hagree with
      | same h =>
          right
          cases h with
          | mk h hw =>
              obtain ⟨-, rfl⟩ := h
              subst hw
              rfl
      | waiting h =>
          exact .inl rfl

end Onto

section Receive

/-- What has arrived is what was to follow. -/
theorem receive_event_onto (r : Reader) (hopen : r.closed = false) {event : Event}
    {bytes : List UInt8} (hevent : event.items = bytes.map .byte) (more : List UInt8) :
    (r.receive (.event event)).unchunked.onto more = r.unchunked.onto (bytes ++ more) := by
  simp [Reader.receive, Reader.unchunked, Reader.items, Stream.onto, hopen, hevent]

theorem receive_hangUp_onto (r : Reader) (hopen : r.closed = false) (more : List UInt8) :
    (r.receive .hangUp).unchunked.onto more = r.unchunked.onto [] := by
  simp [Reader.receive, Reader.unchunked, Reader.items, Stream.onto, hopen]

theorem receive_of_closed (incoming : Incoming) {r : Reader} (hclosed : r.closed = true) :
    r.receive incoming = r := by
  simp [Reader.receive, hclosed]

end Receive

section Whole

variable {maxLen : Usize} {rest : List UInt8} {t : FramedTransport Stream} {text : String}

/-- A frame that is there whole is not waited for. -/
theorem readContentLength_returns {first : String}
    (h : At maxLen .contentLength rest (t.mapReader Stream.closing)) (hcap : maxLen.val < usizeMax)
    (hdecode : (decodeFrame maxLen first rest).1 = .message text) (hne : text ≠ "") :
    (readContentLength first t).1 ≠ .running := by
  intro hwait
  rcases decodeFrame_cases maxLen first rest with
    hleft | ⟨-, hleft⟩ | ⟨n, body, hdeclared, hskip, hfull, hleft⟩
  · rw [hleft] at hdecode
    cases hdecode
  · rw [hleft] at hdecode
    cases hdecode
  · have hmax : t.maxLen = maxLen := h.cap
    have hlength := (@map_declaredLength_iff _ t first n).mpr (by rw [hmax]; exact hdeclared)
    rw [readContentLength_of_declared hlength] at hwait
    have hheaders := readHeaders_at h hcap
    rw [hskip] at hheaders
    rcases readHeaders_closing t with hrunning | hclosing
    · -- headers that wait are followed by nothing, and the text is not empty
      obtain rfl := readHeaders_waits h hcap hrunning hskip
      rw [hleft, List.take_nil] at hdecode
      have hempty : decodedText ([] : List UInt8) = .message "" := by
        rfl
      rw [hempty] at hdecode
      cases hdecode
      exact hne rfl
    · rw [hclosing] at hheaders
      generalize readHeaders t = call at hheaders hwait
      obtain ⟨outcome, u⟩ := call
      cases hheaders with
      | body hat =>
          have hitems : u.reader.items = body.map .byte := hat.items
          exact absurd (readFrameBody_waits hitems hwait) (Nat.not_lt.mpr hfull)

theorem readFrame_returns
    (h : At maxLen .contentLength rest (t.mapReader Stream.closing)) (hcap : maxLen.val < usizeMax)
    (hmem : lineFeed ∈ rest)
    (hdecode : (decodeContentLength maxLen rest).1 = .message text) (hne : text ≠ "") :
    (andThen (readFrameLine t) fun first u => readContentLength first u).1 ≠ .running := by
  have hnotMem := not_mem_of_readFrameLine_running h hcap
  have hline := readFrameLine_at h hcap
  have hclosing := readFrameLine_closing t
  generalize readFrameLine t = call at hnotMem hclosing
  obtain ⟨outcome, u⟩ := call
  cases outcome with
  | running =>
      exact absurd hmem (hnotMem rfl)
  | err err =>
      simp [andThen]
  | ok first =>
      rw [hclosing.resolve_left (by simp)] at hline
      obtain ⟨hrest, hfits, hsome, hat⟩ := FrameLineRead.of_ok hline
      simp only [decodeContentLength, if_neg hrest, if_neg hfits, hsome] at hdecode
      simp only [andThen]
      exact readContentLength_returns hat hcap hdecode hne

theorem readNewline_returns
    (h : At maxLen .newline rest (t.mapReader Stream.closing)) (hcap : maxLen.val < usizeMax)
    (hmem : lineFeed ∈ rest) :
    (readNewline t).1 ≠ .running := by
  have hcap' : t.maxLen.val < usizeMax := h.lt_usizeMax hcap
  have hitems : t.reader.items = rest.map .byte := h.items
  have hline : (readLine t).1 ≠ .running := by
    intro hwait
    exact ((readLine_running_iff hcap' hitems).mp hwait).2.1 hmem
  unfold readNewline
  generalize readLine t = call at hline
  obtain ⟨outcome, u⟩ := call
  cases outcome with
  | running =>
      exact absurd rfl hline
  | _ =>
      simp [andThen]

/-- A first line that is there whole settles the framing, and its text is not waited for. -/
theorem readAuto_returns
    (h : At maxLen .auto rest (t.mapReader Stream.closing)) (hcap : maxLen.val < usizeMax)
    (hmem : lineFeed ∈ rest)
    (hsolid : ∀ line, decodeUtf8 (splitLine rest).1 = some line →
      ¬ line.toList.all isWhitespace = true)
    (hdecode : (decodeUndecided maxLen rest).1 = .message text) (hne : text ≠ "") :
    (readAuto t).1 ≠ .running := by
  have hcap' : t.maxLen.val < usizeMax := h.lt_usizeMax hcap
  have hitems : t.reader.items = rest.map .byte := h.items
  have hwaits : (readLine t).1 ≠ .running := by
    intro hwait
    exact ((readLine_running_iff hcap' hitems).mp hwait).2.1 hmem
  have hbody : ∃ left, readAutoBody t = .leave left ∧ left.1 ≠ .running := by
    have hline := readLine_at h hcap
    have hclosing := readLine_closing t
    unfold readAutoBody
    generalize readLine t = call at hwaits hclosing
    obtain ⟨outcome, u⟩ := call
    cases outcome with
    | running =>
        exact absurd rfl hwaits
    | err err =>
        exact ⟨_, rfl, by simp⟩
    | ok first =>
        rw [hclosing.resolve_left (by simp)] at hline
        obtain ⟨hrest, hfits, hsome, hat⟩ := LineRead.of_ok hline
        have hspace := hsolid first hsome
        rw [decodeUndecided] at hdecode
        simp only [dif_neg hrest, if_neg hfits, hsome, if_neg hspace] at hdecode
        simp only [if_neg (mt (trim_trimCrlf_eq_empty_iff first).1 hspace),
          contentLengthValue_trimCrlf]
        by_cases hheader : (contentLengthValue first).isSome = true
        · have hat' : At maxLen .contentLength (splitLine rest).2
              (FramedTransport.mapReader Stream.closing { u with framing := .contentLength }) :=
            ⟨hat.cap, rfl, hat.sync, hat.closed, hat.items⟩
          simp only [if_pos hheader] at hdecode ⊢
          rw [← decodeFrame_trimCrlf] at hdecode
          exact ⟨_, rfl, readContentLength_returns hat' hcap hdecode hne⟩
        · simp only [if_neg hheader]
          exact ⟨_, rfl, by simp⟩
  obtain ⟨left, hleave, hreturns⟩ := hbody
  have hrun : Loop.run readAutoBody (fuel t) t = some left :=
    Loop.run_succ_of_leave _ hleave
  simp only [readAuto, hrun]
  exact hreturns

/-- A text that is there whole is read without waiting; blank lines before it aside. -/
theorem readMessage_returns {d : Decoder} (h : Tracks maxLen (t.mapReader Stream.closing) d)
    (hcap : maxLen.val < usizeMax) (hmem : lineFeed ∈ d.rest)
    (hsolid : ∀ line, decodeUtf8 (splitLine d.rest).1 = some line →
      ¬ line.toList.all isWhitespace = true)
    (hdecode : (decode maxLen d).1 = .message text) (hne : text ≠ "") :
    (readMessage t).1 ≠ .running := by
  generalize hu : t.mapReader Stream.closing = u at h
  cases h with
  | refused hdesync =>
      cases hdecode
  | @synced phase framing rest hphase hat =>
      subst hu
      have hsync : t.desync = none := hat.sync
      have hframing : t.framing = framing := hat.framing
      simp only [readMessage, hsync, hframing]
      cases phase with
      | undecided =>
          cases hphase
          exact readAuto_returns hat hcap hmem hsolid hdecode hne
      | newline =>
          cases hphase
          exact readNewline_returns hat hcap hmem
      | contentLength =>
          cases hphase
          exact readFrame_returns hat hcap hmem hdecode hne
      | refused =>
          cases hphase

end Whole

section Decodes

variable {maxLen : Nat}

theorem decodes_succ_last (n : Nat) (d : Decoder) :
    decodes maxLen (n + 1) d =
      ((decodes maxLen n d).1 ++ [(decode maxLen (decodes maxLen n d).2).1],
        (decode maxLen (decodes maxLen n d).2).2) := by
  rw [decodes, List.replicate_succ']
  exact Prod.ext (Mealy.run_append_fst ..) (Mealy.run_append_snd ..)

theorem decodes_add (a b : Nat) (d : Decoder) :
    decodes maxLen (a + b) d =
      ((decodes maxLen a d).1 ++ (decodes maxLen b (decodes maxLen a d).2).1,
        (decodes maxLen b (decodes maxLen a d).2).2) := by
  rw [decodes, List.replicate_add]
  exact Prod.ext (Mealy.run_append_fst ..) (Mealy.run_append_snd ..)

theorem length_decodes (n : Nat) (d : Decoder) :
    (decodes maxLen n d).1.length = n := by
  rw [decodes, Mealy.length_run_fst, List.length_replicate]

/-- A read of a decoder comes to what it decodes where the reads before it left it. -/
theorem getElem?_decodes (maxLen : Nat) {k n : Nat} (h : k < n) (d : Decoder) :
    (decodes maxLen n d).1[k]? = some (decode maxLen (decodes maxLen k d).2).1 := by
  obtain ⟨j, rfl⟩ := Nat.exists_eq_add_of_le h
  rw [Nat.succ_eq_add_one, decodes_add, decodes_succ_last, List.append_assoc,
    List.getElem?_append_right (by rw [length_decodes])]
  simp [length_decodes]

end Decodes

section Reads

variable {maxLen : Usize}

/-- A fresh transport over a stream of which these chunks have arrived. -/
def openOver (maxLen : Usize) (writer : Writer) (chunks : List Chunk) :
    FramedTransport Reader :=
  (overChunks maxLen writer chunks).mapReader fun reader => { reader with closed := false }

/-- A fresh transport is where a decoder is of what has arrived and what follows. -/
theorem tracks_openOver (maxLen : Usize) (writer : Writer) (chunks : List Chunk)
    (more : List UInt8) :
    Tracks maxLen
      (((openOver maxLen writer chunks).mapReader Reader.unchunked).mapReader (Stream.onto more))
      ⟨.undecided, chunks.flatMap Subtype.val ++ more⟩ := by
  refine .synced rfl ⟨rfl, rfl, rfl, rfl, ?_⟩
  simp only [openOver, FramedTransport.mapReader, Reader.unchunked, Reader.items, Stream.onto,
    List.map_append, List.map_flatMap]
  exact congrArg (· ++ more.map Item.byte) (List.flatMap_map ..)

/-- Where nothing follows a stream it just ends. -/
theorem onto_nil (t : FramedTransport Reader) :
    (t.mapReader Reader.unchunked).mapReader (Stream.onto []) = ended t := by
  cases hclosed : t.reader.closed with
  | true =>
      simp [ended, FramedTransport.mapReader, Reader.unchunked, Stream.onto, Stream.closing,
        hclosed]
  | false =>
      simp [ended, FramedTransport.mapReader, Reader.unchunked, Stream.onto, Stream.closing,
        hclosed]

/-- A read that returns is the decoder's, however the stream goes on. -/
theorem answers_onto (hcap : maxLen.val < usizeMax) {t u : FramedTransport Reader}
    {outcome : Outcome String} (hread : readMessage t = (outcome, u))
    (hreturns : outcome ≠ .running) {more : List UInt8} {d : Decoder}
    (h : Tracks maxLen ((t.mapReader Reader.unchunked).mapReader (Stream.onto more)) d) :
    variant outcome = some (decode maxLen.val d).1 ∧
    Tracks maxLen ((u.mapReader Reader.unchunked).mapReader (Stream.onto more))
      (decode maxLen.val d).2 := by
  have hanswers := readMessage_tracks h hcap
  have hread' := readMessage_unchunked t
  rw [hread] at hread'
  rcases readMessage_onto more (t.mapReader Reader.unchunked) with hwait | honto
  · rw [hread'] at hwait
    exact absurd hwait hreturns
  · rw [honto, hread'] at hanswers
    exact ⟨hanswers.same, hanswers.tracks⟩

/-- The error that reading came to, if it is one. -/
def errorOf : Outcome String → Option Error
  | .err err => some err
  | _ => none

/-- What is read of a stream is what a decoder decodes, however the stream goes on. -/
theorem ReadsTo.decoded (hcap : maxLen.val < usizeMax) {t u : FramedTransport Reader}
    {raws : List String} {outcome : Outcome String}
    (hreads : ReadsTo t raws outcome u) {more : List UInt8} {d : Decoder}
    (h : Tracks maxLen ((t.mapReader Reader.unchunked).mapReader (Stream.onto more)) d) :
    (decodes maxLen.val (raws.length + (errorOf outcome).toList.length) d).1.map some =
      raws.map (fun raw => some (.message raw)) ++
        (errorOf outcome).toList.map fun err => variant (.err err) := by
  induction hreads generalizing d with
  | @stop t outcome u hnone hread =>
      cases outcome with
      | ok raw =>
          exact absurd rfl (hnone raw)
      | err err =>
          obtain ⟨hvariant, -⟩ := answers_onto hcap hread (by simp) h
          simp [errorOf, decodes, hvariant]
      | running =>
          rfl
  | @message t t' u raw raws outcome hread hrest ih =>
      obtain ⟨hvariant, htracks⟩ := answers_onto hcap hread (by simp) h
      rw [List.length_cons, Nat.add_right_comm, decodes_succ, List.map_cons, ih htracks,
        ← hvariant]
      rfl

/-- Reading does not come to a message. -/
theorem ReadsTo.ne_ok {t u : FramedTransport Reader} {raws : List String}
    {outcome : Outcome String} (hreads : ReadsTo t raws outcome u) (raw : String) :
    outcome ≠ .ok raw := by
  induction hreads with
  | stop hnone hread =>
      exact hnone raw
  | message hread hrest ih =>
      exact ih

/-- Where reading waits, the next text has not arrived. -/
theorem ReadsTo.waits (hcap : maxLen.val < usizeMax) {t u : FramedTransport Reader}
    {raws : List String} (hreads : ReadsTo t raws .running u) {d : Decoder}
    (h : Tracks maxLen (ended t) d) {text : String}
    (hmem : Text.lineFeed ∈ (decodes maxLen.val raws.length d).2.rest)
    (hsolid : ∀ line,
      Text.decodeUtf8 (splitLine (decodes maxLen.val raws.length d).2.rest).1 =
        some line → ¬ line.toList.all Text.isWhitespace = true)
    (hdecode : (decode maxLen.val (decodes maxLen.val raws.length d).2).1 =
      .message text) :
    text = "" := by
  generalize hrunning : Outcome.running = outcome at hreads
  induction hreads generalizing d with
  | @stop t outcome u hnone hread =>
      subst hrunning
      by_contra hne
      have hreturns := readMessage_returns h hcap hmem hsolid hdecode hne
      rw [readMessage_unchunked, hread] at hreturns
      exact hreturns rfl
  | @message t t' u raw raws outcome hread hrest ih =>
      obtain ⟨hmessage, htracks⟩ := tracks_of_message h hcap hread
      have hleft : (decodes maxLen.val (raws.length + 1) d).2 =
          (decodes maxLen.val raws.length (decode maxLen.val d).2).2 := by
        rw [Nat.add_comm, decodes_add]
        rfl
      rw [List.length_cons, hleft] at hmem hsolid hdecode
      exact ih htracks hmem hsolid hdecode hrunning

end Reads

end Transport
end McpCore
