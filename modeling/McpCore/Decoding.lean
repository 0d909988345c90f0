import McpCore.ReferenceDecoder

/-!
# The transport decodes what the reference decoder decodes

A stream without failures is a byte sequence, and each operation of the
transport on it is one of the reference decoder: a line is `splitLine`, the
header loop is `skipHeaders`, a read is `decode`.  `Tracks` relates a transport
to the decoder it is level with; one read keeps them level and answers alike
(`readMessage_tracks`), and so does any number of reads.

`reads_eq_reference` is the result for chunked streams.
-/

namespace McpCore
namespace Transport

open Text

section Lines

variable {maxLen : Nat}

/-- A line that fits is scanned to its end. -/
theorem scanLine_bytes
    {bytes : List UInt8} (hne : bytes ≠ [])
    (seen : Nat) (hfits : seen + (splitLine bytes).1.length ≤ maxLen) :
    ∃ lineEnd, (lineEnd = .newline ∨ lineEnd = .eof) ∧
      scanLine maxLen true seen (bytes.map .byte) =
        (lineEnd, (splitLine bytes).1, (splitLine bytes).2.map .byte) := by
  induction bytes generalizing seen with
  | nil =>
      exact absurd rfl hne
  | cons b rest ih =>
      by_cases hb : b = lineFeed
      · exact ⟨.newline, Or.inl rfl, by simp [scanLine, splitLine, hb]⟩
      · simp only [splitLine, if_neg hb, List.length_cons] at hfits ⊢
        have hlen : ¬ maxLen < seen + 1 := by
          omega
        simp only [List.map_cons, scanLine, if_neg hb, if_neg hlen]
        by_cases hrest : rest = []
        · subst rest
          exact ⟨.eof, Or.inr rfl, rfl⟩
        · obtain ⟨lineEnd, hend, hscan⟩ := ih hrest (seen + 1) (by omega)
          exact ⟨lineEnd, hend, by rw [hscan]⟩

/-- A line that does not fit is scanned until it is one byte too long. -/
theorem scanLine_bytes_overlong
    {bytes : List UInt8}
    (seen : Nat) (hseen : seen ≤ maxLen)
    (hlong : maxLen < seen + (splitLine bytes).1.length) :
    ∃ lineEnd taken items, (lineEnd = .newline ∨ lineEnd = .overlong) ∧
      scanLine maxLen true seen (bytes.map .byte) = (lineEnd, taken, items) ∧
      maxLen < seen + taken.length := by
  induction bytes generalizing seen with
  | nil =>
      simp only [splitLine, List.length_nil] at hlong
      omega
  | cons b rest ih =>
      by_cases hb : b = lineFeed
      · refine ⟨.newline, [b], rest.map .byte, Or.inl rfl, by simp [scanLine, hb], ?_⟩
        simpa [splitLine, hb] using hlong
      · simp only [splitLine, if_neg hb, List.length_cons] at hlong
        simp only [List.map_cons, scanLine, if_neg hb]
        by_cases hlen : maxLen < seen + 1
        · exact ⟨.overlong, [b], rest.map .byte, Or.inr rfl, by simp [hlen], by simpa using hlen⟩
        · obtain ⟨lineEnd, taken, items, hend, hscan, htaken⟩ :=
            ih (seen + 1) (by omega) (by omega)
          refine ⟨lineEnd, b :: taken, items, hend, by simp [hlen, hscan], ?_⟩
          simp only [List.length_cons]
          omega

end Lines

section At

/-- The transport is synchronised in `framing`, and `rest` is all that its
stream will still deliver. -/
structure At (maxLen : Usize) (framing : Framing) (rest : List UInt8)
    (t : FramedTransport Stream) : Prop where
  cap : t.maxLen = maxLen
  framing : t.framing = framing
  sync : t.desync = none
  closed : t.reader.closed = true
  items : t.reader.items = rest.map .byte

variable {maxLen : Usize} {framing : Framing} {rest : List UInt8}
variable {t : FramedTransport Stream}

theorem At.advance
    (h : At maxLen framing rest t) (taken : List UInt8) (rest' : List UInt8) :
    At maxLen framing rest' (advance t taken (rest'.map .byte)) :=
  ⟨h.cap, h.framing, h.sync, h.closed, rfl⟩

theorem At.length_items (h : At maxLen framing rest t) :
    t.reader.items.length = rest.length := by
  rw [h.items, List.length_map]

/-- A result is one that gives up on the stream. -/
def GivesUp {α : Type} (left : Outcome α × FramedTransport Stream) : Prop :=
  (∃ reason, left.1 = .err (invalidMessage reason)) ∧ left.2.desync.isSome

theorem givesUp_desyncError {α : Type} (t : FramedTransport Stream) (reason : String) :
    GivesUp (desyncError (α := α) t reason) :=
  ⟨⟨_, rfl⟩, rfl⟩

theorem readLine_eq
    {t : FramedTransport Stream} (hcap : t.maxLen.val < usizeMax) :
    readLine t =
      andThen (lineOutcome [] t) fun buf t =>
        andThen (checkLen t buf.length "line length") fun _ t =>
          (decodeText buf, t) := by
  have hmax : ¬ (t.maxLen.val = usizeMax ∧ startsWithByte t.reader.items) := by
    omega
  simp only [readLine, LineReader.collectLine, if_neg hmax]

/-- A line that is scanned to its end and fits is decoded. -/
theorem readLine_of_scan
    {t : FramedTransport Stream} (hcap : t.maxLen.val < usizeMax)
    {lineEnd : LineEnd} {line : List UInt8} {items : List Item}
    (hend : lineEnd = .newline ∨ lineEnd = .eof)
    (hscan : scanLine t.maxLen t.reader.closed 0 t.reader.items = (lineEnd, line, items))
    (hne : line ≠ []) (hfits : line.length ≤ t.maxLen.val) :
    readLine t = (decodeText line, Transport.advance t line items) := by
  rw [readLine_eq hcap, lineOutcome_of_scan hscan]
  have hlen : ¬ (t.maxLen : Nat) < line.length := by
    omega
  rcases hend with rfl | rfl
  · simp only [lineEndOutcome, List.nil_append, andThen, checkLen]
    rw [if_neg (show ¬ ((Transport.advance t _ _).maxLen : Nat) < _ from hlen)]
  · simp only [lineEndOutcome, List.nil_append, if_neg hne, andThen, checkLen]
    rw [if_neg (show ¬ ((Transport.advance t _ _).maxLen : Nat) < _ from hlen)]

theorem At.lt_usizeMax
    (h : At maxLen framing rest t) (hcap : maxLen.val < usizeMax) :
    t.maxLen.val < usizeMax := by
  rw [h.cap]
  exact hcap

/-- At the end of the stream there is no line. -/
theorem readLine_nil
    (h : At maxLen framing [] t) (hcap : maxLen.val < usizeMax) :
    ∃ t', readLine t = (.err (.transport .connectionClosed), t') ∧
      At maxLen framing [] t' := by
  refine ⟨Transport.advance t [] [], ?_, h.advance [] []⟩
  rw [readLine_eq (h.lt_usizeMax hcap)]
  have hscan : scanLine t.maxLen t.reader.closed ([] : List UInt8).length t.reader.items =
      (.eof, [], []) := by
    rw [h.items, h.closed]
    rfl
  rw [lineOutcome_of_scan hscan]
  rfl

/-- A line past the cap loses the stream. -/
theorem readLine_overlong
    (h : At maxLen framing rest t) (hcap : maxLen.val < usizeMax)
    (hlong : maxLen.val < (splitLine rest).1.length) :
    GivesUp (readLine t) := by
  obtain ⟨lineEnd, taken, items, hend, hscan, htaken⟩ :=
    scanLine_bytes_overlong 0 (Nat.zero_le _) (by simpa using hlong)
  have hscan' : scanLine t.maxLen t.reader.closed ([] : List UInt8).length t.reader.items =
      (lineEnd, taken, items) := by
    rw [h.cap, h.items, h.closed]
    exact hscan
  rw [readLine_eq (h.lt_usizeMax hcap), lineOutcome_of_scan hscan']
  have hlen : (t.maxLen : Nat) < taken.length := by
    rw [h.cap]
    simpa using htaken
  rcases hend with rfl | rfl
  · simp only [lineEndOutcome, List.nil_append, andThen, checkLen]
    rw [if_pos (show ((Transport.advance t taken items).maxLen : Nat) < taken.length from hlen)]
    exact givesUp_desyncError _ _
  · exact givesUp_desyncError _ _

/-- A line within the cap is taken off the stream and decoded. -/
theorem readLine_fits
    (h : At maxLen framing rest t) (hcap : maxLen.val < usizeMax)
    (hne : rest ≠ []) (hfits : (splitLine rest).1.length ≤ maxLen) :
    ∃ t', readLine t = (decodeText (splitLine rest).1, t') ∧
      At maxLen framing (splitLine rest).2 t' := by
  obtain ⟨lineEnd, hend, hscan⟩ := scanLine_bytes hne 0 (by simpa using hfits)
  have hscan' : scanLine t.maxLen t.reader.closed ([] : List UInt8).length t.reader.items =
      (lineEnd, (splitLine rest).1, (splitLine rest).2.map .byte) := by
    rw [h.cap, h.items, h.closed]
    exact hscan
  have hline : (splitLine rest).1 ≠ [] := by
    obtain ⟨b, bs, rfl⟩ := List.exists_cons_of_ne_nil hne
    unfold splitLine
    split
    · simp
    · simp
  have hfits' : (splitLine rest).1.length ≤ t.maxLen.val := by
    rw [h.cap]
    exact hfits
  exact ⟨_, readLine_of_scan (h.lt_usizeMax hcap) hend hscan' hline hfits',
    h.advance (splitLine rest).1 (splitLine rest).2⟩

end At

/-- What a read is, as far as the reference decoder tells. -/
def variant : Outcome String → Option Decoded
  | .ok text => some (.message text)
  | .err (.transport (.invalidMessage _)) => some .invalidMessage
  | .err (.transport .connectionClosed) => some .connectionClosed
  | _ => none

/-- The framing of a phase that has one. -/
def Phase.framing : Phase → Option Framing
  | .undecided => some .auto
  | .newline => some .newline
  | .contentLength => some .contentLength
  | .refused => none

section Steps

variable {maxLen : Usize} {framing : Framing} {rest : List UInt8}
variable {t : FramedTransport Stream}

theorem GivesUp.exists_eq
    {α : Type} {left : Outcome α × FramedTransport Stream} (h : GivesUp left) :
    ∃ reason t', left = (.err (invalidMessage reason), t') ∧ t'.desync.isSome := by
  obtain ⟨o, t'⟩ := left
  obtain ⟨⟨reason, rfl⟩, hdesync⟩ := h
  exact ⟨reason, t', rfl, hdesync⟩

theorem decodeText_of_some
    {bytes : List UInt8} {s : String} (h : decodeUtf8 bytes = some s) :
    decodeText bytes = .ok s := by
  simp only [decodeText, fromUtf8, h]

theorem decodeText_of_none
    {bytes : List UInt8} (h : decodeUtf8 bytes = none) :
    ∃ reason, decodeText bytes = .err (invalidMessage reason) := by
  simp only [decodeText, fromUtf8, h]
  exact ⟨_, rfl⟩

/-- What reading a line comes to, by the bytes the stream will still deliver. -/
inductive LineRead (maxLen : Usize) (framing : Framing) (rest : List UInt8) :
    Outcome String × FramedTransport Stream → Prop
  | closed {t'} (hnil : rest = []) (hat : At maxLen framing [] t') :
      LineRead maxLen framing rest (.err (.transport .connectionClosed), t')
  | overlong {left} (hne : rest ≠ []) (hlong : maxLen.val < (splitLine rest).1.length)
      (hgives : GivesUp left) :
      LineRead maxLen framing rest left
  | undecodable {reason t'} (hne : rest ≠ []) (hfits : ¬ maxLen.val < (splitLine rest).1.length)
      (hnone : decodeUtf8 (splitLine rest).1 = none)
      (hat : At maxLen framing (splitLine rest).2 t') :
      LineRead maxLen framing rest (.err (invalidMessage reason), t')
  | line {s t'} (hne : rest ≠ []) (hfits : ¬ maxLen.val < (splitLine rest).1.length)
      (hsome : decodeUtf8 (splitLine rest).1 = some s)
      (hat : At maxLen framing (splitLine rest).2 t') :
      LineRead maxLen framing rest (.ok s, t')

theorem readLine_at
    (h : At maxLen framing rest t) (hcap : maxLen.val < usizeMax) :
    LineRead maxLen framing rest (readLine t) := by
  by_cases hne : rest = []
  · subst rest
    obtain ⟨t', hread, hat⟩ := readLine_nil h hcap
    rw [hread]
    exact .closed rfl hat
  · by_cases hlong : maxLen.val < (splitLine rest).1.length
    · exact .overlong hne hlong (readLine_overlong h hcap hlong)
    · obtain ⟨t', hread, hat⟩ := readLine_fits h hcap hne (Nat.not_lt.mp hlong)
      rw [hread]
      cases htext : decodeUtf8 (splitLine rest).1 with
      | some s =>
          rw [decodeText_of_some htext]
          exact .line hne hlong htext hat
      | none =>
          obtain ⟨reason, herr⟩ := decodeText_of_none htext
          rw [herr]
          exact .undecodable hne hlong htext hat

/-- What reading a line of a frame comes to. -/
inductive FrameLineRead (maxLen : Usize) (framing : Framing) (rest : List UInt8) :
    Outcome String × FramedTransport Stream → Prop
  | closed {t'} (hnil : rest = []) (hat : At maxLen framing [] t') :
      FrameLineRead maxLen framing rest (.err (.transport .connectionClosed), t')
  | lost {left} (hne : rest ≠ [])
      (hbad : maxLen.val < (splitLine rest).1.length ∨
        decodeUtf8 (splitLine rest).1 = none)
      (hgives : GivesUp left) :
      FrameLineRead maxLen framing rest left
  | line {s t'} (hne : rest ≠ []) (hfits : ¬ maxLen.val < (splitLine rest).1.length)
      (hsome : decodeUtf8 (splitLine rest).1 = some s)
      (hat : At maxLen framing (splitLine rest).2 t') :
      FrameLineRead maxLen framing rest (.ok s, t')

/-- A line that is read was there, within the cap. -/
theorem LineRead.of_ok {s : String} {t' : FramedTransport Stream}
    (h : LineRead maxLen framing rest (.ok s, t')) :
    rest ≠ [] ∧ ¬ maxLen.val < (splitLine rest).1.length ∧
      decodeUtf8 (splitLine rest).1 = some s ∧ At maxLen framing (splitLine rest).2 t' := by
  cases h with
  | overlong hne hlong hgives =>
      obtain ⟨reason, u, hleft, -⟩ := hgives.exists_eq
      cases hleft
  | line hne hfits hsome hat =>
      exact ⟨hne, hfits, hsome, hat⟩

theorem FrameLineRead.of_ok {s : String} {t' : FramedTransport Stream}
    (h : FrameLineRead maxLen framing rest (.ok s, t')) :
    rest ≠ [] ∧ ¬ maxLen.val < (splitLine rest).1.length ∧
      decodeUtf8 (splitLine rest).1 = some s ∧ At maxLen framing (splitLine rest).2 t' := by
  cases h with
  | lost hne hbad hgives =>
      obtain ⟨reason, u, hleft, -⟩ := hgives.exists_eq
      cases hleft
  | line hne hfits hsome hat =>
      exact ⟨hne, hfits, hsome, hat⟩

theorem readFrameLine_at
    (h : At maxLen framing rest t) (hcap : maxLen.val < usizeMax) :
    FrameLineRead maxLen framing rest (readFrameLine t) := by
  have hline := readLine_at h hcap
  generalize hread : readLine t = left at hline
  cases hline with
  | closed hnil hat =>
      simp only [readFrameLine, hread]
      exact .closed hnil hat
  | overlong hne hlong hgives =>
      obtain ⟨reason, t', rfl, hdesync⟩ := hgives.exists_eq
      simp only [readFrameLine, hread]
      exact .lost hne (Or.inl hlong) ⟨⟨_, rfl⟩, rfl⟩
  | undecodable hne hfits hnone hat =>
      simp only [readFrameLine, hread]
      exact .lost hne (Or.inr hnone) ⟨⟨_, rfl⟩, rfl⟩
  | line hne hfits hsome hat =>
      simp only [readFrameLine, hread]
      exact .line hne hfits hsome hat

/-- What skipping the headers of a frame comes to. -/
inductive HeadersRead (maxLen : Usize) :
    Headers → Outcome Unit × FramedTransport Stream → Prop
  | body {rest t'} (hat : At maxLen .contentLength rest t') :
      HeadersRead maxLen (.body rest) (.ok (), t')
  | ended {t'} (hat : At maxLen .contentLength [] t') :
      HeadersRead maxLen .ended (.err (.transport .connectionClosed), t')
  | refused {left} (hgives : GivesUp left) :
      HeadersRead maxLen .refused left

theorem splitLine_fst_eq_nil_iff (bytes : List UInt8) :
    (splitLine bytes).1 = [] ↔ bytes = [] := by
  cases bytes with
  | nil =>
      simp [splitLine]
  | cons b rest =>
      unfold splitLine
      split
      · simp
      · simp

section SkipHeaders

variable {cap more : Nat} {bytes : List UInt8}

@[simp] theorem skipHeaders_nil :
    skipHeaders cap more [] = .ended := by
  unfold skipHeaders
  simp [splitLine]

theorem skipHeaders_of_bad
    (hne : bytes ≠ [])
    (hbad : cap < (splitLine bytes).1.length ∨ decodeUtf8 (splitLine bytes).1 = none) :
    skipHeaders cap more bytes = .refused := by
  unfold skipHeaders
  rw [if_neg (mt (splitLine_fst_eq_nil_iff bytes).1 hne)]
  by_cases hlong : cap < (splitLine bytes).1.length
  · rw [if_pos hlong]
  · rw [if_neg hlong, hbad.resolve_left hlong]

theorem skipHeaders_of_line
    (hne : bytes ≠ []) (hfits : ¬ cap < (splitLine bytes).1.length)
    {text : String} (hsome : decodeUtf8 (splitLine bytes).1 = some text) :
    skipHeaders cap more bytes =
      if trimCrlf text = "" then .body (splitLine bytes).2
      else
        match more with
        | 0 => .refused
        | more + 1 => skipHeaders cap more (splitLine bytes).2 := by
  have hnonempty := mt (splitLine_fst_eq_nil_iff bytes).1 hne
  cases more with
  | zero =>
      simp only [skipHeaders, if_neg hnonempty, if_neg hfits, hsome]
  | succ more =>
      rw [skipHeaders]
      simp only [if_neg hnonempty, if_neg hfits, hsome]

end SkipHeaders

/-- One iteration of the header loop, against the headers that are left. -/
theorem readHeadersBody_at
    {lines more : Nat} (hlines : lines + more = maxHeaderLines)
    (h : At maxLen .contentLength rest t) (hcap : maxLen.val < usizeMax) :
    (∃ left, readHeadersBody (lines, t) = .leave left ∧
      HeadersRead maxLen (skipHeaders maxLen more rest) left) ∨
    (∃ more' t', readHeadersBody (lines, t) = .next (lines + 1, t') ∧
      lines + 1 + more' = maxHeaderLines ∧
      At maxLen .contentLength (splitLine rest).2 t' ∧
      rest ≠ [] ∧
      skipHeaders maxLen more rest = skipHeaders maxLen more' (splitLine rest).2) := by
  have hline := readFrameLine_at h hcap
  generalize hread : readFrameLine t = left at hline
  cases hline with
  | @closed t' hnil hat =>
      subst rest
      refine Or.inl ⟨(.err (.transport .connectionClosed), t'), ?_, ?_⟩
      · simp only [readHeadersBody, hread]
      · rw [skipHeaders_nil]
        exact .ended hat
  | lost hne hbad hgives =>
      obtain ⟨reason, t', rfl, hdesync⟩ := hgives.exists_eq
      refine Or.inl ⟨(.err (invalidMessage reason), t'), ?_, ?_⟩
      · simp only [readHeadersBody, hread]
      · rw [skipHeaders_of_bad hne hbad]
        exact .refused ⟨⟨_, rfl⟩, hdesync⟩
  | @line s t' hne hfits hsome hat =>
      rw [skipHeaders_of_line hne hfits hsome]
      by_cases hblank : trimCrlf s = ""
      · refine Or.inl ⟨(.ok (), t'), ?_, ?_⟩
        · simp only [readHeadersBody, hread, if_pos hblank]
        · rw [if_pos hblank]
          exact .body hat
      · rw [if_neg hblank]
        cases more with
        | zero =>
            have hmany : maxHeaderLines < lines + 1 := by
              omega
            refine Or.inl ⟨desyncError t'
              s!"frame declares more than {maxHeaderLines} header lines", ?_, ?_⟩
            · simp only [readHeadersBody, hread, if_neg hblank, if_pos hmany]
            · exact .refused (givesUp_desyncError _ _)
        | succ more =>
            have hmany : ¬ maxHeaderLines < lines + 1 := by
              omega
            refine Or.inr ⟨more, t', ?_, by omega, hat, hne, rfl⟩
            simp only [readHeadersBody, hread, if_neg hblank, if_neg hmany]

theorem readHeaders_at
    (h : At maxLen .contentLength rest t) (hcap : maxLen.val < usizeMax) :
    HeadersRead maxLen (skipHeaders maxLen (maxHeaderLines - 1) rest) (readHeaders t) := by
  obtain ⟨left, hrun, hleft⟩ :=
    Loop.run_total
      (readHeadersBody (R := Stream))
      (fun s => ∃ more rest', s.1 + more = maxHeaderLines ∧
        At maxLen .contentLength rest' s.2 ∧
        skipHeaders maxLen more rest' = skipHeaders maxLen (maxHeaderLines - 1) rest)
      (fun s => s.2.reader.items.length)
      (HeadersRead maxLen (skipHeaders maxLen (maxHeaderLines - 1) rest))
      (by
        rintro ⟨lines, t⟩ ⟨more, rest', hlines, hat, hskip⟩
        rcases readHeadersBody_at hlines hat hcap with
          ⟨left, hbody, hread⟩ | ⟨more', t', hbody, hlines', hat', hne, hskip'⟩
        · exact Or.inl ⟨left, hbody, hskip ▸ hread⟩
        · refine Or.inr ⟨_, hbody, ⟨more', _, hlines', hat', hskip' ▸ hskip⟩, ?_⟩
          simp only [hat.length_items, hat'.length_items]
          exact splitLine_snd_length_lt hne)
      (s := (1, t)) ⟨maxHeaderLines - 1, rest, rfl, h, rfl⟩
      (Nat.lt_succ_self t.reader.items.length)
  have hfuel : fuel t = t.reader.items.length + 1 := by
    rfl
  simp only [readHeaders, hfuel, hrun]
  exact hleft

/-- The transport is where the decoder is. -/
inductive Tracks (maxLen : Usize) : FramedTransport Stream → Decoder → Prop
  | synced {t : FramedTransport Stream} {phase framing rest}
      (hphase : Phase.framing phase = some framing)
      (hat : At maxLen framing rest t) :
      Tracks maxLen t ⟨phase, rest⟩
  | refused {t : FramedTransport Stream} {rest} (hdesync : t.desync.isSome) :
      Tracks maxLen t ⟨.refused, rest⟩

/-- A read of the transport is the decoder's read, and leaves it where the
decoder is left. -/
structure Answers (maxLen : Usize) (left : Outcome String × FramedTransport Stream)
    (out : Decoded × Decoder) : Prop where
  same : variant left.1 = some out.1
  tracks : Tracks maxLen left.2 out.2

theorem GivesUp.answers
    {left : Outcome String × FramedTransport Stream} (h : GivesUp left) :
    Answers maxLen left refuse := by
  obtain ⟨reason, t', rfl, hdesync⟩ := h.exists_eq
  exact ⟨rfl, .refused hdesync⟩

/-- What a decoded text is, when the bytes it was decoded from were consumed. -/
theorem answers_decodeText
    {phase : Phase} (hphase : phase.framing = some framing)
    (bytes : List UInt8) (h : At maxLen framing rest t) :
    Answers maxLen (decodeText bytes, t) (decodedText bytes, ⟨phase, rest⟩) := by
  refine ⟨?_, .synced hphase h⟩
  cases htext : decodeUtf8 bytes with
  | some s =>
      rw [decodeText_of_some htext]
      simp only [decodedText, htext, variant]
  | none =>
      obtain ⟨reason, herr⟩ := decodeText_of_none htext
      rw [herr]
      simp only [decodedText, htext, variant, invalidMessage]

theorem scanBody_bytes (n : Nat) (bytes : List UInt8) :
    scanBody true n (bytes.map .byte) =
      (.done, bytes.take n, (bytes.drop n).map .byte) := by
  induction n generalizing bytes with
  | zero =>
      simp [scanBody]
  | succ n ih =>
      cases bytes with
      | nil =>
          simp [scanBody]
      | cons b bytes =>
          simp [scanBody, ih]

theorem readFrameBody_at
    (n : Nat) (h : At maxLen .contentLength rest t) :
    Answers maxLen (readFrameBody n t)
      (if rest.length < n then refuse
        else (decodedText (rest.take n), ⟨.contentLength, rest.drop n⟩)) := by
  have hscan : scanBody t.reader.closed n t.reader.items =
      (.done, rest.take n, (rest.drop n).map .byte) := by
    rw [h.closed, h.items, scanBody_bytes]
  simp only [readFrameBody, LineReader.collectBody, hscan, List.length_take]
  by_cases hshort : rest.length < n
  · rw [if_pos (by omega), if_pos hshort]
    exact (givesUp_desyncError _ _).answers
  · rw [if_neg (by omega), if_neg hshort]
    exact answers_decodeText rfl _ (h.advance (rest.take n) (rest.drop n))

theorem readContentLength_at
    (first : String)
    (h : At maxLen .contentLength rest t) (hcap : maxLen.val < usizeMax) :
    Answers maxLen (readContentLength first t) (decodeFrame maxLen first rest) := by
  have hmax : t.maxLen = maxLen := h.cap
  have hlength := @map_declaredLength_iff _ t first
  rw [hmax] at hlength
  cases hdeclared : (contentLengthValue first).bind (declaredValue maxLen) with
  | none =>
      have hnone : ∀ n, (contentLengthValue first).map (declaredLength t) ≠ some (.ok n) := by
        intro n hn
        rw [hlength, hdeclared] at hn
        cases hn
      obtain ⟨reason, hread⟩ := readContentLength_of_undeclared hnone
      rw [hread, decodeFrame_of_undeclared hdeclared]
      exact (givesUp_desyncError _ _).answers
  | some n =>
      rw [readContentLength_of_declared (hlength.mpr hdeclared), decodeFrame_of_declared hdeclared]
      have hheaders := readHeaders_at h hcap
      generalize readHeaders t = left at hheaders
      generalize skipHeaders maxLen (maxHeaderLines - 1) rest = headers at hheaders
      cases hheaders with
      | body hat =>
          exact readFrameBody_at n hat
      | ended hat =>
          exact ⟨rfl, .synced rfl hat⟩
      | refused hgives =>
          obtain ⟨reason, t', rfl, hdesync⟩ := hgives.exists_eq
          exact ⟨rfl, .refused hdesync⟩

/-- `read_newline` is the decoder's read of a line. -/
theorem readNewline_at
    (h : At maxLen .newline rest t) (hcap : maxLen.val < usizeMax) :
    Answers maxLen (readNewline t) (decodeNewline maxLen rest) := by
  have hline := readLine_at h hcap
  generalize hread : readLine t = left at hline
  unfold decodeNewline
  cases hline with
  | closed hnil hat =>
      simp only [readNewline, hread, if_pos hnil]
      exact ⟨rfl, .synced rfl hat⟩
  | overlong hne hlong hgives =>
      obtain ⟨reason, t', rfl, hdesync⟩ := hgives.exists_eq
      simp only [readNewline, hread, if_neg hne, if_pos hlong]
      exact ⟨rfl, .refused hdesync⟩
  | undecodable hne hfits hnone hat =>
      simp only [readNewline, hread, if_neg hne, if_neg hfits, hnone]
      exact ⟨rfl, .synced rfl hat⟩
  | line hne hfits hsome hat =>
      simp only [readNewline, hread, if_neg hne, if_neg hfits, hsome]
      exact ⟨rfl, .synced rfl hat⟩

theorem decodeFrame_trimCrlf (cap : Nat) (line : String) (bytes : List UInt8) :
    decodeFrame cap (trimCrlf line) bytes = decodeFrame cap line bytes := by
  unfold decodeFrame
  rw [contentLengthValue_trimCrlf]

/-- One iteration of `read_auto`, against the decoder. -/
theorem readAutoBody_at
    (h : At maxLen .auto rest t) (hcap : maxLen.val < usizeMax) :
    (∃ left, readAutoBody t = .leave left ∧
      Answers maxLen left (decodeUndecided maxLen rest)) ∨
    (∃ t', readAutoBody t = .next t' ∧
      rest ≠ [] ∧
      At maxLen .auto (splitLine rest).2 t' ∧
      decodeUndecided maxLen rest = decodeUndecided maxLen (splitLine rest).2) := by
  have hline := readLine_at h hcap
  generalize hread : readLine t = left at hline
  rw [decodeUndecided]
  cases hline with
  | @closed t' hnil hat =>
      rw [dif_pos hnil]
      refine Or.inl ⟨(.err (.transport .connectionClosed), t'), ?_, ⟨rfl, .synced rfl hat⟩⟩
      simp only [readAutoBody, hread]
  | overlong hne hlong hgives =>
      obtain ⟨reason, t', rfl, hdesync⟩ := hgives.exists_eq
      rw [dif_neg hne, if_pos hlong]
      refine Or.inl ⟨(.err (invalidMessage reason), t'), ?_, ⟨rfl, .refused hdesync⟩⟩
      simp only [readAutoBody, hread]
  | @undecodable reason t' hne hfits hnone hat =>
      simp only [dif_neg hne, if_neg hfits, hnone]
      refine Or.inl ⟨(.err (invalidMessage reason), t'), ?_, ⟨rfl, .synced rfl hat⟩⟩
      simp only [readAutoBody, hread]
  | @line s t' hne hfits hsome hat =>
      simp only [dif_neg hne, if_neg hfits, hsome]
      have hblank := trim_trimCrlf_eq_empty_iff s
      by_cases hspace : s.toList.all isWhitespace = true
      · refine Or.inr ⟨t', ?_, hne, hat, by rw [if_pos hspace]⟩
        simp only [readAutoBody, hread, if_pos (hblank.2 hspace)]
      · rw [if_neg hspace]
        by_cases hheader : (contentLengthValue s).isSome = true
        · rw [if_pos hheader]
          have hat' : At maxLen .contentLength (splitLine rest).2
              { t' with framing := .contentLength } :=
            ⟨hat.cap, rfl, hat.sync, hat.closed, hat.items⟩
          refine Or.inl ⟨readContentLength (trimCrlf s)
            { t' with framing := .contentLength }, ?_, ?_⟩
          · simp only [readAutoBody, hread, if_neg (mt hblank.1 hspace),
              contentLengthValue_trimCrlf, if_pos hheader]
          · have hframe := readContentLength_at (trimCrlf s) hat' hcap
            rw [decodeFrame_trimCrlf] at hframe
            exact hframe
        · rw [if_neg hheader]
          refine Or.inl ⟨(.ok (trimCrlf s), { t' with framing := .newline }), ?_, rfl, ?_⟩
          · simp only [readAutoBody, hread, if_neg (mt hblank.1 hspace),
              contentLengthValue_trimCrlf, if_neg hheader]
          · exact .synced rfl ⟨hat.cap, rfl, hat.sync, hat.closed, hat.items⟩

/-- `read_auto` is the decoder's read while the framing is undecided. -/
theorem readAuto_at
    (h : At maxLen .auto rest t) (hcap : maxLen.val < usizeMax) :
    Answers maxLen (readAuto t) (decodeUndecided maxLen rest) := by
  obtain ⟨left, hrun, hleft⟩ :=
    Loop.run_total
      (readAutoBody (R := Stream))
      (fun t => ∃ rest', At maxLen .auto rest' t ∧
        decodeUndecided maxLen rest' = decodeUndecided maxLen rest)
      (fun t => t.reader.items.length)
      (fun left => Answers maxLen left (decodeUndecided maxLen rest))
      (by
        rintro t ⟨rest', hat, hsame⟩
        rcases readAutoBody_at hat hcap with
          ⟨left, hbody, hleft⟩ | ⟨t', hbody, hne, hat', hsame'⟩
        · exact Or.inl ⟨left, hbody, hsame ▸ hleft⟩
        · refine Or.inr ⟨t', hbody, ⟨_, hat', hsame' ▸ hsame⟩, ?_⟩
          simp only [hat.length_items, hat'.length_items]
          exact splitLine_snd_length_lt hne)
      ⟨rest, h, rfl⟩
      (Nat.lt_succ_self t.reader.items.length)
  have hfuel : fuel t = t.reader.items.length + 1 := by
    rfl
  simp only [readAuto, hfuel, hrun]
  exact hleft

/-- One read of a transport that is where the decoder is. -/
theorem readMessage_tracks
    {d : Decoder} (h : Tracks maxLen t d) (hcap : maxLen.val < usizeMax) :
    Answers maxLen (readMessage t) (decode maxLen d) := by
  cases h with
  | refused hdesync =>
      obtain ⟨reason, hreason⟩ := Option.isSome_iff_exists.mp hdesync
      simp only [readMessage, hreason, decode]
      exact ⟨rfl, .refused hdesync⟩
  | @synced phase framing rest hphase hat =>
      simp only [readMessage, hat.sync, hat.framing]
      cases phase with
      | undecided =>
          cases hphase
          exact readAuto_at hat hcap
      | newline =>
          cases hphase
          exact readNewline_at hat hcap
      | refused =>
          cases hphase
      | contentLength =>
          cases hphase
          have hline := readFrameLine_at hat hcap
          simp only [decode, decodeContentLength]
          generalize readFrameLine t = left at hline ⊢
          cases hline with
          | closed hnil hat =>
              rw [if_pos hnil]
              exact ⟨rfl, .synced rfl hat⟩
          | lost hne hbad hgives =>
              obtain ⟨reason, t', rfl, hdesync⟩ := hgives.exists_eq
              rw [if_neg hne]
              by_cases hlong : maxLen.val < (splitLine rest).1.length
              · rw [if_pos hlong]
                exact ⟨rfl, .refused hdesync⟩
              · rw [if_neg hlong, hbad.resolve_left hlong]
                exact ⟨rfl, .refused hdesync⟩
          | line hne hfits hsome hat =>
              simp only [if_neg hne, if_neg hfits, hsome, andThen]
              exact readContentLength_at _ hat hcap

/-- A transport that is where the decoder is reads what the decoder decodes. -/
theorem reads_tracks
    {d : Decoder} (h : Tracks maxLen t d) (hcap : maxLen.val < usizeMax) (n : Nat) :
    (reads n t).1.map variant = (decodes maxLen n d).1.map some ∧
    Tracks maxLen (reads n t).2 (decodes maxLen n d).2 := by
  refine Mealy.run_simulation _ _ (Tracks maxLen) variant some ?_ (List.replicate n ()) h
  intro _ t d h
  have hanswers := readMessage_tracks h hcap
  exact ⟨hanswers.same, hanswers.tracks⟩

theorem Tracks.desync_isSome_iff
    {d : Decoder} (h : Tracks maxLen t d) :
    t.desync.isSome ↔ d.phase = .refused := by
  cases h with
  | refused hdesync =>
      simp [hdesync]
  | @synced phase framing rest hphase hat =>
      cases phase with
      | refused =>
          cases hphase
      | undecided =>
          simp [hat.sync]
      | newline =>
          simp [hat.sync]
      | contentLength =>
          simp [hat.sync]

end Steps

section Reference

/-- A chunk as `fill_buf` hands it out. -/
abbrev Chunk := { bytes : List UInt8 // bytes ≠ [] }

/-- A fresh transport over a stream that arrives in `chunks` and then ends. -/
def overChunks (maxLen : Usize) (writer : Writer) (chunks : List Chunk) :
    FramedTransport Reader :=
  .new (.new (chunks.map fun chunk => .chunk chunk.1 chunk.2) true) writer maxLen

theorem at_overChunks (maxLen : Usize) (writer : Writer) (chunks : List Chunk) :
    At maxLen .auto (chunks.flatMap Subtype.val)
      ((overChunks maxLen writer chunks).mapReader Reader.unchunked) := by
  refine ⟨rfl, rfl, rfl, rfl, ?_⟩
  rw [List.map_flatMap]
  exact List.flatMap_map ..

/-- A fresh transport is where a decoder of the same bytes is. -/
theorem tracks_overChunks (maxLen : Usize) (writer : Writer) (chunks : List Chunk) :
    Tracks maxLen ((overChunks maxLen writer chunks).mapReader Reader.unchunked)
      ⟨.undecided, chunks.flatMap Subtype.val⟩ :=
  .synced rfl (at_overChunks maxLen writer chunks)

theorem overChunks_unchunked
    (maxLen : Usize) (writer : Writer) {chunks chunks' : List Chunk}
    (hsame : chunks'.flatMap Subtype.val = chunks.flatMap Subtype.val) :
    (overChunks maxLen writer chunks').mapReader Reader.unchunked =
      (overChunks maxLen writer chunks).mapReader Reader.unchunked := by
  have h := (at_overChunks maxLen writer chunks).items
  have h' := (at_overChunks maxLen writer chunks').items
  rw [hsame, ← h] at h'
  simp only [overChunks, FramedTransport.new, FramedTransport.mapReader, Reader.unchunked,
    Reader.new] at h' ⊢
  rw [h']

/--
The transport reads what the reference decoder decodes: whatever the bytes,
whatever the chunks they arrive in and whatever the cap below `usize::MAX`, any
number of reads give the decoder's messages and error variants, the stream is
given up exactly when the decoder gives it up, and another chunking of the same
bytes gives the very same results.
-/
theorem reads_eq_reference
    (maxLen : Usize) (hcap : maxLen.val < usizeMax)
    (writer : Writer) (chunks : List Chunk) (n : Nat) :
    (reads n (overChunks maxLen writer chunks)).1.map variant =
        (decodes maxLen n ⟨.undecided, chunks.flatMap Subtype.val⟩).1.map some ∧
    ((reads n (overChunks maxLen writer chunks)).2.desync.isSome ↔
        (decodes maxLen n ⟨.undecided, chunks.flatMap Subtype.val⟩).2.phase = .refused) ∧
    ∀ chunks' : List Chunk,
      chunks'.flatMap Subtype.val = chunks.flatMap Subtype.val →
      (reads n (overChunks maxLen writer chunks')).1 =
          (reads n (overChunks maxLen writer chunks)).1 ∧
        (reads n (overChunks maxLen writer chunks')).2.desync =
          (reads n (overChunks maxLen writer chunks)).2.desync := by
  have hunchunked := fun chunks => reads_unchunked n (overChunks maxLen writer chunks)
  obtain ⟨hsame, htracks⟩ :=
    reads_tracks (tracks_overChunks maxLen writer chunks) hcap n
  rw [hunchunked] at hsame htracks
  refine ⟨hsame, htracks.desync_isSome_iff, ?_⟩
  intro chunks' hbytes
  have h := hunchunked chunks'
  rw [overChunks_unchunked maxLen writer hbytes, hunchunked] at h
  exact ⟨(congrArg Prod.fst h).symm, (congrArg (fun left => left.2.desync) h).symm⟩

/-- Two chunks that cut a `Content-Length` header and its body in the middle. -/
theorem reads_eq_reference_of_cut_frame :
    let chunks : List Chunk :=
      [⟨asBytes "Content-Le", by decide⟩, ⟨asBytes "ngth: 2\r\n\r\n\x7b", by decide⟩,
        ⟨asBytes "\x7d", by decide⟩]
    (reads 2 (overChunks 32 .reliable chunks)).1.map variant =
        [some (.message "\x7b\x7d"), some .connectionClosed] ∧
      (reads 2 (overChunks 32 .reliable chunks)).1.map variant =
        (decodes 32 2 ⟨.undecided, chunks.flatMap Subtype.val⟩).1.map some :=
  ⟨by decide, (reads_eq_reference 32 (by decide) .reliable _ 2).1⟩

end Reference
end Transport
end McpCore
