import McpCore.Boundary
import McpCore.LockIn
import McpCore.Pump

/-!
# Streams that are still open

A read of a stream that has not ended either waits, or comes to what it would come to
if the stream ended after the bytes that are there (`readMessage_closing`).  So the
decoder of these bytes tells what an open stream gives, as far as its reads return.

`readMessage_ends` says when they do.  A read waits only where the decoder comes to
the end of the bytes, and a text that is not UTF-8 is reported only once it is whole.
-/

namespace McpCore

/-- The stream that ends after the same bytes. -/
def Stream.closing (s : Stream) : Stream :=
  { s with closed := true }

namespace Transport

open Text

section Closing

theorem scanLine_closing (maxLen : Nat) (closed : Bool) (seen : Nat) (items : List Item) :
    (scanLine maxLen closed seen items).1 = .waiting ∨
    scanLine maxLen true seen items = scanLine maxLen closed seen items := by
  cases closed with
  | true =>
      exact .inr rfl
  | false =>
      rcases scanLine_extend maxLen true seen items [] with hwait | ⟨hscan, -⟩
      · exact .inl hwait
      · rw [List.append_nil, List.append_nil] at hscan
        exact .inr hscan

theorem scanBody_closing (closed : Bool) (n : Nat) (items : List Item) :
    (scanBody closed n items).1 = .waiting ∨
    scanBody true n items = scanBody closed n items := by
  cases closed with
  | true =>
      exact .inr rfl
  | false =>
      rcases scanBody_extend true n items [] with hwait | hscan
      · exact .inl hwait
      · rw [List.append_nil, List.append_nil] at hscan
        exact .inr hscan

theorem collectLine_closing (t : FramedTransport Stream) :
    Agree True (fun s s' => s' = s.closing) Eq (LineReader.collectLine t)
      (LineReader.collectLine (t.mapReader Stream.closing)) := by
  simp only [LineReader.collectLine, mapReader_maxLen, mapReader_reader, Stream.closing]
  by_cases hspin : t.maxLen.val = usizeMax ∧ startsWithByte t.reader.items = true
  · simp only [if_pos hspin]
    exact .waiting trivial
  · simp only [if_neg hspin, lineOutcome, List.length_nil, mapReader_maxLen, mapReader_reader,
      Stream.closing]
    rcases scanLine_closing t.maxLen t.reader.closed 0 t.reader.items with hwait | hscan
    · rw [hwait]
      exact .waiting trivial
    · rw [hscan]
      generalize scanLine t.maxLen t.reader.closed 0 t.reader.items = scan
      obtain ⟨lineEnd, taken, items⟩ := scan
      have hleft : Alike (fun s s' => s' = Stream.closing s) Eq (advance t taken items)
          (advance (t.mapReader Stream.closing) taken items) :=
        alike_mapReader (advance t taken items)
      cases lineEnd with
      | newline =>
          exact .same hleft
      | eof =>
          simp only [lineEndOutcome]
          split
          · exact .same hleft
          · exact .same hleft
      | overlong =>
          exact desyncError_agree hleft _
      | failed err =>
          exact .same hleft
      | waiting =>
          exact .waiting trivial

/-- A stream gives what it would give if it ended, unless it is waiting. -/
theorem respects_closing :
    Respects True (fun s s' => s' = Stream.closing s) Eq where
  line := by
    intro t t' h
    rw [eq_mapReader_of_alike h]
    exact collectLine_closing t
  body := by
    rintro s _ rfl n
    simp only [LineReader.collectBody, Stream.closing]
    rcases scanBody_closing s.closed n s.items with hwait | hscan
    · exact .inl ⟨trivial, hwait⟩
    · exact .inr ⟨_, _, _, _, rfl, by rw [hscan], rfl⟩
  size := by
    rintro s _ rfl
    exact .inl rfl

theorem running_or_through_of_agree {R R' α : Type} {view : R → R'}
    {call : Outcome α × FramedTransport R} {call' : Outcome α × FramedTransport R'}
    (h : Agree True (fun reader reader' => reader' = view reader) Eq call call') :
    call.1 = .running ∨ call' = through view call := by
  cases h with
  | same h =>
      rw [eq_mapReader_of_alike h]
      exact .inr rfl
  | waiting h =>
      exact .inl rfl

variable (t : FramedTransport Stream)

theorem readLine_closing :
    (readLine t).1 = .running ∨
    readLine (t.mapReader Stream.closing) = through Stream.closing (readLine t) :=
  running_or_through_of_agree (readLine_agree respects_closing (alike_mapReader t))

theorem readFrameLine_closing :
    (readFrameLine t).1 = .running ∨
    readFrameLine (t.mapReader Stream.closing) = through Stream.closing (readFrameLine t) :=
  running_or_through_of_agree (readFrameLine_agree respects_closing (alike_mapReader t))

theorem readHeaders_closing :
    (readHeaders t).1 = .running ∨
    readHeaders (t.mapReader Stream.closing) = through Stream.closing (readHeaders t) :=
  running_or_through_of_agree (readHeaders_agree respects_closing (alike_mapReader t))

/-- A read waits, or comes to what it would come to if the stream ended. -/
theorem readMessage_closing :
    (readMessage t).1 = .running ∨
    readMessage (t.mapReader Stream.closing) = through Stream.closing (readMessage t) :=
  running_or_through_of_agree (readMessage_agree respects_closing (alike_mapReader t))

end Closing

section Kept

/-- Whether a stream ends is not for its reader to change. -/
theorem respects_closed (closed : Bool) :
    Respects False (fun s s' : Stream => s' = s ∧ s.closed = closed) Eq where
  line := by
    rintro _ _ ⟨⟨rfl, rfl⟩, hw, framing, maxLen, desync⟩
    subst hw
    rename_i s writer
    have hkept : (LineReader.collectLine (⟨s, writer, framing, maxLen, desync⟩ :
        FramedTransport Stream)).2.reader.closed = s.closed := by
      simp only [LineReader.collectLine, lineOutcome]
      split
      · rfl
      · generalize scanLine maxLen s.closed _ s.items = scan
        obtain ⟨lineEnd, taken, items⟩ := scan
        cases lineEnd with
        | eof =>
            simp only [lineEndOutcome]
            split
            · rfl
            · rfl
        | _ =>
            rfl
    generalize LineReader.collectLine (⟨s, writer, framing, maxLen, desync⟩ :
      FramedTransport Stream) = call at hkept
    exact .same (.mk ⟨rfl, hkept⟩ rfl ..)
  body := by
    rintro s _ ⟨rfl, rfl⟩ n
    exact .inr ⟨_, _, _, _, rfl, rfl, rfl, rfl⟩
  size := by
    rintro s _ ⟨rfl, -⟩
    exact .inl rfl

theorem closed_of_agree {α : Type} {closed : Bool} {call : Outcome α × FramedTransport Stream}
    (h : Agree False (fun s s' : Stream => s' = s ∧ s.closed = closed) Eq call call) :
    call.2.reader.closed = closed := by
  obtain ⟨outcome, u⟩ := call
  cases h with
  | same h =>
      cases h with
      | mk h hw =>
          exact h.2
  | waiting h =>
      exact h.elim

theorem alike_closed (t : FramedTransport Stream) :
    Alike (fun s s' : Stream => s' = s ∧ s.closed = t.reader.closed) Eq t t := by
  obtain ⟨reader, writer, framing, maxLen, desync⟩ := t
  exact .mk ⟨rfl, rfl⟩ rfl ..

theorem closed_readLine (t : FramedTransport Stream) :
    (readLine t).2.reader.closed = t.reader.closed :=
  closed_of_agree (readLine_agree (respects_closed _) (alike_closed t))

theorem closed_readMessage (t : FramedTransport Stream) :
    (readMessage t).2.reader.closed = t.reader.closed :=
  closed_of_agree (readMessage_agree (respects_closed _) (alike_closed t))

end Kept

section Lines

variable {maxLen : Usize} {framing : Framing} {rest : List UInt8}
variable {t : FramedTransport Stream}

theorem splitLine_of_not_mem {bytes : List UInt8} (h : lineFeed ∉ bytes) :
    splitLine bytes = (bytes, []) := by
  induction bytes with
  | nil =>
      rfl
  | cons b bytes ih =>
      rw [List.mem_cons, not_or] at h
      rw [splitLine, if_neg (Ne.symm h.1), ih h.2]

theorem splitLine_snd_suffix (bytes : List UInt8) :
    (splitLine bytes).2 <:+ bytes := by
  induction bytes with
  | nil =>
      exact List.suffix_rfl
  | cons b bytes ih =>
      rw [splitLine]
      split
      · exact List.suffix_cons b bytes
      · exact ih.trans (List.suffix_cons b bytes)

/-- A scan waits for the line feed of a line that has room for it. -/
theorem scanLine_waiting_iff {maxLen seen : Nat} (hseen : seen ≤ maxLen) (closed : Bool)
    (bytes : List UInt8) :
    (scanLine maxLen closed seen (bytes.map .byte)).1 = .waiting ↔
      closed = false ∧ lineFeed ∉ bytes ∧ seen + bytes.length ≤ maxLen := by
  induction bytes generalizing seen with
  | nil =>
      cases closed with
      | true =>
          simp [scanLine]
      | false =>
          simpa [scanLine] using hseen
  | cons b bytes ih =>
      simp only [List.map_cons, scanLine, List.mem_cons, List.length_cons]
      by_cases hb : b = lineFeed
      · simp [hb]
      · by_cases hlong : maxLen < seen + 1
        · have hover : ¬ seen + (bytes.length + 1) ≤ maxLen := by
            omega
          simp [hb, hlong, hover]
        · have hrest := @ih (seen + 1) (by omega)
          have hlength : seen + 1 + bytes.length = seen + (bytes.length + 1) := by
            omega
          rw [hlength] at hrest
          simp only [if_neg hb, if_neg hlong, hrest, Ne.symm hb, false_or]

theorem checked_ne_running {u : FramedTransport Stream} (line : List UInt8) :
    (andThen (checkLen u line.length "line length") fun _ t => (decodeText line, t)).1 ≠
      .running := by
  unfold checkLen
  split
  · simp [desyncError, andThen]
  · exact decodeText_ne_running line

theorem readLine_running_iff (hcap : t.maxLen.val < usizeMax)
    (hitems : t.reader.items = rest.map .byte) :
    (readLine t).1 = .running ↔
      t.reader.closed = false ∧ lineFeed ∉ rest ∧ rest.length ≤ t.maxLen.val := by
  have hscan := scanLine_waiting_iff (Nat.zero_le t.maxLen.val) t.reader.closed rest
  rw [Nat.zero_add, ← hitems] at hscan
  rw [← hscan, readLine_eq hcap]
  simp only [lineOutcome, List.length_nil]
  generalize scanLine t.maxLen t.reader.closed 0 t.reader.items = scan
  obtain ⟨lineEnd, taken, items⟩ := scan
  cases lineEnd with
  | newline =>
      exact iff_of_false (checked_ne_running taken) (by simp)
  | eof =>
      refine iff_of_false ?_ (by simp)
      simp only [lineEndOutcome, List.nil_append]
      split
      · simp [andThen]
      · exact checked_ne_running taken
  | overlong =>
      simp [lineEndOutcome, desyncError, andThen]
  | failed err =>
      simp [lineEndOutcome, andThen]
  | waiting =>
      simp [lineEndOutcome, andThen]

theorem readFrameLine_running_iff :
    (readFrameLine t).1 = .running ↔ (readLine t).1 = .running := by
  unfold readFrameLine
  generalize readLine t = left
  obtain ⟨outcome, u⟩ := left
  cases outcome with
  | ok line =>
      rfl
  | err err =>
      simp only
      split
      · rfl
      · rfl
  | running =>
      rfl

end Lines

section Frames

variable {maxLen : Usize} {rest : List UInt8} {t : FramedTransport Stream}

/-- Headers of which the last line may lack its end are followed by nothing. -/
theorem body_of_not_mem {cap more : Nat} (h : lineFeed ∉ rest) {rest' : List UInt8}
    (hskip : skipHeaders cap more rest = .body rest') :
    rest' = [] := by
  obtain ⟨line, hne, hfits, hsome⟩ := line_of_skipHeaders hskip
  rw [skipHeaders_of_line hne hfits hsome, splitLine_of_not_mem h] at hskip
  split at hskip
  · cases hskip
    rfl
  · cases more with
    | zero =>
        cases hskip
    | succ more =>
        simp only [skipHeaders_nil] at hskip
        cases hskip

/-- A line of a frame that waits for its line feed. -/
theorem not_mem_of_readFrameLine_running
    (h : At maxLen .contentLength rest (t.mapReader Stream.closing)) (hcap : maxLen.val < usizeMax)
    (hwait : (readFrameLine t).1 = .running) :
    lineFeed ∉ rest := by
  have hcap' : t.maxLen.val < usizeMax := h.lt_usizeMax hcap
  have hitems : t.reader.items = rest.map .byte := h.items
  exact ((readLine_running_iff hcap' hitems).mp (readFrameLine_running_iff.mp hwait)).2.1

/-- One iteration of the header loop, when it may have to wait. -/
theorem readHeadersBody_waits
    {lines more : Nat} (hlines : lines + more = maxHeaderLines)
    (h : At maxLen .contentLength rest (t.mapReader Stream.closing))
    (hcap : maxLen.val < usizeMax) :
    (∃ left, readHeadersBody (lines, t) = .leave left ∧
      (left.1 = .running → lineFeed ∉ rest)) ∨
    (∃ more' t', readHeadersBody (lines, t) = .next (lines + 1, t') ∧
      lines + 1 + more' = maxHeaderLines ∧
      At maxLen .contentLength (splitLine rest).2 (t'.mapReader Stream.closing) ∧
      rest ≠ [] ∧
      skipHeaders maxLen more rest = skipHeaders maxLen more' (splitLine rest).2) := by
  have hnotMem := not_mem_of_readFrameLine_running h hcap
  have hline := readFrameLine_at h hcap
  have hclosing := readFrameLine_closing t
  unfold readHeadersBody
  simp only
  generalize readFrameLine t = call at hnotMem hclosing
  obtain ⟨outcome, u⟩ := call
  cases outcome with
  | running =>
      exact .inl ⟨_, rfl, fun _ => hnotMem rfl⟩
  | err err =>
      exact .inl ⟨_, rfl, by simp⟩
  | ok text =>
      rw [hclosing.resolve_left (by simp)] at hline
      obtain ⟨hne, hfits, hsome, hat⟩ := FrameLineRead.of_ok hline
      simp only
      split
      · exact .inl ⟨_, rfl, by simp⟩
      · rename_i hsolid
        split
        · exact .inl ⟨_, rfl, by simp [desyncError]⟩
        · cases more with
          | zero =>
              omega
          | succ more =>
              refine .inr ⟨more, u, rfl, by omega, hat, hne, ?_⟩
              rw [skipHeaders_of_line hne hfits hsome, if_neg hsolid]

/-- Headers that have to wait are followed by nothing. -/
theorem readHeaders_waits
    (h : At maxLen .contentLength rest (t.mapReader Stream.closing)) (hcap : maxLen.val < usizeMax)
    (hwait : (readHeaders t).1 = .running) {rest' : List UInt8}
    (hskip : skipHeaders maxLen (maxHeaderLines - 1) rest = .body rest') :
    rest' = [] := by
  obtain ⟨left, hrun, hleft⟩ :=
    Loop.run_total
      (readHeadersBody (R := Stream))
      (fun s => ∃ more bytes, s.1 + more = maxHeaderLines ∧
        At maxLen .contentLength bytes (s.2.mapReader Stream.closing) ∧
        skipHeaders maxLen more bytes = .body rest')
      (fun s => s.2.reader.items.length)
      (fun left => left.1 = .running → rest' = [])
      (by
        rintro ⟨lines, u⟩ ⟨more, bytes, hlines, hat, hbody⟩
        rcases readHeadersBody_waits hlines hat hcap with
          ⟨left, hleave, hrunning⟩ | ⟨more', u', hnext, hlines', hat', hne, hsame⟩
        · exact .inl ⟨left, hleave, fun h => body_of_not_mem (hrunning h) hbody⟩
        · refine .inr ⟨_, hnext, ⟨more', _, hlines', hat', hsame ▸ hbody⟩, ?_⟩
          have hlength : u.reader.items.length = bytes.length := hat.length_items
          have hlength' : u'.reader.items.length = (splitLine bytes).2.length := hat'.length_items
          simp only [hlength, hlength']
          exact splitLine_snd_length_lt hne)
      (s := (1, t)) ⟨maxHeaderLines - 1, rest, rfl, h, hskip⟩
      (Nat.lt_succ_self t.reader.items.length)
  have hfuel : fuel t = t.reader.items.length + 1 := by
    rfl
  simp only [readHeaders, hfuel, hrun] at hwait
  exact hleft hwait

theorem length_lt_of_scanBody_waiting {closed : Bool} {n : Nat} {bytes : List UInt8}
    (h : (scanBody closed n (bytes.map .byte)).1 = .waiting) :
    bytes.length < n := by
  induction n generalizing bytes with
  | zero =>
      simp [scanBody] at h
  | succ n ih =>
      cases bytes with
      | nil =>
          exact Nat.zero_lt_succ n
      | cons b bytes =>
          exact Nat.succ_lt_succ (ih h)

/-- A body that has to wait is not there in full. -/
theorem readFrameBody_waits {n : Nat} (hitems : t.reader.items = rest.map .byte)
    (hwait : (readFrameBody n t).1 = .running) :
    rest.length < n := by
  refine @length_lt_of_scanBody_waiting t.reader.closed n rest ?_
  rw [← hitems]
  simp only [readFrameBody, LineReader.collectBody] at hwait
  generalize scanBody t.reader.closed n t.reader.items = scan at hwait ⊢
  obtain ⟨bodyEnd, body, items⟩ := scan
  cases bodyEnd with
  | done =>
      simp only at hwait
      split at hwait
      · simp [desyncError] at hwait
      · exact absurd hwait (decodeText_ne_running body)
  | failed err =>
      simp at hwait
  | waiting =>
      rfl

/-- The decoder is at the end of the bytes, and did not come to bytes that are no text. -/
def AtEnd (out : Decoded × Decoder) : Prop :=
  out.2.rest = [] ∧ (out.1 = .invalidMessage → out.2.phase = .refused)

theorem atEnd_refuse : AtEnd refuse :=
  ⟨rfl, fun _ => rfl⟩

/-- After its opening line the bytes hold no frame. -/
theorem atEnd_decodeFrame_nil (cap : Nat) (first : String) :
    AtEnd (decodeFrame cap first []) := by
  rcases decodeFrame_cases cap first [] with hleft | ⟨-, hleft⟩ | ⟨n, body, -, hskip, -, -⟩
  · rw [hleft]
    exact atEnd_refuse
  · rw [hleft]
    exact ⟨rfl, by simp⟩
  · rw [skipHeaders_nil] at hskip
    cases hskip

theorem phase_decodeFrame (cap : Nat) (first : String) (rest : List UInt8) :
    (decodeFrame cap first rest).2.phase = .refused ∨
    (decodeFrame cap first rest).2.phase = .contentLength := by
  rcases decodeFrame_cases cap first rest with hleft | ⟨-, hleft⟩ | ⟨n, body, -, -, -, hleft⟩
  · rw [hleft]
    exact .inl rfl
  · rw [hleft]
    exact .inr rfl
  · rw [hleft]
    exact .inr rfl

/-- A frame that has to wait is one that the bytes do not hold in full. -/
theorem readContentLength_waits {first : String}
    (h : At maxLen .contentLength rest (t.mapReader Stream.closing)) (hcap : maxLen.val < usizeMax)
    (hwait : (readContentLength first t).1 = .running) :
    AtEnd (decodeFrame maxLen first rest) := by
  rcases decodeFrame_cases maxLen first rest with
    hdecode | ⟨-, hdecode⟩ | ⟨n, body, hdeclared, hskip, hfull, hdecode⟩
  · rw [hdecode]
    exact atEnd_refuse
  · rw [hdecode]
    exact ⟨rfl, by simp⟩
  · have hmax : t.maxLen = maxLen := h.cap
    have hlength := (@map_declaredLength_iff _ t first n).mpr (by rw [hmax]; exact hdeclared)
    rw [readContentLength_of_declared hlength] at hwait
    have hheaders := readHeaders_at h hcap
    rw [hskip] at hheaders
    rcases readHeaders_closing t with hrunning | hclosing
    · -- the headers wait, so the body is empty
      obtain rfl := readHeaders_waits h hcap hrunning hskip
      obtain rfl : n = 0 := by
        simpa using hfull
      have hempty : decodedText ([] : List UInt8) = .message "" := by
        rfl
      rw [hdecode]
      exact ⟨rfl, by simp [hempty]⟩
    · rw [hclosing] at hheaders
      generalize readHeaders t = call at hheaders hwait
      obtain ⟨outcome, u⟩ := call
      cases hheaders with
      | body hat =>
          have hitems : u.reader.items = body.map .byte := hat.items
          exact absurd (readFrameBody_waits hitems hwait) (Nat.not_lt.mpr hfull)

end Frames

section Texts

variable {maxLen : Usize} {bytes rest : List UInt8} {t : FramedTransport Stream}

/-- What was decoded of `bytes` is a text that is whole and not UTF-8: a body, or a line
that ended with its line feed or with the stream. -/
def Undecodable (closed : Bool) (bytes : List UInt8) (out : Decoded × Decoder) : Prop :=
  out.1 = .invalidMessage ∧ out.2.phase ≠ .refused ∧
    (closed = true ∨ out.2.phase = .contentLength ∨ out.2.rest ≠ [] ∨
      bytes.getLast? = some lineFeed)

/-- How a read of a stream that may be open ends, where the decoder gives `out` for the
bytes that are there. -/
structure ReadEnds (closed : Bool) (bytes : List UInt8) (out : Decoded × Decoder)
    (outcome : Outcome String) : Prop where
  waits : outcome = .running → out.2.rest = [] ∧ ¬ Undecodable closed bytes out
  returns : outcome ≠ .running → out.1 = .invalidMessage → out.2.phase ≠ .refused →
    Undecodable closed bytes out

theorem AtEnd.waits {closed : Bool} {out : Decoded × Decoder} (h : AtEnd out) :
    out.2.rest = [] ∧ ¬ Undecodable closed bytes out :=
  ⟨h.1, fun hbad => hbad.2.1 (h.2 hbad.1)⟩

/-- In frames a text that is no UTF-8 is a body. -/
theorem ends_of_frame {closed : Bool} {out : Decoded × Decoder} {outcome : Outcome String}
    (hphase : out.2.phase = .refused ∨ out.2.phase = .contentLength)
    (hwaits : outcome = .running → AtEnd out) :
    ReadEnds closed bytes out outcome where
  waits hrunning := (hwaits hrunning).waits
  returns _ hinvalid hkept := ⟨hinvalid, hkept, .inr (.inl (hphase.resolve_left hkept))⟩

/-- The line at the end of some bytes is followed by more, or ends them with its line
feed, if it has one. -/
theorem mem_lineFeed_iff (hsuffix : rest <:+ bytes) (hne : rest ≠ []) :
    lineFeed ∈ rest ↔ (splitLine rest).2 ≠ [] ∨ bytes.getLast? = some lineFeed := by
  have hlast : bytes.getLast? = rest.getLast? := by
    obtain ⟨before, rfl⟩ := hsuffix
    exact List.getLast?_append_of_ne_nil _ hne
  rw [hlast]
  constructor
  · intro hmem
    obtain ⟨body, after, rfl, hbody⟩ := List.eq_append_cons_of_mem hmem
    rw [splitLine_append hbody]
    by_cases hafter : after = []
    · subst hafter
      exact .inr (List.getLast?_concat ..)
    · exact .inl hafter
  · intro hends
    by_contra hmem
    rw [splitLine_of_not_mem hmem] at hends
    exact hmem (List.mem_of_getLast? (hends.resolve_left (by simp)))

/-- A line that is no UTF-8 is whole when it is read. -/
theorem undecodable_line_iff (hsuffix : rest <:+ bytes) (hne : rest ≠ []) {closed : Bool}
    {phase : Phase} (hphase : phase = .undecided ∨ phase = .newline) :
    Undecodable closed bytes (.invalidMessage, ⟨phase, (splitLine rest).2⟩) ↔
      closed = true ∨ lineFeed ∈ rest := by
  have hrefused : phase ≠ .refused := by
    rcases hphase with rfl | rfl <;> simp
  have hframe : phase ≠ .contentLength := by
    rcases hphase with rfl | rfl <;> simp
  simp only [Undecodable, mem_lineFeed_iff hsuffix hne, true_and, hrefused, hframe, ne_eq,
    not_false_eq_true, false_or]

/-- A line that is no UTF-8, in a stream where its read may have to wait. -/
theorem ends_of_undecodable_line (hcap : t.maxLen.val < usizeMax)
    (hitems : t.reader.items = rest.map .byte) (hsuffix : rest <:+ bytes) (hne : rest ≠ [])
    (hfits : ¬ t.maxLen.val < (splitLine rest).1.length) {phase : Phase}
    (hphase : phase = .undecided ∨ phase = .newline) {outcome : Outcome String}
    (houtcome : outcome = .running ↔ (readLine t).1 = .running) :
    ReadEnds t.reader.closed bytes (.invalidMessage, ⟨phase, (splitLine rest).2⟩) outcome := by
  have hrunning := readLine_running_iff hcap hitems
  refine ⟨?_, ?_⟩
  · intro hwait
    obtain ⟨hopen, hmem, -⟩ := hrunning.mp (houtcome.mp hwait)
    rw [undecodable_line_iff hsuffix hne hphase, splitLine_of_not_mem hmem]
    exact ⟨rfl, by simp [hopen, hmem]⟩
  · intro hreturns _ _
    rw [undecodable_line_iff hsuffix hne hphase]
    by_contra hnot
    obtain ⟨hopen, hmem⟩ := not_or.mp hnot
    rw [splitLine_of_not_mem hmem] at hfits
    exact hreturns (houtcome.mpr
      (hrunning.mpr ⟨by simpa using hopen, hmem, Nat.not_lt.mp hfits⟩))

theorem ends_of_text {closed : Bool} {out : Decoded × Decoder} {outcome : Outcome String}
    (htext : out.1 ≠ .invalidMessage) (hwaits : outcome = .running → out.2.rest = []) :
    ReadEnds closed bytes out outcome where
  waits hrunning := ⟨hwaits hrunning, fun hbad => htext hbad.1⟩
  returns _ hinvalid := absurd hinvalid htext

/-- A stream that was given up waits for nothing. -/
theorem ends_refuse {closed : Bool} {outcome : Outcome String} :
    ReadEnds closed bytes refuse outcome :=
  ends_of_frame (.inl rfl) fun _ => atEnd_refuse

/-- A line, in a stream where its read may have to wait, in newline framing. -/
theorem readNewline_ends
    (h : At maxLen .newline rest (t.mapReader Stream.closing)) (hcap : maxLen.val < usizeMax) :
    ReadEnds t.reader.closed rest (decodeNewline maxLen rest) (readNewline t).1 := by
  have hcap' : t.maxLen.val < usizeMax := h.lt_usizeMax hcap
  have hitems : t.reader.items = rest.map .byte := h.items
  have hmax : t.maxLen = maxLen := h.cap
  have hsame : (readNewline t).1 = .running ↔ (readLine t).1 = .running := by
    unfold readNewline
    generalize readLine t = call
    obtain ⟨outcome, u⟩ := call
    cases outcome with
    | _ =>
        simp [andThen]
  unfold decodeNewline
  split
  · exact ends_of_text (by simp) fun _ => rfl
  · rename_i hne
    split
    · exact ends_refuse
    · rename_i hfits
      split
      · exact ends_of_undecodable_line hcap' hitems List.suffix_rfl hne (hmax ▸ hfits) (.inr rfl)
          hsame
      · refine ends_of_text (by simp) fun hwait => ?_
        have hmem := ((readLine_running_iff hcap' hitems).mp (hsame.mp hwait)).2.1
        exact congrArg Prod.snd (splitLine_of_not_mem hmem)

/-- A frame, in a stream where its read may have to wait, in `Content-Length` framing. -/
theorem readFrame_ends
    (h : At maxLen .contentLength rest (t.mapReader Stream.closing))
    (hcap : maxLen.val < usizeMax) :
    ReadEnds t.reader.closed rest (decodeContentLength maxLen rest)
      (andThen (readFrameLine t) fun first u => readContentLength first u).1 := by
  have hnotMem := not_mem_of_readFrameLine_running h hcap
  have hline := readFrameLine_at h hcap
  have hclosing := readFrameLine_closing t
  generalize readFrameLine t = call at hnotMem hclosing
  unfold decodeContentLength
  split
  · exact ends_of_text (by simp) fun _ => rfl
  · rename_i hne
    split
    · exact ends_refuse
    · rename_i hfits
      split
      · exact ends_refuse
      · rename_i line hsome
        refine ends_of_frame (phase_decodeFrame _ _ _) fun hwait => ?_
        obtain ⟨outcome, u⟩ := call
        cases outcome with
        | running =>
            rw [splitLine_of_not_mem (hnotMem rfl)]
            exact atEnd_decodeFrame_nil _ _
        | err err =>
            simp [andThen] at hwait
        | ok text =>
            rw [hclosing.resolve_left (by simp)] at hline
            obtain ⟨-, -, hsome', hat⟩ := FrameLineRead.of_ok hline
            rw [hsome] at hsome'
            cases hsome'
            simp only [andThen] at hwait
            exact readContentLength_waits hat hcap hwait

/-- A line that has to wait while the framing is undecided. -/
theorem ends_of_waiting_line
    (h : At maxLen .auto rest (t.mapReader Stream.closing)) (hcap : maxLen.val < usizeMax)
    (hsuffix : rest <:+ bytes) (hwait : (readLine t).1 = .running) :
    ReadEnds t.reader.closed bytes (decodeUndecided maxLen rest) .running := by
  have hcap' : t.maxLen.val < usizeMax := h.lt_usizeMax hcap
  have hitems : t.reader.items = rest.map .byte := h.items
  have hmax : t.maxLen = maxLen := h.cap
  have hmem := ((readLine_running_iff hcap' hitems).mp hwait).2.1
  have hsplit : (splitLine rest).2 = [] :=
    congrArg Prod.snd (splitLine_of_not_mem hmem)
  rw [decodeUndecided]
  split
  · exact ends_of_text (by simp) fun _ => rfl
  · rename_i hne
    split
    · exact ends_refuse
    · rename_i hfits
      split
      · exact ends_of_undecodable_line hcap' hitems hsuffix hne (hmax ▸ hfits) (.inl rfl)
          (iff_of_true rfl hwait)
      · rename_i line _
        split
        · rw [hsplit, decodeUndecided, dif_pos rfl]
          exact ends_of_text (by simp) fun _ => rfl
        · split
          · refine ends_of_frame (phase_decodeFrame _ _ _) fun _ => ?_
            rw [hsplit]
            exact atEnd_decodeFrame_nil _ _
          · exact ends_of_text (by simp) fun _ => hsplit

/-- One iteration of `read_auto`, when it may have to wait. -/
theorem readAutoBody_ends
    (h : At maxLen .auto rest (t.mapReader Stream.closing)) (hcap : maxLen.val < usizeMax)
    (hsuffix : rest <:+ bytes) :
    (∃ left, readAutoBody t = .leave left ∧
      ReadEnds t.reader.closed bytes (decodeUndecided maxLen rest) left.1) ∨
    (∃ t', readAutoBody t = .next t' ∧
      rest ≠ [] ∧
      At maxLen .auto (splitLine rest).2 (t'.mapReader Stream.closing) ∧
      t'.reader.closed = t.reader.closed ∧
      decodeUndecided maxLen rest = decodeUndecided maxLen (splitLine rest).2) := by
  have hcap' : t.maxLen.val < usizeMax := h.lt_usizeMax hcap
  have hitems : t.reader.items = rest.map .byte := h.items
  have hmax : t.maxLen = maxLen := h.cap
  have hwaiting := ends_of_waiting_line h hcap hsuffix
  have hbad : rest ≠ [] → ¬ maxLen.val < (splitLine rest).1.length →
      ReadEnds t.reader.closed bytes (.invalidMessage, ⟨.undecided, (splitLine rest).2⟩)
        (readLine t).1 := by
    intro hne hfits
    rw [← hmax] at hfits
    exact ends_of_undecodable_line hcap' hitems hsuffix hne hfits (.inl rfl) Iff.rfl
  have hline := readLine_at h hcap
  have hclosing := readLine_closing t
  have hclosed := closed_readLine t
  unfold readAutoBody
  generalize readLine t = call at hwaiting hbad hclosing hclosed
  obtain ⟨outcome, u⟩ := call
  cases outcome with
  | running =>
      exact .inl ⟨_, rfl, hwaiting rfl⟩
  | err err =>
      refine .inl ⟨_, rfl, ?_⟩
      rw [hclosing.resolve_left (by simp)] at hline
      simp only [through] at hline
      generalize hleft : (Outcome.err err, u.mapReader Stream.closing) = left at hline
      rw [decodeUndecided]
      cases hline with
      | closed hnil hat =>
          rw [dif_pos hnil]
          exact ends_of_text (by simp) (by simp)
      | overlong hne hlong hgives =>
          rw [dif_neg hne, if_pos hlong]
          exact ends_refuse
      | undecodable hne hfits hnone hat =>
          simp only [dif_neg hne, if_neg hfits, hnone]
          exact hbad hne hfits
      | line hne hfits hsome hat =>
          cases hleft
  | ok text =>
      rw [hclosing.resolve_left (by simp)] at hline
      obtain ⟨hne, hfits, hsome, hat⟩ := LineRead.of_ok hline
      rw [decodeUndecided]
      simp only [dif_neg hne, if_neg hfits, hsome]
      have hblank := trim_trimCrlf_eq_empty_iff text
      by_cases hspace : text.toList.all isWhitespace = true
      · refine .inr ⟨u, ?_, hne, hat, hclosed, by rw [if_pos hspace]⟩
        simp only [if_pos (hblank.2 hspace)]
      · simp only [if_neg hspace, if_neg (mt hblank.1 hspace), contentLengthValue_trimCrlf]
        by_cases hheader : (contentLengthValue text).isSome = true
        · have hat' : At maxLen .contentLength (splitLine rest).2
              (FramedTransport.mapReader Stream.closing { u with framing := .contentLength }) :=
            ⟨hat.cap, rfl, hat.sync, hat.closed, hat.items⟩
          simp only [if_pos hheader]
          refine .inl ⟨_, rfl, ends_of_frame (phase_decodeFrame _ _ _) fun hwait => ?_⟩
          have hframe := readContentLength_waits hat' hcap hwait
          rw [decodeFrame_trimCrlf] at hframe
          exact hframe
        · simp only [if_neg hheader]
          exact .inl ⟨_, rfl, ends_of_text (by simp) (by simp)⟩

theorem readAuto_ends
    (h : At maxLen .auto rest (t.mapReader Stream.closing)) (hcap : maxLen.val < usizeMax) :
    ReadEnds t.reader.closed rest (decodeUndecided maxLen rest) (readAuto t).1 := by
  obtain ⟨left, hrun, hleft⟩ :=
    Loop.run_total
      (readAutoBody (R := Stream))
      (fun u => ∃ rest', At maxLen .auto rest' (u.mapReader Stream.closing) ∧
        rest' <:+ rest ∧ u.reader.closed = t.reader.closed ∧
        decodeUndecided maxLen rest' = decodeUndecided maxLen rest)
      (fun u => u.reader.items.length)
      (fun left => ReadEnds t.reader.closed rest (decodeUndecided maxLen rest) left.1)
      (by
        rintro u ⟨rest', hat, hsuffix, hclosed, hsame⟩
        rcases readAutoBody_ends hat hcap hsuffix with
          ⟨left, hbody, hleft⟩ | ⟨u', hbody, hne, hat', hclosed', hsame'⟩
        · rw [hclosed, hsame] at hleft
          exact .inl ⟨left, hbody, hleft⟩
        · refine .inr ⟨u', hbody, ⟨_, hat', ?_, hclosed'.trans hclosed, hsame' ▸ hsame⟩, ?_⟩
          · exact (splitLine_snd_suffix rest').trans hsuffix
          · have hlength : u.reader.items.length = rest'.length := hat.length_items
            have hlength' : u'.reader.items.length = (splitLine rest').2.length :=
              hat'.length_items
            simp only [hlength, hlength']
            exact splitLine_snd_length_lt hne)
      ⟨rest, h, List.suffix_rfl, rfl, rfl⟩
      (Nat.lt_succ_self t.reader.items.length)
  have hfuel : fuel t = t.reader.items.length + 1 := by
    rfl
  simp only [readAuto, hfuel, hrun]
  exact hleft

/-- A read waits only where the decoder comes to the end of what is there, and reports a
text that is not UTF-8 only once it is whole. -/
theorem readMessage_ends {d : Decoder} (h : Tracks maxLen (t.mapReader Stream.closing) d)
    (hcap : maxLen.val < usizeMax) :
    ReadEnds t.reader.closed d.rest (decode maxLen d) (readMessage t).1 := by
  generalize hu : t.mapReader Stream.closing = u at h
  cases h with
  | refused hdesync =>
      subst hu
      obtain ⟨reason, hreason⟩ := Option.isSome_iff_exists.mp hdesync
      have hreason' : t.desync = some reason := hreason
      rw [readMessage_of_desync hreason']
      exact ⟨by simp, fun _ _ hkept => absurd rfl hkept⟩
  | @synced phase framing rest hphase hat =>
      subst hu
      have hsync : t.desync = none := hat.sync
      have hframing : t.framing = framing := hat.framing
      simp only [readMessage, hsync, hframing]
      cases phase with
      | undecided =>
          cases hphase
          exact readAuto_ends hat hcap
      | newline =>
          cases hphase
          exact readNewline_ends hat hcap
      | refused =>
          cases hphase
      | contentLength =>
          cases hphase
          exact readFrame_ends hat hcap

end Texts

end Transport
end McpCore
