import McpCore.Decoding

/-!
# What a read consumes

`Boundary` says of the bytes consumed so far that they are complete lines and
complete frames, so that what follows may start a message.  A read of a closed
stream from there leaves the transport at rest (`Rests`): at such a boundary
again, or with its stream given up, or with nothing left to read.

There is one exception: an I/O failure after some bytes of a line, while no
frame is open (`BreaksOff`).
-/

namespace McpCore
namespace Transport

open Text

section Wholes

/-- A complete line: its only line feed is its last byte. -/
inductive IsLine : List UInt8 → Prop
  | mk {body : List UInt8} (hbody : lineFeed ∉ body) : IsLine (body ++ [lineFeed])

/-- A complete line that is the encoding of `text`. -/
structure Says (line : List UInt8) (text : String) : Prop where
  ends : IsLine line
  decodes : decodeUtf8 line = some text

/-- A complete line that is passed over while the framing is undetected: it is
white space, or it is not UTF-8. -/
structure IsSkipped (line : List UInt8) : Prop where
  ends : IsLine line
  blank : ∀ text, decodeUtf8 line = some text → trim (trimCrlf text) = ""

/-- The lines of a frame after its opening line, the blank one included. -/
inductive IsHeaders : List UInt8 → Prop
  | blank {line text} (hline : Says line text) (hblank : trimCrlf text = "") :
      IsHeaders line
  | header {line text rest} (hline : Says line text) (hrest : IsHeaders rest) :
      IsHeaders (line ++ rest)

/-- A complete frame whose declared length is within the cap. -/
inductive IsFrame (maxLen : Nat) : List UInt8 → Prop
  | mk {opening text value headers body} {n : Nat}
      (hopening : Says opening text)
      (hvalue : contentLengthValue text = some value)
      (hdeclared : declaredValue maxLen value = some n)
      (hheaders : IsHeaders headers)
      (hbody : body.length = n) :
      IsFrame maxLen (opening ++ headers ++ body)

/-- The bytes consumed in `framing` are complete lines and frames. -/
inductive Boundary (maxLen : Nat) : Framing → List UInt8 → Prop
  | start (framing) : Boundary maxLen framing []
  | skipped {bytes line} (h : Boundary maxLen .auto bytes) (hline : IsSkipped line) :
      Boundary maxLen .auto (bytes ++ line)
  | firstLine {bytes line} (h : Boundary maxLen .auto bytes) (hline : IsLine line) :
      Boundary maxLen .newline (bytes ++ line)
  | line {bytes line} (h : Boundary maxLen .newline bytes) (hline : IsLine line) :
      Boundary maxLen .newline (bytes ++ line)
  | firstFrame {bytes frame} (h : Boundary maxLen .auto bytes)
      (hframe : IsFrame maxLen frame) : Boundary maxLen .contentLength (bytes ++ frame)
  | frame {bytes frame} (h : Boundary maxLen .contentLength bytes)
      (hframe : IsFrame maxLen frame) : Boundary maxLen .contentLength (bytes ++ frame)

/-- Outside frames, a boundary comes right after a line feed. -/
theorem Boundary.eq_nil_or_concat
    {maxLen : Nat} {framing : Framing} {bytes : List UInt8}
    (h : Boundary maxLen framing bytes) (hframing : framing ≠ .contentLength) :
    bytes = [] ∨ ∃ before, bytes = before ++ [lineFeed] := by
  have hline : ∀ {bytes line : List UInt8}, IsLine line →
      ∃ before, bytes ++ line = before ++ [lineFeed] := by
    rintro bytes _ ⟨_⟩
    exact ⟨_, (List.append_assoc ..).symm⟩
  cases h with
  | start =>
      exact Or.inl rfl
  | skipped h hskipped =>
      exact Or.inr (hline hskipped.ends)
  | firstLine h hend =>
      exact Or.inr (hline hend)
  | line h hend =>
      exact Or.inr (hline hend)
  | firstFrame h hframe =>
      exact absurd rfl hframing
  | frame h hframe =>
      exact absurd rfl hframing

/-- An I/O failure comes after some bytes of a line and before its end, while no
frame is open, and the stream goes on after it. -/
inductive BreaksOff (maxLen : Nat) : Framing → List Item → Prop
  | here {framing body err rest} (hframing : framing ≠ .contentLength)
      (hbody : lineFeed ∉ body) (hne : body ≠ []) (hlen : body.length ≤ maxLen)
      (hrest : rest ≠ []) :
      BreaksOff maxLen framing (body.map .byte ++ .fail err :: rest)
  | skip {line text rest} (hline : Says line text) (hblank : trim (trimCrlf text) = "")
      (hlen : line.length ≤ maxLen) (h : BreaksOff maxLen .auto rest) :
      BreaksOff maxLen .auto (line.map .byte ++ rest)

end Wholes

section Lines

/-- How a scan of a closed stream ends. -/
inductive Scanned (maxLen seen : Nat) (items : List Item) :
    LineEnd × List UInt8 × List Item → Prop
  | newline {body rest} (hbody : lineFeed ∉ body)
      (hitems : items = (body ++ [lineFeed]).map .byte ++ rest) :
      Scanned maxLen seen items (.newline, body ++ [lineFeed], rest)
  | eof {body} (hitems : items = body.map .byte) : Scanned maxLen seen items (.eof, body, [])
  | overlong {taken rest} : Scanned maxLen seen items (.overlong, taken, rest)
  | failed {body err rest} (hbody : lineFeed ∉ body) (hlen : seen + body.length ≤ maxLen)
      (hitems : items = body.map .byte ++ .fail err :: rest) :
      Scanned maxLen seen items (.failed err, body, rest)

theorem scanned
    {maxLen seen : Nat} (hseen : seen ≤ maxLen) (items : List Item) :
    Scanned maxLen seen items (scanLine maxLen true seen items) := by
  induction items generalizing seen with
  | nil =>
      exact .eof rfl
  | cons item items ih =>
      cases item with
      | fail err =>
          exact .failed (by simp) (by simpa using hseen) rfl
      | byte b =>
          simp only [scanLine]
          by_cases hb : b = lineFeed
          · rw [if_pos hb, hb]
            exact @Scanned.newline _ _ _ [] _ (by simp) rfl
          · rw [if_neg hb]
            by_cases hlen : maxLen < seen + 1
            · rw [if_pos hlen]
              exact .overlong
            · rw [if_neg hlen]
              have h := @ih (seen + 1) (by omega)
              generalize scanLine maxLen true (seen + 1) items = scan at h
              cases h with
              | newline hbody hitems =>
                  exact @Scanned.newline _ _ _ (b :: _) _ (by simp [hbody, Ne.symm hb])
                    (by simp [hitems])
              | eof hitems =>
                  exact .eof (by simp [hitems])
              | overlong =>
                  exact .overlong
              | failed hbody hroom hitems =>
                  refine .failed (by simp [hbody, Ne.symm hb]) ?_ (by simp [hitems])
                  simp only [List.length_cons]
                  omega

/-- A synchronised transport over a stream its peer closes. -/
structure Reading (maxLen : Usize) (framing : Framing) (consumed : List UInt8)
    (t : FramedTransport Stream) : Prop where
  cap : t.maxLen = maxLen
  framing : t.framing = framing
  sync : t.desync = none
  closed : t.reader.closed = true
  consumed : t.reader.consumed = consumed

variable {maxLen : Usize} {framing : Framing} {consumed : List UInt8}
variable {t : FramedTransport Stream}

theorem Reading.advance
    (h : Reading maxLen framing consumed t) (taken : List UInt8) (items : List Item) :
    Reading maxLen framing (consumed ++ taken) (advance t taken items) :=
  ⟨h.cap, h.framing, h.sync, h.closed, congrArg (· ++ taken) h.consumed⟩

/-- What reading a line does to a stream. -/
inductive LineTaken (maxLen : Usize) (framing : Framing) (consumed : List UInt8)
    (items : List Item) : Outcome String × FramedTransport Stream → Prop
  | lost {reason} {t' : FramedTransport Stream} (hdesync : t'.desync.isSome) :
      LineTaken maxLen framing consumed items (.err (invalidMessage reason), t')
  | line {line t'} (hline : IsLine line) (hlen : line.length ≤ maxLen.val)
      (hitems : items = line.map .byte ++ t'.reader.items)
      (h : Reading maxLen framing (consumed ++ line) t') :
      LineTaken maxLen framing consumed items (decodeText line, t')
  | last {consumed' line t'} (hne : items ≠ []) (hitems : t'.reader.items = [])
      (h : Reading maxLen framing consumed' t') :
      LineTaken maxLen framing consumed items (decodeText line, t')
  | ended {consumed' t'} (hitems : t'.reader.items = [])
      (h : Reading maxLen framing consumed' t') :
      LineTaken maxLen framing consumed items (.err (.transport .connectionClosed), t')
  | interrupted {body err t'} (hbody : lineFeed ∉ body) (hlen : body.length ≤ maxLen.val)
      (hitems : items = body.map .byte ++ .fail err :: t'.reader.items)
      (h : Reading maxLen framing (consumed ++ body) t') :
      LineTaken maxLen framing consumed items (.err (.io err), t')

/-- The check after the loop of `read_line`, and the decoding. -/
theorem lineTaken_of_checked
    {consumed' line : List UInt8} {items : List Item}
    (h : Reading maxLen framing consumed' t)
    (hfits : line.length ≤ maxLen.val →
      LineTaken maxLen framing consumed items (decodeText line, t)) :
    LineTaken maxLen framing consumed items
      (andThen (checkLen t line.length "line length") fun _ t => (decodeText line, t)) := by
  unfold checkLen
  rw [h.cap]
  split
  · exact .lost rfl
  · exact hfits (by omega)

theorem Reading.lt_usizeMax
    (h : Reading maxLen framing consumed t) (hcap : maxLen.val < usizeMax) :
    t.maxLen.val < usizeMax := by
  rw [h.cap]
  exact hcap

theorem readLine_taken
    (h : Reading maxLen framing consumed t) (hcap : maxLen.val < usizeMax) :
    LineTaken maxLen framing consumed t.reader.items (readLine t) := by
  have hscan := scanned (Nat.zero_le maxLen.val) t.reader.items
  rw [← h.cap, ← h.closed] at hscan
  rw [readLine_eq (h.lt_usizeMax hcap)]
  simp only [lineOutcome, List.length_nil]
  generalize scanLine t.maxLen t.reader.closed 0 t.reader.items = scan at hscan
  cases hscan with
  | @newline body rest hbody hitems =>
      have hread := h.advance (body ++ [lineFeed]) rest
      exact lineTaken_of_checked hread fun hlen => .line (.mk hbody) hlen hitems hread
  | @eof body hitems =>
      have hread := h.advance body []
      simp only [lineEndOutcome, List.nil_append]
      split
      · exact .ended rfl hread
      · rename_i hne
        have hitems' : t.reader.items ≠ [] := by
          simpa [hitems] using hne
        exact lineTaken_of_checked hread fun _ => .last hitems' rfl hread
  | overlong =>
      exact .lost rfl
  | @failed body err rest hbody hlen hitems =>
      rw [h.cap] at hlen
      exact .interrupted hbody (by omega) hitems (h.advance body rest)

end Lines

section Frames

variable {maxLen : Usize} {framing : Framing} {consumed : List UInt8}
variable {t : FramedTransport Stream}

/-- Where a read of a closed stream may leave the transport: it has given the
stream up, or used it up, or consumed complete lines and frames. -/
inductive Rests (maxLen : Usize) : FramedTransport Stream → Prop
  | lost {t : FramedTransport Stream} (hdesync : t.desync.isSome) : Rests maxLen t
  | exhausted {framing : Framing} {consumed : List UInt8} {t : FramedTransport Stream}
      (h : Reading maxLen framing consumed t) (hitems : t.reader.items = []) : Rests maxLen t
  | whole {framing : Framing} {consumed : List UInt8} {t : FramedTransport Stream}
      (h : Reading maxLen framing consumed t) (hboundary : Boundary maxLen framing consumed) :
      Rests maxLen t

/-- A call that returns and leaves the transport so. -/
structure Comes (maxLen : Usize) {α : Type} (left : Outcome α × FramedTransport Stream) :
    Prop where
  returned : left.1 ≠ .running
  rests : Rests maxLen left.2

theorem decodeText_ne_running (bytes : List UInt8) :
    decodeText bytes ≠ .running := by
  unfold decodeText
  split
  · simp
  · simp

/-- What reading a line of a frame does to a stream. -/
inductive FrameLineTaken (maxLen : Usize) (framing : Framing) (consumed : List UInt8)
    (items : List Item) : Outcome String × FramedTransport Stream → Prop
  | lost {err} {t' : FramedTransport Stream} (hdesync : t'.desync.isSome) :
      FrameLineTaken maxLen framing consumed items (.err err, t')
  | line {line text t'} (hline : Says line text)
      (hlt : t'.reader.items.length < items.length)
      (h : Reading maxLen framing (consumed ++ line) t') :
      FrameLineTaken maxLen framing consumed items (.ok text, t')
  | last {consumed' text t'} (hne : items ≠ []) (hitems : t'.reader.items = [])
      (h : Reading maxLen framing consumed' t') :
      FrameLineTaken maxLen framing consumed items (.ok text, t')
  | ended {consumed' err t'} (hitems : t'.reader.items = [])
      (h : Reading maxLen framing consumed' t') :
      FrameLineTaken maxLen framing consumed items (.err err, t')

theorem IsLine.ne_nil {line : List UInt8} (h : IsLine line) : line ≠ [] := by
  cases h with
  | mk hbody =>
      simp

theorem length_lt_of_line
    {items rest : List Item} {line : List UInt8} (hline : IsLine line)
    (hitems : items = line.map .byte ++ rest) :
    rest.length < items.length := by
  have := List.length_pos_of_ne_nil hline.ne_nil
  rw [hitems, List.length_append, List.length_map]
  omega

theorem readFrameLine_taken
    (h : Reading maxLen framing consumed t) (hcap : maxLen.val < usizeMax) :
    FrameLineTaken maxLen framing consumed t.reader.items (readFrameLine t) := by
  have hline := readLine_taken h hcap
  unfold readFrameLine
  generalize readLine t = left at hline ⊢
  cases hline with
  | lost hdesync =>
      exact .lost (by simp [poison])
  | @line line t' hends hlen hitems h =>
      cases htext : decodeUtf8 line with
      | some text =>
          rw [decodeText_of_some htext]
          exact .line ⟨hends, htext⟩ (length_lt_of_line hends hitems) h
      | none =>
          obtain ⟨reason, herr⟩ := decodeText_of_none htext
          rw [herr]
          exact .lost rfl
  | @last consumed' line t' hne hitems h =>
      cases htext : decodeUtf8 line with
      | some text =>
          rw [decodeText_of_some htext]
          exact .last hne hitems h
      | none =>
          obtain ⟨reason, herr⟩ := decodeText_of_none htext
          rw [herr]
          exact .lost rfl
  | ended hitems h =>
      exact .ended hitems h
  | interrupted hbody hlen hitems h =>
      exact .lost rfl

/-- What reading the headers of a frame does to a stream. -/
inductive HeadersTaken (maxLen : Usize) (consumed : List UInt8) :
    Outcome Unit × FramedTransport Stream → Prop
  | lost {err} {t' : FramedTransport Stream} (hdesync : t'.desync.isSome) :
      HeadersTaken maxLen consumed (.err err, t')
  | headers {headers t'} (hheaders : IsHeaders headers)
      (h : Reading maxLen .contentLength (consumed ++ headers) t') :
      HeadersTaken maxLen consumed (.ok (), t')
  | last {consumed' t'} (hitems : t'.reader.items = [])
      (h : Reading maxLen .contentLength consumed' t') :
      HeadersTaken maxLen consumed (.ok (), t')
  | ended {consumed' err t'} (hitems : t'.reader.items = [])
      (h : Reading maxLen .contentLength consumed' t') :
      HeadersTaken maxLen consumed (.err err, t')

/-- In the middle of the headers: what was consumed only lacks more headers, or
the stream is used up. -/
inductive InHeaders (maxLen : Usize) (consumed : List UInt8) :
    FramedTransport Stream → Prop
  | some {before t} (hmore : ∀ more, IsHeaders more → IsHeaders (before ++ more))
      (h : Reading maxLen .contentLength (consumed ++ before) t) :
      InHeaders maxLen consumed t
  | last {consumed' t} (hitems : t.reader.items = [])
      (h : Reading maxLen .contentLength consumed' t) : InHeaders maxLen consumed t

theorem InHeaders.reading
    (h : InHeaders maxLen consumed t) :
    ∃ consumed', Reading maxLen .contentLength consumed' t := by
  cases h with
  | some _ h =>
      exact ⟨_, h⟩
  | last _ h =>
      exact ⟨_, h⟩

theorem readHeadersBody_taken
    (lines : Nat) (h : InHeaders maxLen consumed t) (hcap : maxLen.val < usizeMax) :
    (∃ left, readHeadersBody (lines, t) = .leave left ∧ HeadersTaken maxLen consumed left) ∨
    (∃ s, readHeadersBody (lines, t) = .next s ∧ InHeaders maxLen consumed s.2 ∧
      s.2.reader.items.length < t.reader.items.length) := by
  obtain ⟨consumed', hread⟩ := h.reading
  have hline := readFrameLine_taken hread hcap
  unfold readHeadersBody
  simp only
  generalize readFrameLine t = left at hline ⊢
  cases hline with
  | lost hdesync =>
      exact Or.inl ⟨_, rfl, .lost hdesync⟩
  | ended hitems hread' =>
      exact Or.inl ⟨_, rfl, .ended hitems hread'⟩
  | last hne hitems hread' =>
      simp only
      split
      · exact Or.inl ⟨_, rfl, .last hitems hread'⟩
      · split
        · exact Or.inl ⟨_, rfl, .lost rfl⟩
        · refine Or.inr ⟨_, rfl, .last hitems hread', ?_⟩
          rw [hitems]
          exact List.length_pos_of_ne_nil hne
  | @line line text t' hline hlt hread' =>
      -- a line read after the stream was used up would have been its end
      have hsome : ∃ before, (∀ more, IsHeaders more → IsHeaders (before ++ more)) ∧
          consumed' = consumed ++ before := by
        cases h with
        | @some before _ hmore hread'' =>
            exact ⟨before, hmore, hread.consumed.symm.trans hread''.consumed⟩
        | last hitems _ =>
            rw [hitems] at hlt
            simp at hlt
      obtain ⟨before, hmore, rfl⟩ := hsome
      rw [List.append_assoc] at hread'
      simp only
      split
      · rename_i hblank
        exact Or.inl ⟨_, rfl, .headers (hmore _ (.blank hline hblank)) hread'⟩
      · split
        · exact Or.inl ⟨_, rfl, .lost rfl⟩
        · refine Or.inr ⟨_, rfl, .some ?_ hread', hlt⟩
          intro more hheaders
          rw [List.append_assoc]
          exact hmore _ (.header hline hheaders)

theorem readHeaders_taken
    (h : InHeaders maxLen consumed t) (hcap : maxLen.val < usizeMax) :
    HeadersTaken maxLen consumed (readHeaders t) := by
  obtain ⟨left, hrun, hleft⟩ :=
    Loop.run_total (readHeadersBody (R := Stream))
      (fun s => InHeaders maxLen consumed s.2) (fun s => s.2.reader.items.length)
      (HeadersTaken maxLen consumed)
      (fun s hs => readHeadersBody_taken s.1 hs hcap)
      (s := (1, t)) h (Nat.lt_succ_self t.reader.items.length)
  have hfuel : fuel t = t.reader.items.length + 1 := by
    rfl
  simp only [readHeaders, hfuel, hrun]
  exact hleft

theorem scanBody_closed (n : Nat) (items : List Item) :
    ∃ bodyEnd taken rest, scanBody true n items = (bodyEnd, taken, rest) ∧
      bodyEnd ≠ .waiting ∧ (items = [] → rest = []) := by
  induction n generalizing items with
  | zero =>
      exact ⟨.done, [], items, rfl, by simp, id⟩
  | succ n ih =>
      cases items with
      | nil =>
          exact ⟨.done, [], [], rfl, by simp, id⟩
      | cons item items =>
          cases item with
          | fail err =>
              exact ⟨.failed err, [], items, rfl, by simp, by simp⟩
          | byte b =>
              obtain ⟨bodyEnd, taken, rest, hscan, hwait, _⟩ := ih items
              exact ⟨bodyEnd, b :: taken, rest, by simp [scanBody, hscan], hwait, by simp⟩

/-- What reading a body does to a stream. -/
inductive BodyTaken (maxLen : Usize) (consumed : List UInt8) (n : Nat) (items : List Item) :
    Outcome String × FramedTransport Stream → Prop
  | lost {err} {t' : FramedTransport Stream} (hdesync : t'.desync.isSome) :
      BodyTaken maxLen consumed n items (.err err, t')
  | body {body t'} (hlen : body.length = n)
      (hitems : items = [] → t'.reader.items = [])
      (h : Reading maxLen .contentLength (consumed ++ body) t') :
      BodyTaken maxLen consumed n items (decodeText body, t')

theorem readFrameBody_taken
    (n : Nat) (h : Reading maxLen .contentLength consumed t) :
    BodyTaken maxLen consumed n t.reader.items (readFrameBody n t) := by
  obtain ⟨bodyEnd, taken, rest, hscan, hwait, hitems⟩ := scanBody_closed n t.reader.items
  rw [← h.closed] at hscan
  simp only [readFrameBody, LineReader.collectBody, hscan]
  cases bodyEnd with
  | waiting =>
      exact absurd rfl hwait
  | failed err =>
      exact .lost rfl
  | done =>
      simp only
      split
      · exact .lost rfl
      · rename_i hlen
        exact .body (Decidable.not_not.mp hlen) hitems (h.advance taken rest)

/-- A frame whose opening line was consumed after `before`. -/
theorem readContentLength_comes
    {before opening : List UInt8} {text first : String}
    (hbefore : ∀ frame, IsFrame maxLen frame →
      Boundary maxLen .contentLength (before ++ frame))
    (hopening : Says opening text)
    (hfirst : contentLengthValue first = contentLengthValue text)
    (h : Reading maxLen .contentLength (before ++ opening) t) (hcap : maxLen.val < usizeMax) :
    Comes maxLen (readContentLength first t) := by
  rcases readContentLength_cases first t with ⟨n, hlength, hleft⟩ | ⟨reason, hleft⟩
  · obtain ⟨value, hvalue, hok⟩ := Option.map_eq_some_iff.mp hlength
    have hdeclared := declaredValue_of_declaredLength hok
    rw [h.cap] at hdeclared
    rw [hfirst] at hvalue
    have hinside : InHeaders maxLen (before ++ opening) t :=
      @InHeaders.some _ _ [] _ (fun _ h => h) (by simpa using h)
    have hheaders := readHeaders_taken hinside hcap
    rw [hleft]
    generalize readHeaders t = left at hheaders
    cases hheaders with
    | lost hdesync =>
        exact ⟨by simp [andThen], .lost hdesync⟩
    | ended hitems h =>
        exact ⟨by simp [andThen], .exhausted h hitems⟩
    | @last _ u hitems h =>
        have hbody := readFrameBody_taken n h
        simp only [andThen]
        generalize readFrameBody n u = left at hbody ⊢
        cases hbody with
        | lost hdesync =>
            exact ⟨by simp, .lost hdesync⟩
        | body hlen hitems' h' =>
            exact ⟨decodeText_ne_running _, .exhausted h' (hitems' hitems)⟩
    | @headers _ u hheaders h =>
        have hbody := readFrameBody_taken n h
        simp only [andThen]
        generalize readFrameBody n u = left at hbody ⊢
        cases hbody with
        | lost hdesync =>
            exact ⟨by simp, .lost hdesync⟩
        | body hlen hitems' h' =>
            refine ⟨decodeText_ne_running _, .whole h' ?_⟩
            have hframe := hbefore _
              (.mk hopening hvalue hdeclared hheaders hlen)
            simpa [List.append_assoc] using hframe
  · rw [hleft]
    exact ⟨by simp [desyncError], .lost rfl⟩

/-- A frame whose opening line used the stream up. -/
theorem readContentLength_exhausted
    (first : String) (hitems : t.reader.items = [])
    (h : Reading maxLen .contentLength consumed t) (hcap : maxLen.val < usizeMax) :
    Comes maxLen (readContentLength first t) := by
  have hline := readFrameLine_taken h hcap
  have hheaders : ∃ err u, readHeaders t = (.err err, u) ∧ Rests maxLen u := by
    have hfuel : fuel t = 0 + 1 := by
      simp [fuel, LineReader.size, hitems]
    unfold readHeaders
    rw [hfuel]
    generalize hread : readFrameLine t = left at hline
    cases hline with
    | @lost err u hdesync =>
        refine ⟨err, u, ?_, .lost hdesync⟩
        simp only [Loop.run, readHeadersBody, hread]
    | @ended consumed' err u hitems' h' =>
        refine ⟨err, u, ?_, .exhausted h' hitems'⟩
        simp only [Loop.run, readHeadersBody, hread]
    | line hline hlt h' =>
        simp [hitems] at hlt
    | last hne hitems' h' =>
        exact absurd hitems hne
  obtain ⟨err, u, hread, hrests⟩ := hheaders
  rcases readContentLength_cases first t with ⟨declared, -, hleft⟩ | ⟨reason, hleft⟩
  · rw [hleft, hread]
    exact ⟨by simp [andThen], hrests⟩
  · rw [hleft]
    exact ⟨by simp [desyncError], .lost rfl⟩

end Frames

section Messages

variable {maxLen : Usize} {framing : Framing} {consumed : List UInt8}
variable {t : FramedTransport Stream}

/-- An I/O failure that does not break off a line leaves the transport at rest. -/
theorem rests_of_interrupted
    {body : List UInt8} {err : IoError}
    (hframing : framing ≠ .contentLength)
    (hboundary : Boundary maxLen framing consumed)
    (hbody : lineFeed ∉ body) (hlen : body.length ≤ maxLen.val)
    (hno : ¬ BreaksOff maxLen framing (body.map .byte ++ .fail err :: t.reader.items))
    (h : Reading maxLen framing (consumed ++ body) t) :
    Rests maxLen t := by
  by_cases hne : body = []
  · subst body
    rw [List.append_nil] at h
    exact .whole h hboundary
  · by_cases hitems : t.reader.items = []
    · exact .exhausted h hitems
    · exact absurd (.here hframing hbody hne hlen hitems) hno

/-- A fully consumed line, decoded and passed on. -/
theorem comes_decodeText
    (line : List UInt8) (f : String → String) (hrests : Rests maxLen t) :
    Comes maxLen (andThen (decodeText line, t) fun text u => (.ok (f text), u)) := by
  have hreturned := decodeText_ne_running line
  generalize decodeText line = outcome at hreturned ⊢
  cases outcome with
  | ok text =>
      exact ⟨by simp [andThen], hrests⟩
  | err err =>
      exact ⟨by simp [andThen], hrests⟩
  | running =>
      exact absurd rfl hreturned

theorem readNewline_comes
    (h : Reading maxLen .newline consumed t) (hcap : maxLen.val < usizeMax)
    (hboundary : Boundary maxLen .newline consumed)
    (hno : ¬ BreaksOff maxLen .newline t.reader.items) :
    Comes maxLen (readNewline t) := by
  have hline := readLine_taken h hcap
  unfold readNewline
  generalize readLine t = left at hline ⊢
  cases hline with
  | lost hdesync =>
      exact ⟨by simp [andThen], .lost hdesync⟩
  | @line line u hends hlen hitems h =>
      exact comes_decodeText line trimCrlf (.whole h (.line hboundary hends))
  | @last _ line u hne hitems h =>
      exact comes_decodeText line trimCrlf (.exhausted h hitems)
  | ended hitems h =>
      exact ⟨by simp [andThen], .exhausted h hitems⟩
  | @interrupted body err u hbody hlen hitems h =>
      rw [hitems] at hno
      exact ⟨by simp [andThen], rests_of_interrupted (by simp) hboundary hbody hlen hno h⟩

/-- Undetected framing, with only complete lines consumed or nothing left. -/
inductive InAuto (maxLen : Usize) : FramedTransport Stream → Prop
  | whole {consumed : List UInt8} {t : FramedTransport Stream}
      (h : Reading maxLen .auto consumed t)
      (hboundary : Boundary maxLen .auto consumed)
      (hno : ¬ BreaksOff maxLen .auto t.reader.items) : InAuto maxLen t
  | last {consumed : List UInt8} {t : FramedTransport Stream}
      (h : Reading maxLen .auto consumed t)
      (hitems : t.reader.items = []) : InAuto maxLen t

theorem Reading.setFraming
    (h : Reading maxLen framing consumed t) (framing' : Framing) :
    Reading maxLen framing' consumed { t with framing := framing' } :=
  ⟨h.cap, rfl, h.sync, h.closed, h.consumed⟩

section AutoLine

variable {line : List UInt8} {u : FramedTransport Stream}

/-- `read_auto` on the last line, without its line feed. -/
theorem readAutoBody_last
    (hread : readLine t = (decodeText line, u)) (hne : t.reader.items ≠ [])
    (h : Reading maxLen .auto consumed u) (hitems : u.reader.items = [])
    (hcap : maxLen.val < usizeMax) :
    (∃ left, readAutoBody t = .leave left ∧ Comes maxLen left) ∨
    (∃ u, readAutoBody t = .next u ∧ InAuto maxLen u ∧
      u.reader.items.length < t.reader.items.length) := by
  unfold readAutoBody
  rw [hread]
  cases htext : decodeUtf8 line with
  | none =>
      obtain ⟨reason, herr⟩ := decodeText_of_none htext
      rw [herr]
      exact Or.inl ⟨_, rfl, by simp, .exhausted h hitems⟩
  | some text =>
      rw [decodeText_of_some htext]
      simp only
      split
      · refine Or.inr ⟨u, rfl, .last h hitems, ?_⟩
        rw [hitems]
        exact List.length_pos_of_ne_nil hne
      · split
        · exact Or.inl ⟨_, rfl,
            readContentLength_exhausted _ hitems (h.setFraming .contentLength) hcap⟩
        · exact Or.inl ⟨_, rfl, by simp, .exhausted (h.setFraming .newline) hitems⟩

/-- `read_auto` on a complete line: it is passed over, opens a frame, or is the
first message. -/
theorem readAutoBody_line
    (hread : readLine t = (decodeText line, u))
    (hboundary : Boundary maxLen .auto consumed)
    (hno : ¬ BreaksOff maxLen .auto t.reader.items)
    (hends : IsLine line) (hlen : line.length ≤ maxLen.val)
    (hitems : t.reader.items = line.map .byte ++ u.reader.items)
    (h : Reading maxLen .auto (consumed ++ line) u) (hcap : maxLen.val < usizeMax) :
    (∃ left, readAutoBody t = .leave left ∧ Comes maxLen left) ∨
    (∃ u, readAutoBody t = .next u ∧ InAuto maxLen u ∧
      u.reader.items.length < t.reader.items.length) := by
  unfold readAutoBody
  rw [hread]
  cases htext : decodeUtf8 line with
  | none =>
      obtain ⟨reason, herr⟩ := decodeText_of_none htext
      rw [herr]
      exact Or.inl ⟨_, rfl, by simp, .whole h (.skipped hboundary ⟨hends, by simp [htext]⟩)⟩
  | some text =>
      rw [decodeText_of_some htext]
      simp only
      split
      · rename_i hblank
        refine Or.inr ⟨u, rfl, .whole h (.skipped hboundary ⟨hends, ?_⟩) ?_,
          length_lt_of_line hends hitems⟩
        · intro text' htext'
          rw [htext] at htext'
          cases htext'
          exact hblank
        · intro hbreaks
          rw [hitems] at hno
          exact hno (.skip ⟨hends, htext⟩ hblank hlen hbreaks)
      · split
        · exact Or.inl ⟨_, rfl, readContentLength_comes
            (fun frame hframe => .firstFrame hboundary hframe) ⟨hends, htext⟩
            (contentLengthValue_trimCrlf text) (h.setFraming .contentLength) hcap⟩
        · exact Or.inl ⟨_, rfl, by simp,
            .whole (h.setFraming .newline) (.firstLine hboundary hends)⟩

end AutoLine

theorem readAutoBody_comes
    (h : InAuto maxLen t) (hcap : maxLen.val < usizeMax) :
    (∃ left, readAutoBody t = .leave left ∧ Comes maxLen left) ∨
    (∃ u, readAutoBody t = .next u ∧ InAuto maxLen u ∧
      u.reader.items.length < t.reader.items.length) := by
  cases h with
  | @last consumed _ h hitems =>
      have hline := readLine_taken h hcap
      unfold readAutoBody
      generalize readLine t = left at hline ⊢
      rw [hitems] at hline
      cases hline with
      | lost hdesync =>
          exact Or.inl ⟨_, rfl, by simp, .lost hdesync⟩
      | ended hitems' h' =>
          exact Or.inl ⟨_, rfl, by simp, .exhausted h' hitems'⟩
      | line hends hlen hitems' h' =>
          have := length_lt_of_line hends hitems'
          simp at this
      | last hne hitems' h' =>
          exact absurd rfl hne
      | interrupted hbody hlen hitems' h' =>
          simp at hitems'
  | @whole consumed _ h hboundary hno =>
      have hline := readLine_taken h hcap
      generalize hread : readLine t = left at hline
      cases hline with
      | lost hdesync =>
          exact Or.inl ⟨_, by rw [readAutoBody, hread], by simp, .lost hdesync⟩
      | ended hitems' h' =>
          exact Or.inl ⟨_, by rw [readAutoBody, hread], by simp, .exhausted h' hitems'⟩
      | @interrupted body err u hbody hlen hitems' h' =>
          rw [hitems'] at hno
          exact Or.inl ⟨_, by rw [readAutoBody, hread], by simp,
            rests_of_interrupted (by simp) hboundary hbody hlen hno h'⟩
      | last hne hitems' h' =>
          exact readAutoBody_last hread hne h' hitems' hcap
      | line hends hlen hitems' h' =>
          exact readAutoBody_line hread hboundary hno hends hlen hitems' h' hcap

theorem readAuto_comes
    (h : InAuto maxLen t) (hcap : maxLen.val < usizeMax) :
    Comes maxLen (readAuto t) := by
  obtain ⟨left, hrun, hleft⟩ :=
    Loop.run_total (readAutoBody (R := Stream))
      (InAuto maxLen) (fun u => u.reader.items.length) (Comes maxLen)
      (fun u hu => readAutoBody_comes hu hcap)
      h (Nat.lt_succ_self t.reader.items.length)
  have hfuel : fuel t = t.reader.items.length + 1 := by
    rfl
  simp only [readAuto, hfuel, hrun]
  exact hleft

/-- A read that is not broken off, from the end of complete lines and frames. -/
theorem readMessage_comes
    (h : Reading maxLen framing consumed t) (hcap : maxLen.val < usizeMax)
    (hboundary : Boundary maxLen framing consumed)
    (hno : ¬ BreaksOff maxLen framing t.reader.items) :
    Comes maxLen (readMessage t) := by
  simp only [readMessage, h.sync, h.framing]
  cases framing with
  | auto =>
      exact readAuto_comes (.whole h hboundary hno) hcap
  | newline =>
      exact readNewline_comes h hcap hboundary hno
  | contentLength =>
      have hline := readFrameLine_taken h hcap
      simp only
      generalize readFrameLine t = left at hline ⊢
      cases hline with
      | lost hdesync =>
          exact ⟨by simp [andThen], .lost hdesync⟩
      | ended hitems h' =>
          exact ⟨by simp [andThen], .exhausted h' hitems⟩
      | last hne hitems h' =>
          simp only [andThen]
          exact readContentLength_exhausted _ hitems h' hcap
      | line hline hlt h' =>
          simp only [andThen]
          exact readContentLength_comes (fun frame hframe => .frame hboundary hframe)
            hline rfl h' hcap

/-- Outside frames and inside a line, with more to come. -/
structure Astray (t : FramedTransport Stream) : Prop where
  sync : t.desync = none
  more : t.reader.items ≠ []
  framing : t.framing ≠ .contentLength
  inside : ∃ before body, t.reader.consumed = before ++ body ∧ body ≠ [] ∧ lineFeed ∉ body

theorem readLine_failed
    {body : List UInt8} {err : IoError} {rest : List Item}
    (h : Reading maxLen framing consumed t) (hcap : maxLen.val < usizeMax)
    (hbody : lineFeed ∉ body) (hlen : body.length ≤ maxLen.val)
    (hitems : t.reader.items = body.map .byte ++ .fail err :: rest) :
    readLine t = (.err (.io err), advance t body rest) := by
  have hscan : scanLine t.maxLen t.reader.closed ([] : List UInt8).length t.reader.items =
      (.failed err, body, rest) := by
    rw [hitems, List.length_nil, scanLine_append hbody 0 _ (by rw [h.cap]; omega)]
    simp [scanLine]
  rw [readLine_eq (h.lt_usizeMax hcap), lineOutcome_of_scan hscan]
  simp only [lineEndOutcome, andThen]

theorem readLine_says
    {line : List UInt8} {text : String} {rest : List Item}
    (h : Reading maxLen framing consumed t) (hcap : maxLen.val < usizeMax)
    (hline : Says line text) (hlen : line.length ≤ maxLen.val)
    (hitems : t.reader.items = line.map .byte ++ rest) :
    readLine t = (.ok text, advance t line rest) := by
  have hfits : line.length ≤ t.maxLen.val := by
    rw [h.cap]
    exact hlen
  have hscan : scanLine t.maxLen t.reader.closed 0 t.reader.items = (.newline, line, rest) := by
    obtain ⟨hbody⟩ := hline.ends
    simp only [List.length_append, List.length_singleton] at hlen
    have hscan := @scanLine_newline t.maxLen t.reader.closed _ hbody 0 rest
      (by rw [h.cap]; omega)
    rw [hitems]
    simpa using hscan
  rw [readLine_of_scan (h.lt_usizeMax hcap) (.inl rfl) hscan hline.ends.ne_nil hfits,
    decodeText_of_some hline.decodes]

/-- A read that is broken off fails and leaves the transport astray. -/
theorem readLine_here
    {body : List UInt8} {err : IoError} {rest : List Item}
    (h : Reading maxLen framing consumed t) (hcap : maxLen.val < usizeMax)
    (hframing : framing ≠ .contentLength)
    (hbody : lineFeed ∉ body) (hne : body ≠ []) (hlen : body.length ≤ maxLen.val)
    (hrest : rest ≠ [])
    (hitems : t.reader.items = body.map .byte ++ .fail err :: rest) :
    ∃ u, readLine t = (.err (.io err), u) ∧ Astray u := by
  have hread := h.advance body rest
  refine ⟨_, readLine_failed h hcap hbody hlen hitems, hread.sync, hrest, ?_,
    ⟨consumed, body, hread.consumed, hne, hbody⟩⟩
  rw [hread.framing]
  exact hframing

theorem readAutoBody_breaksOff
    (h : Reading maxLen .auto consumed t) (hcap : maxLen.val < usizeMax)
    (hbreaks : BreaksOff maxLen .auto t.reader.items) :
    (∃ left, readAutoBody t = .leave left ∧ (∃ err, left.1 = .err (.io err)) ∧
      Astray left.2) ∨
    (∃ u, readAutoBody t = .next u ∧
      (∃ consumed', Reading maxLen .auto consumed' u ∧ BreaksOff maxLen .auto u.reader.items) ∧
      u.reader.items.length < t.reader.items.length) := by
  generalize hitems : t.reader.items = items at hbreaks
  cases hbreaks with
  | @here _ body err rest hframing hbody hne hlen hrest =>
      obtain ⟨u, hread, hastray⟩ :=
        readLine_here h hcap hframing hbody hne hlen hrest hitems
      refine Or.inl ⟨(.err (.io err), u), ?_, ⟨err, rfl⟩, hastray⟩
      simp only [readAutoBody, hread]
  | @skip line text rest hline hblank hlen hbreaks =>
      refine Or.inr ⟨advance t line rest, ?_, ⟨_, h.advance line rest, hbreaks⟩,
        length_lt_of_line hline.ends rfl⟩
      simp only [readAutoBody, readLine_says h hcap hline hlen hitems, if_pos hblank]

theorem readMessage_breaksOff
    (h : Reading maxLen framing consumed t) (hcap : maxLen.val < usizeMax)
    (hbreaks : BreaksOff maxLen framing t.reader.items) :
    (∃ err, (readMessage t).1 = .err (.io err)) ∧ Astray (readMessage t).2 := by
  simp only [readMessage, h.sync, h.framing]
  cases framing with
  | auto =>
      obtain ⟨left, hrun, hleft⟩ :=
        Loop.run_total (readAutoBody (R := Stream))
          (fun u => ∃ consumed', Reading maxLen .auto consumed' u ∧
            BreaksOff maxLen .auto u.reader.items)
          (fun u => u.reader.items.length)
          (fun left => (∃ err, left.1 = .err (.io err)) ∧ Astray left.2)
          (fun u hu => readAutoBody_breaksOff hu.choose_spec.1 hcap hu.choose_spec.2)
          ⟨consumed, h, hbreaks⟩ (Nat.lt_succ_self t.reader.items.length)
      have hfuel : fuel t = t.reader.items.length + 1 := by
        rfl
      simp only [readAuto, hfuel, hrun]
      exact hleft
  | newline =>
      generalize hitems : t.reader.items = items at hbreaks
      cases hbreaks with
      | here hframing hbody hne hlen hrest =>
          obtain ⟨u, hread, hastray⟩ :=
            readLine_here h hcap hframing hbody hne hlen hrest hitems
          simp only [readNewline, hread, andThen]
          exact ⟨⟨_, rfl⟩, hastray⟩
  | contentLength =>
      generalize hitems : t.reader.items = items at hbreaks
      cases hbreaks with
      | here hframing hbody hne hlen hrest =>
          exact absurd rfl hframing

end Messages

end Transport
end McpCore
