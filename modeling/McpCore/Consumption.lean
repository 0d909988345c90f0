import McpCore.Boundary
import McpCore.Kept

/-!
# How much a read consumes

A peer may send lines without an end, headers without a body and bodies that are
longer than they were declared.  `Takes` records what a call takes from its stream;
`FrameTaken` says of it, for a call that reads a frame, that it is the lines of one
frame, of which there are only so many and each only so long, and then no more than
its declared body.

`bounded_consumption` sums up, for every stream, what is buffered, consumed and
returned.
-/

namespace McpCore
namespace Transport

open Text

section Taking

/-- The bytes of a script. -/
def bytesOf (items : List Item) : List UInt8 :=
  items.filterMap fun
    | .byte b => some b
    | .fail _ => none

/-- `t'` is left by a call on `t` that took these bytes from its stream. -/
structure Takes (taken : List UInt8) (t t' : FramedTransport Stream) : Prop where
  maxLen : t'.maxLen = t.maxLen
  consumed : t'.reader.consumed = t.reader.consumed ++ taken
  items : bytesOf t.reader.items = taken ++ bytesOf t'.reader.items

variable {t u v : FramedTransport Stream} {taken taken' : List UInt8}

theorem Takes.refl (t : FramedTransport Stream) : Takes [] t t :=
  ⟨rfl, (List.append_nil _).symm, rfl⟩

theorem Takes.trans (h : Takes taken t u) (h' : Takes taken' u v) :
    Takes (taken ++ taken') t v where
  maxLen := h'.maxLen.trans h.maxLen
  consumed := by
    rw [h'.consumed, h.consumed, List.append_assoc]
  items := by
    rw [h.items, h'.items, List.append_assoc]

/-- What a call records about the stream takes nothing from it. -/
theorem Takes.of_eq (h : Takes taken t u) (hmax : v.maxLen = u.maxLen)
    (hreader : v.reader = u.reader) : Takes taken t v := by
  refine ⟨hmax.trans h.maxLen, ?_, ?_⟩
  · rw [hreader, h.consumed]
  · rw [hreader, h.items]

/-- From a stream that is used up nothing is taken. -/
theorem Takes.eq_nil (h : Takes taken t u) (hitems : t.reader.items = []) :
    taken = [] := by
  have hbytes := h.items
  rw [hitems] at hbytes
  exact (List.append_eq_nil_iff.mp hbytes.symm).1

theorem isLine_lineFeed : IsLine [lineFeed] :=
  @IsLine.mk [] (by simp)

theorem IsLine.cons {b : UInt8} {line : List UInt8} (h : IsLine line) (hb : b ≠ lineFeed) :
    IsLine (b :: line) := by
  obtain ⟨hbody⟩ := h
  exact @IsLine.mk (b :: _) (by simp [hbody, Ne.symm hb])

/-- A line, or the beginning of one. -/
def IsLinePart (bytes : List UInt8) : Prop :=
  lineFeed ∉ bytes ∨ IsLine bytes

theorem isLinePart_nil :
    IsLinePart [] :=
  .inl (by simp)

/-- What a scan for the end of a line takes. -/
structure ScanTakes (maxLen seen : Nat) (items : List Item)
    (scan : LineEnd × List UInt8 × List Item) : Prop where
  length : seen + scan.2.1.length ≤ maxLen + 1
  bytes : bytesOf items = scan.2.1 ++ bytesOf scan.2.2
  newline : scan.1 = .newline → IsLine scan.2.1
  other : scan.1 ≠ .newline → lineFeed ∉ scan.2.1
  eof : scan.1 = .eof → scan.2.2 = []

theorem ScanTakes.isLinePart {maxLen seen : Nat} {items : List Item}
    {scan : LineEnd × List UInt8 × List Item} (h : ScanTakes maxLen seen items scan) :
    IsLinePart scan.2.1 := by
  by_cases hend : scan.1 = .newline
  · exact .inr (h.newline hend)
  · exact .inl (h.other hend)

theorem ScanTakes.nothing {maxLen seen : Nat} {items rest : List Item} {lineEnd : LineEnd}
    (hseen : seen ≤ maxLen) (hbytes : bytesOf items = bytesOf rest) (hend : lineEnd ≠ .newline)
    (heof : lineEnd = .eof → rest = []) :
    ScanTakes maxLen seen items (lineEnd, [], rest) where
  length := Nat.le_succ_of_le hseen
  bytes := hbytes
  newline h := absurd h hend
  other _ := List.not_mem_nil
  eof := heof

theorem takes_scanLine {maxLen seen : Nat} (closed : Bool) (items : List Item)
    (hseen : seen ≤ maxLen) :
    ScanTakes maxLen seen items (scanLine maxLen closed seen items) := by
  induction items generalizing seen with
  | nil =>
      cases closed with
      | true =>
          exact .nothing hseen rfl (by simp) fun _ => rfl
      | false =>
          exact .nothing hseen rfl (by simp) (by simp)
  | cons item items ih =>
      cases item with
      | fail err =>
          exact .nothing hseen rfl (by simp) (by simp)
      | byte b =>
          simp only [scanLine]
          split
          · rename_i hb
            subst hb
            exact ⟨Nat.succ_le_succ hseen, rfl, fun _ => isLine_lineFeed,
              fun hne => absurd rfl hne, by simp⟩
          · rename_i hb
            split
            · exact ⟨Nat.succ_le_succ hseen, rfl, by simp, by simp [Ne.symm hb], by simp⟩
            · have hscan := @ih (seen + 1) (by omega)
              generalize scanLine maxLen closed (seen + 1) items = scan at hscan ⊢
              obtain ⟨lineEnd, taken, rest⟩ := scan
              refine ⟨?_, congrArg (b :: ·) hscan.bytes, ?_, ?_, hscan.eof⟩
              · have hlength := hscan.length
                simp only [List.length_cons] at hlength ⊢
                omega
              · intro hend
                exact (hscan.newline hend).cons hb
              · intro hend
                have hother := hscan.other hend
                simp [Ne.symm hb, hother]

theorem takes_scanBody (closed : Bool) (n : Nat) (items : List Item) :
    (scanBody closed n items).2.1.length ≤ n ∧
    bytesOf items = (scanBody closed n items).2.1 ++ bytesOf (scanBody closed n items).2.2 := by
  induction n generalizing items with
  | zero =>
      exact ⟨le_rfl, rfl⟩
  | succ n ih =>
      cases items with
      | nil =>
          exact ⟨Nat.zero_le _, rfl⟩
      | cons item items =>
          cases item with
          | fail err =>
              exact ⟨Nat.zero_le _, rfl⟩
          | byte b =>
              obtain ⟨hlength, hbytes⟩ := ih items
              exact ⟨Nat.succ_le_succ hlength, congrArg (b :: ·) hbytes⟩

/-- How a line ended that was read: with its line feed, or with the stream. -/
inductive LineEnds (line : List UInt8) (t : FramedTransport Stream) : Prop
  | newline (hline : IsLine line)
  | eof (hnolf : lineFeed ∉ line) (hne : line ≠ []) (hitems : t.reader.items = [])

theorem LineEnds.isLinePart {line : List UInt8} (h : LineEnds line t) : IsLinePart line := by
  cases h with
  | newline hline =>
      exact .inr hline
  | eof hnolf hne hitems =>
      exact .inl hnolf

theorem LineEnds.ne_nil {line : List UInt8} (h : LineEnds line t) : line ≠ [] := by
  cases h with
  | newline hline =>
      exact hline.ne_nil
  | eof hnolf hne hitems =>
      exact hne

/-- A call that returns no value fails or goes on. -/
theorem eq_err_or_running {α : Type} {outcome : Outcome α} (hnone : ∀ value, outcome ≠ .ok value) :
    (∃ err, outcome = .err err) ∨ outcome = .running := by
  cases outcome with
  | ok value =>
      exact absurd rfl (hnone value)
  | err err =>
      exact .inl ⟨err, rfl⟩
  | running =>
      exact .inr rfl

/-- What reading a line takes: a line within the cap, or no more than a byte beyond it. -/
inductive LineTakes (t : FramedTransport Stream) : Outcome String × FramedTransport Stream → Prop
  | line {text t'} (hends : LineEnds (asBytes text) t')
      (hfits : (asBytes text).length ≤ t.maxLen.val)
      (htakes : Takes (asBytes text) t t') : LineTakes t (.ok text, t')
  | part {outcome t'} {part : List UInt8} (hnone : ∀ text, outcome ≠ .ok text)
      (hpart : IsLinePart part) (hle : part.length ≤ t.maxLen.val + 1)
      (htakes : Takes part t t') : LineTakes t (outcome, t')

/-- The check after the loop of `read_line`, and the decoding. -/
theorem lineTakes_of_checked {line : List UInt8} (hends : LineEnds line u)
    (hle : line.length ≤ t.maxLen.val + 1) (htakes : Takes line t u) :
    LineTakes t (andThen (checkLen u line.length "line length") fun _ t =>
      (decodeText line, t)) := by
  unfold checkLen
  rw [htakes.maxLen]
  split
  · exact .part (by simp) hends.isLinePart hle (htakes.of_eq rfl rfl)
  · cases htext : decodeUtf8 line with
    | some text =>
        obtain rfl := decodeUtf8_eq_some_iff.mp htext
        simp only [andThen, decodeText_of_some htext]
        exact .line hends (by omega) htakes
    | none =>
        obtain ⟨reason, herr⟩ := decodeText_of_none htext
        simp only [andThen, herr]
        exact .part (by simp) hends.isLinePart hle htakes

theorem readLine_takes (t : FramedTransport Stream) :
    LineTakes t (readLine t) := by
  have hscan := takes_scanLine t.reader.closed t.reader.items (Nat.zero_le t.maxLen.val)
  simp only [readLine, LineReader.collectLine]
  split
  · exact .part (by simp) isLinePart_nil (Nat.zero_le _) (.refl t)
  · simp only [lineOutcome, List.length_nil]
    generalize scanLine t.maxLen t.reader.closed 0 t.reader.items = scan at hscan ⊢
    obtain ⟨lineEnd, taken, items⟩ := scan
    have hlength : taken.length ≤ t.maxLen.val + 1 := by
      simpa using hscan.length
    have hpart := hscan.isLinePart
    have htakes : Takes taken t (advance t taken items) :=
      ⟨rfl, rfl, hscan.bytes⟩
    cases lineEnd with
    | newline =>
        exact lineTakes_of_checked (.newline (hscan.newline rfl)) hlength htakes
    | eof =>
        simp only [lineEndOutcome, List.nil_append]
        split
        · exact .part (by simp) hpart hlength htakes
        · rename_i hne
          have hends : LineEnds taken (advance t taken items) :=
            .eof (hscan.other (by simp)) hne (hscan.eof rfl)
          exact lineTakes_of_checked hends hlength htakes
    | overlong =>
        exact .part (by simp) hpart hlength (htakes.of_eq rfl rfl)
    | failed err =>
        exact .part (by simp) hpart hlength htakes
    | waiting =>
        exact .part (by simp) hpart hlength htakes

theorem readFrameLine_takes (t : FramedTransport Stream) :
    LineTakes t (readFrameLine t) := by
  have hline := readLine_takes t
  unfold readFrameLine
  generalize readLine t = left at hline ⊢
  cases hline with
  | line hends hfits htakes =>
      exact .line hends hfits htakes
  | @part outcome t' part hnone hpart hle htakes =>
      obtain ⟨err, rfl⟩ | rfl := eq_err_or_running hnone
      · simp only
        split
        · exact .part (by simp) hpart hle htakes
        · exact .part (by simp) hpart hle (htakes.of_eq rfl rfl)
      · exact .part (by simp) hpart hle htakes

end Taking

section Frames

/-- Lines that are headers: whole, within the cap, not blank, and not too many. -/
structure HeaderLines (maxLen : Nat) (headers : List String) : Prop where
  lines : ∀ header ∈ headers, IsLine (asBytes header)
  fits : ∀ header ∈ headers, (asBytes header).length ≤ maxLen
  solid : ∀ header ∈ headers, trimCrlf header ≠ ""
  count : headers.length < maxHeaderLines

/-- What is taken after the opening line of a frame that declares `value`: some
headers and a part of one more line, or the headers with the blank line and no more
than the body that was declared. -/
inductive FrameRest (maxLen : Nat) (value : Option String) : List UInt8 → Prop
  | headers {headers part} (hheaders : HeaderLines maxLen headers) (hpart : IsLinePart part)
      (hle : part.length ≤ maxLen + 1) :
      FrameRest maxLen value (headers.flatMap asBytes ++ part)
  | body {headers blank body n} (hheaders : HeaderLines maxLen headers)
      (hline : IsLine (asBytes blank)) (hfits : (asBytes blank).length ≤ maxLen)
      (hblank : trimCrlf blank = "")
      (hdeclared : value.bind (declaredValue maxLen) = some n) (hle : body.length ≤ n) :
      FrameRest maxLen value (headers.flatMap asBytes ++ (asBytes blank ++ body))

/-- What a call that reads a frame takes: a part of its opening line, or all of it and
what may follow. -/
inductive FrameTaken (maxLen : Nat) : List UInt8 → Prop
  | opening {part} (hpart : IsLinePart part) (hle : part.length ≤ maxLen + 1) :
      FrameTaken maxLen part
  | rest {opening rest} (hline : IsLine (asBytes opening))
      (hfits : (asBytes opening).length ≤ maxLen)
      (hrest : FrameRest maxLen (contentLengthValue opening) rest) :
      FrameTaken maxLen (asBytes opening ++ rest)

variable {maxLen : Nat}

theorem HeaderLines.nil : HeaderLines maxLen [] :=
  ⟨by simp, by simp, by simp, by decide⟩

theorem HeaderLines.concat {headers : List String} (h : HeaderLines maxLen headers)
    {header : String} (hline : IsLine (asBytes header)) (hfits : (asBytes header).length ≤ maxLen)
    (hsolid : trimCrlf header ≠ "") (hcount : headers.length + 1 < maxHeaderLines) :
    HeaderLines maxLen (headers ++ [header]) where
  lines := List.forall_mem_append.mpr ⟨h.lines, by simpa using hline⟩
  fits := List.forall_mem_append.mpr ⟨h.fits, by simpa using hfits⟩
  solid := List.forall_mem_append.mpr ⟨h.solid, by simpa using hsolid⟩
  count := by
    rw [List.length_append, List.length_singleton]
    exact hcount

theorem HeaderLines.length_le {headers : List String} (h : HeaderLines maxLen headers) :
    (headers.flatMap asBytes).length ≤ (maxHeaderLines - 1) * (maxLen + 1) := by
  have hsum : ∀ headers : List String, (∀ header ∈ headers, (asBytes header).length ≤ maxLen) →
      (headers.flatMap asBytes).length ≤ headers.length * (maxLen + 1) := by
    intro headers hfits
    induction headers with
    | nil =>
        simp
    | cons header headers ih =>
        have hhead := hfits header (by simp)
        have htail := ih fun header hmem => hfits header (by simp [hmem])
        rw [List.flatMap_cons, List.length_append, List.length_cons, Nat.succ_mul]
        omega
  exact (hsum headers h.fits).trans (Nat.mul_le_mul_right _ (Nat.le_pred_of_lt h.count))

theorem declaredValue_le {value : String} {n : Nat} (h : declaredValue maxLen value = some n) :
    n ≤ maxLen := by
  unfold declaredValue at h
  split at h
  · rename_i hfits
    cases h
    exact hfits.2.2
  · cases h

theorem FrameTaken.length_le {taken : List UInt8} (h : FrameTaken maxLen taken) :
    taken.length ≤ (maxHeaderLines + 1) * (maxLen + 1) + maxLen := by
  cases h with
  | opening hpart hle =>
      simp only [maxHeaderLines]
      omega
  | rest hline hfits hrest =>
      rw [List.length_append]
      cases hrest with
      | headers hheaders hpart hle =>
          have hlines := hheaders.length_le
          rw [List.length_append]
          simp only [maxHeaderLines] at hlines ⊢
          omega
      | body hheaders hblankLine hblankFits hblank hdeclared hle =>
          have hlines := hheaders.length_le
          obtain ⟨value, -, hvalue⟩ := Option.bind_eq_some_iff.mp hdeclared
          have hn := declaredValue_le hvalue
          rw [List.length_append, List.length_append]
          simp only [maxHeaderLines] at hlines ⊢
          omega

variable {t u : FramedTransport Stream}

/-- What the header loop has taken when it goes round: some headers, and perhaps a
last line that the end of the stream ended. -/
inductive InHeaderLines (t : FramedTransport Stream) : Nat × FramedTransport Stream → Prop
  | whole {headers u} (hheaders : HeaderLines t.maxLen.val headers)
      (htakes : Takes (headers.flatMap asBytes) t u) : InHeaderLines t (headers.length + 1, u)
  | last {headers lines u} {part : List UInt8} (hheaders : HeaderLines t.maxLen.val headers)
      (hpart : IsLinePart part) (hle : part.length ≤ t.maxLen.val + 1)
      (htakes : Takes (headers.flatMap asBytes ++ part) t u) (hitems : u.reader.items = []) :
      InHeaderLines t (lines, u)

/-- What the headers of a frame take: all of them with the blank line, or some of them
and a part of one more line. -/
inductive HeadersTake (t : FramedTransport Stream) : Outcome Unit × FramedTransport Stream → Prop
  | blank {headers blank u} (hheaders : HeaderLines t.maxLen.val headers)
      (hline : IsLine (asBytes blank)) (hfits : (asBytes blank).length ≤ t.maxLen.val)
      (hblank : trimCrlf blank = "")
      (htakes : Takes (headers.flatMap asBytes ++ asBytes blank) t u) : HeadersTake t (.ok (), u)
  | part {outcome u headers} {part : List UInt8} (hheaders : HeaderLines t.maxLen.val headers)
      (hpart : IsLinePart part) (hle : part.length ≤ t.maxLen.val + 1)
      (htakes : Takes (headers.flatMap asBytes ++ part) t u)
      (hended : outcome = .ok () → u.reader.items = []) : HeadersTake t (outcome, u)

/-- One iteration of the header loop takes one more header, or ends it. -/
theorem readHeadersBody_takes {s : Nat × FramedTransport Stream} (h : InHeaderLines t s) :
    (∀ left, readHeadersBody s = .leave left → HeadersTake t left) ∧
    (∀ s', readHeadersBody s = .next s' → InHeaderLines t s') := by
  obtain ⟨lines, u⟩ := s
  have hline := readFrameLine_takes u
  unfold readHeadersBody
  simp only
  generalize readFrameLine u = left at hline ⊢
  cases h with
  | @whole headers u hheaders htakes =>
      cases hline with
      | @line text v hends hfits hread =>
          rw [htakes.maxLen] at hfits
          have hall := htakes.trans hread
          have hle := Nat.le_succ_of_le hfits
          simp only
          split
          · rename_i hblank
            refine ⟨?_, by simp⟩
            rintro _ ⟨⟩
            cases hends with
            | newline hline =>
                exact .blank hheaders hline hfits hblank hall
            | eof hnolf hne hitems =>
                exact .part hheaders (.inl hnolf) hle hall fun _ => hitems
          · rename_i hsolid
            split
            · refine ⟨?_, by simp⟩
              rintro _ ⟨⟩
              exact .part hheaders hends.isLinePart hle (hall.of_eq rfl rfl) (by simp)
            · rename_i hcount
              refine ⟨by simp, ?_⟩
              rintro _ ⟨⟩
              cases hends with
              | newline hline =>
                  have hmore := hheaders.concat hline hfits hsolid (by omega)
                  have hwhole := InHeaderLines.whole hmore (by simpa using hall)
                  rw [List.length_append, List.length_singleton] at hwhole
                  exact hwhole
              | eof hnolf hne hitems =>
                  exact .last hheaders (.inl hnolf) hle hall hitems
      | @part outcome v part hnone hpart hle hread =>
          rw [htakes.maxLen] at hle
          have hall := htakes.trans hread
          obtain ⟨err, rfl⟩ | rfl := eq_err_or_running hnone <;>
          · refine ⟨?_, by simp⟩
            rintro _ ⟨⟩
            exact .part hheaders hpart hle hall (by simp)
  | @last headers lines u part hheaders hpart hle htakes hitems =>
      -- nothing is left, so no line is read
      cases hline with
      | line hends hfits hread =>
          exact absurd (hread.eq_nil hitems) hends.ne_nil
      | @part outcome v part' hnone hpart' hle' hread =>
          obtain rfl := hread.eq_nil hitems
          have hall := htakes.trans hread
          rw [List.append_nil] at hall
          obtain ⟨err, rfl⟩ | rfl := eq_err_or_running hnone <;>
          · refine ⟨?_, by simp⟩
            rintro _ ⟨⟩
            exact .part hheaders hpart hle hall (by simp)

theorem readHeaders_takes (t : FramedTransport Stream) :
    HeadersTake t (readHeaders t) := by
  rw [readHeaders_eq_getD]
  cases hrun : Loop.run readHeadersBody (fuel t) (1, t) with
  | none =>
      exact .part .nil isLinePart_nil (Nat.zero_le _) (.refl t) (by simp)
  | some left =>
      exact Loop.run_invariant (InHeaderLines t) (HeadersTake t)
        (fun s s' hs hbody => (readHeadersBody_takes hs).2 s' hbody)
        (fun s left hs hbody => (readHeadersBody_takes hs).1 left hbody)
        (.whole .nil (.refl t)) hrun

theorem asBytes_of_decodeText {bytes : List UInt8} {text : String}
    (h : decodeText bytes = .ok text) : asBytes text = bytes := by
  cases hdecoded : decodeUtf8 bytes with
  | some decoded =>
      rw [decodeText_of_some hdecoded] at h
      cases h
      exact (decodeUtf8_eq_some_iff.mp hdecoded).symm
  | none =>
      obtain ⟨reason, herr⟩ := decodeText_of_none hdecoded
      rw [herr] at h
      cases h

/-- What the body of a frame takes: no more than was declared. -/
theorem readFrameBody_takes (n : Nat) (t : FramedTransport Stream) :
    ∃ body, body.length ≤ n ∧ Takes body t (readFrameBody n t).2 ∧
      ∀ text, (readFrameBody n t).1 = .ok text → asBytes text = body := by
  obtain ⟨hlength, hbytes⟩ := takes_scanBody t.reader.closed n t.reader.items
  simp only [readFrameBody, LineReader.collectBody]
  generalize scanBody t.reader.closed n t.reader.items = scan at hlength hbytes ⊢
  obtain ⟨bodyEnd, body, items⟩ := scan
  have htakes : Takes body t (advance t body items) :=
    ⟨rfl, rfl, hbytes⟩
  refine ⟨body, hlength, ?_⟩
  cases bodyEnd with
  | done =>
      simp only
      split
      · exact ⟨htakes.of_eq rfl rfl, by rintro _ ⟨⟩⟩
      · exact ⟨htakes, fun text htext => asBytes_of_decodeText htext⟩
  | failed err =>
      exact ⟨htakes.of_eq rfl rfl, by simp⟩
  | waiting =>
      exact ⟨htakes, by simp⟩

/-- What a frame takes after its opening line, and the size of the message it holds. -/
theorem readContentLength_takes (first : String) (t : FramedTransport Stream) :
    ∃ rest, FrameRest t.maxLen.val (contentLengthValue first) rest ∧
      Takes rest t (readContentLength first t).2 ∧
      ∀ text, (readContentLength first t).1 = .ok text →
        (asBytes text).length ≤ t.maxLen.val := by
  rcases readContentLength_cases first t with ⟨n, hlength, hleft⟩ | ⟨reason, hleft⟩
  · obtain ⟨value, hvalue, hok⟩ := Option.map_eq_some_iff.mp hlength
    have hdeclared := declaredValue_of_declaredLength hok
    have hn := declaredValue_le hdeclared
    have hheaders := readHeaders_takes t
    rw [hleft, hvalue]
    generalize readHeaders t = left at hheaders
    cases hheaders with
    | @blank headers blank u hheaders hline hfits hblank htakes =>
        obtain ⟨body, hle, hbody, htext⟩ := readFrameBody_takes n u
        refine ⟨_, .body hheaders hline hfits hblank hdeclared hle, ?_, ?_⟩
        · rw [← List.append_assoc]
          exact htakes.trans hbody
        · intro text hread
          rw [htext text hread]
          exact hle.trans hn
    | @part outcome u headers part hheaders hpart hle htakes hended =>
        cases outcome with
        | ok _ =>
            -- the blank line was the last, so there is no body to take
            obtain ⟨body, hbodyLe, hbody, htext⟩ := readFrameBody_takes n u
            obtain rfl := hbody.eq_nil (hended rfl)
            have hall := htakes.trans hbody
            rw [List.append_nil] at hall
            refine ⟨_, .headers hheaders hpart hle, hall, ?_⟩
            intro text hread
            rw [htext text hread]
            exact Nat.zero_le _
        | err err =>
            exact ⟨_, .headers hheaders hpart hle, htakes, by rintro _ ⟨⟩⟩
        | running =>
            exact ⟨_, .headers hheaders hpart hle, htakes, by rintro _ ⟨⟩⟩
  · have hrefused : FrameRest t.maxLen.val (contentLengthValue first) [] :=
      @FrameRest.headers _ _ [] [] .nil isLinePart_nil (Nat.zero_le _)
    rw [hleft]
    exact ⟨[], hrefused, (Takes.refl t).of_eq rfl rfl, by rintro _ ⟨⟩⟩

end Frames

section Calls

/-- Lines that are whole, blank and within the cap. -/
structure BlankLines (maxLen : Nat) (blanks : List String) : Prop where
  lines : ∀ blank ∈ blanks, IsLine (asBytes blank)
  fits : ∀ blank ∈ blanks, (asBytes blank).length ≤ maxLen
  blank : ∀ blank ∈ blanks, trim (trimCrlf blank) = ""

theorem BlankLines.nil (maxLen : Nat) : BlankLines maxLen [] :=
  ⟨by simp, by simp, by simp⟩

theorem BlankLines.concat {maxLen : Nat} {blanks : List String} (h : BlankLines maxLen blanks)
    {line : String} (hline : IsLine (asBytes line)) (hfits : (asBytes line).length ≤ maxLen)
    (hblank : trim (trimCrlf line) = "") :
    BlankLines maxLen (blanks ++ [line]) where
  lines := List.forall_mem_append.mpr ⟨h.lines, by simpa using hline⟩
  fits := List.forall_mem_append.mpr ⟨h.fits, by simpa using hfits⟩
  blank := List.forall_mem_append.mpr ⟨h.blank, by simpa using hblank⟩

/-- What a call takes from a stream and returns: blank lines while the framing is
undetected, then a part of a line or what belongs to one frame. -/
structure CallTakes (t : FramedTransport Stream)
    (left : Outcome String × FramedTransport Stream) (blanks : List String)
    (part : List UInt8) : Prop where
  takes : Takes (blanks.flatMap asBytes ++ part) t left.2
  blanks : BlankLines t.maxLen.val blanks
  line : left.2.framing ≠ .contentLength → IsLinePart part ∧ part.length ≤ t.maxLen.val + 1
  frame : left.2.framing = .contentLength → FrameTaken t.maxLen.val part
  returned : ∀ text, left.1 = .ok text → (asBytes text).length ≤ t.maxLen.val

variable {t u : FramedTransport Stream}

/-- Trimming the end of a line leaves no more bytes. -/
theorem length_asBytes_trimCrlf_le (line : String) :
    (asBytes (trimCrlf line)).length ≤ (asBytes line).length := by
  have hprefix : (trimCrlf line).toList <+: line.toList := by
    rw [trimCrlf, toList_trimEndMatches]
    exact List.rdropWhile_prefix _ _
  obtain ⟨rest, hrest⟩ := hprefix
  rw [asBytes_eq_flatMap, asBytes_eq_flatMap, ← hrest, List.flatMap_append, List.length_append]
  exact Nat.le_add_right _ _

section AfterBlanks

variable {blanks : List String} (hblanks : BlankLines t.maxLen.val blanks)

include hblanks

/-- A call that takes no more than a line after some blank ones. -/
theorem callTakes_of_line
    {left : Outcome String × FramedTransport Stream} {part : List UInt8}
    (htakes : Takes (blanks.flatMap asBytes ++ part) t left.2)
    (hpart : IsLinePart part) (hle : part.length ≤ t.maxLen.val + 1)
    (hreturned : ∀ text, left.1 = .ok text → (asBytes text).length ≤ t.maxLen.val) :
    CallTakes t left blanks part :=
  ⟨htakes, hblanks, fun _ => ⟨hpart, hle⟩, fun _ => .opening hpart hle, hreturned⟩

/-- A call that reads a frame after some blank lines. -/
theorem callTakes_of_frame
    {opening first : String} (hends : LineEnds (asBytes opening) u)
    (hfits : (asBytes opening).length ≤ t.maxLen.val)
    (htakes : Takes (blanks.flatMap asBytes ++ asBytes opening) t u)
    (hframing : u.framing = .contentLength)
    (hfirst : contentLengthValue first = contentLengthValue opening) :
    ∃ part, CallTakes t (readContentLength first u) blanks part := by
  obtain ⟨rest, hrest, htakesRest, hreturned⟩ := readContentLength_takes first u
  rw [htakes.maxLen, hfirst] at hrest
  rw [htakes.maxLen] at hreturned
  have hkept : (readContentLength first u).2.framing = .contentLength := by
    rw [(kept_readContentLength first u).framing (by simp [hframing]), hframing]
  have hall := htakes.trans htakesRest
  rw [List.append_assoc] at hall
  refine ⟨asBytes opening ++ rest, hall, hblanks, fun hne => absurd hkept hne, fun _ => ?_,
    hreturned⟩
  cases hends with
  | newline hline =>
      exact .rest hline hfits hrest
  | eof hnolf hne hitems =>
      rw [htakesRest.eq_nil hitems, List.append_nil]
      exact .opening (.inl hnolf) (Nat.le_succ_of_le hfits)

end AfterBlanks

theorem readNewline_takes (t : FramedTransport Stream) :
    ∃ part, CallTakes t (readNewline t) [] part := by
  have hline := readLine_takes t
  unfold readNewline
  generalize readLine t = left at hline ⊢
  cases hline with
  | @line text u hends hfits htakes =>
      refine ⟨_, callTakes_of_line (.nil _) htakes hends.isLinePart (Nat.le_succ_of_le hfits) ?_⟩
      rintro _ ⟨⟩
      exact (length_asBytes_trimCrlf_le text).trans hfits
  | @part outcome u part hnone hpart hle htakes =>
      obtain ⟨err, rfl⟩ | rfl := eq_err_or_running hnone <;>
        exact ⟨_, callTakes_of_line (.nil _) htakes hpart hle (by rintro _ ⟨⟩)⟩

/-- A call in `Content-Length` framing. -/
theorem readFrame_takes (hframing : t.framing = .contentLength) :
    ∃ part, CallTakes t
      (andThen (readFrameLine t) fun first u => readContentLength first u) [] part := by
  have hline := readFrameLine_takes t
  have hkept := kept_readFrameLine t
  generalize readFrameLine t = left at hline hkept ⊢
  cases hline with
  | @line text u hends hfits htakes =>
      have hframing' : u.framing = .contentLength := by
        rw [hkept.framing (by simp [hframing]), hframing]
      simp only [andThen]
      exact callTakes_of_frame (.nil _) hends hfits htakes hframing' rfl
  | @part outcome u part hnone hpart hle htakes =>
      obtain ⟨err, rfl⟩ | rfl := eq_err_or_running hnone <;>
        exact ⟨_, callTakes_of_line (.nil _) htakes hpart hle (by rintro _ ⟨⟩)⟩

/-- What `read_auto` has taken when it goes round: some blank lines, and perhaps a last
one that the end of the stream ended. -/
inductive InBlankLines (t : FramedTransport Stream) : FramedTransport Stream → Prop
  | whole {blanks u} (hblanks : BlankLines t.maxLen.val blanks)
      (htakes : Takes (blanks.flatMap asBytes) t u) : InBlankLines t u
  | last {blanks u} {part : List UInt8} (hblanks : BlankLines t.maxLen.val blanks)
      (hpart : IsLinePart part) (hle : part.length ≤ t.maxLen.val + 1)
      (htakes : Takes (blanks.flatMap asBytes ++ part) t u) (hitems : u.reader.items = []) :
      InBlankLines t u

/-- One iteration of `read_auto` takes one more blank line, or ends the call. -/
theorem readAutoBody_takes (h : InBlankLines t u) :
    (∀ left, readAutoBody u = .leave left → ∃ blanks part, CallTakes t left blanks part) ∧
    (∀ u', readAutoBody u = .next u' → InBlankLines t u') := by
  have hline := readLine_takes u
  unfold readAutoBody
  generalize readLine u = left at hline ⊢
  cases h with
  | @whole blanks u hblanks htakes =>
      cases hline with
      | @line text v hends hfits hread =>
          rw [htakes.maxLen] at hfits
          have hall := htakes.trans hread
          have hle := Nat.le_succ_of_le hfits
          simp only
          split
          · rename_i hblank
            refine ⟨by simp, ?_⟩
            rintro _ ⟨⟩
            cases hends with
            | newline hline =>
                exact .whole (hblanks.concat hline hfits hblank) (by simpa using hall)
            | eof hnolf hne hitems =>
                exact .last hblanks (.inl hnolf) hle hall hitems
          · split
            · have hends' : LineEnds (asBytes text) { v with framing := .contentLength } := by
                cases hends with
                | newline hline =>
                    exact .newline hline
                | eof hnolf hne hitems =>
                    exact .eof hnolf hne hitems
              have hframe := callTakes_of_frame hblanks hends' hfits (hall.of_eq rfl rfl) rfl
                (contentLengthValue_trimCrlf text)
              generalize readContentLength (trimCrlf text)
                { v with framing := .contentLength } = left at hframe ⊢
              exact ⟨by rintro _ ⟨⟩; exact ⟨_, hframe⟩, by simp⟩
            · refine ⟨?_, by simp⟩
              rintro _ ⟨⟩
              refine ⟨_, _, callTakes_of_line hblanks (hall.of_eq rfl rfl) hends.isLinePart hle ?_⟩
              rintro _ ⟨⟩
              exact (length_asBytes_trimCrlf_le text).trans hfits
      | @part outcome v part hnone hpart hle hread =>
          rw [htakes.maxLen] at hle
          have hall := htakes.trans hread
          obtain ⟨err, rfl⟩ | rfl := eq_err_or_running hnone <;>
          · refine ⟨?_, by simp⟩
            rintro _ ⟨⟩
            exact ⟨_, _, callTakes_of_line hblanks hall hpart hle (by simp)⟩
  | @last blanks u part hblanks hpart hle htakes hitems =>
      -- nothing is left, so no line is read
      cases hline with
      | line hends hfits hread =>
          exact absurd (hread.eq_nil hitems) hends.ne_nil
      | @part outcome v part' hnone hpart' hle' hread =>
          obtain rfl := hread.eq_nil hitems
          have hall := htakes.trans hread
          rw [List.append_nil] at hall
          obtain ⟨err, rfl⟩ | rfl := eq_err_or_running hnone <;>
          · refine ⟨?_, by simp⟩
            rintro _ ⟨⟩
            exact ⟨_, _, callTakes_of_line hblanks hall hpart hle (by simp)⟩

theorem readAuto_takes (t : FramedTransport Stream) :
    ∃ blanks part, CallTakes t (readAuto t) blanks part := by
  rw [readAuto_eq_getD]
  cases hrun : Loop.run readAutoBody (fuel t) t with
  | none =>
      exact ⟨[], [], callTakes_of_line (.nil _) (.refl t) isLinePart_nil (Nat.zero_le _) (by simp)⟩
  | some left =>
      exact Loop.run_invariant (InBlankLines t)
        (fun left => ∃ blanks part, CallTakes t left blanks part)
        (fun u u' hu hbody => (readAutoBody_takes hu).2 u' hbody)
        (fun u left hu hbody => (readAutoBody_takes hu).1 left hbody)
        (.whole (.nil _) (.refl t)) hrun

theorem readMessage_takes (t : FramedTransport Stream) :
    ∃ blanks part, CallTakes t (readMessage t) blanks part ∧
      (t.framing ≠ .auto → blanks = []) := by
  unfold readMessage
  cases hdesync : t.desync with
  | some reason =>
      exact ⟨[], [], callTakes_of_line (.nil _) (.refl t) isLinePart_nil (Nat.zero_le _) (by simp),
        fun _ => rfl⟩
  | none =>
      cases hframing : t.framing with
      | auto =>
          obtain ⟨blanks, part, h⟩ := readAuto_takes t
          exact ⟨blanks, part, h, fun hne => absurd rfl hne⟩
      | newline =>
          obtain ⟨part, h⟩ := readNewline_takes t
          exact ⟨[], part, h, fun _ => rfl⟩
      | contentLength =>
          obtain ⟨part, h⟩ := readFrame_takes hframing
          exact ⟨[], part, h, fun _ => rfl⟩

end Calls

section Buffers

/-- What the buffer of `read_line` holds after an iteration from this state. -/
def lineBuffer : List UInt8 × FramedTransport Reader → List UInt8
  | (buf, t) =>
      match t.reader.fillBuf with
      | (.ready available, _) =>
          let take := min available.length (remainingBudget t.maxLen buf.length)
          match (available.take take).findIdx? (· == lineFeed) with
          | some nl => buf ++ available.take (nl + 1)
          | none => buf ++ available.take take
      | _ => buf

/-- With room for its buffer an iteration buffers no more than a byte beyond the cap. -/
theorem length_lineBuffer_le {buf : List UInt8} {t : FramedTransport Reader}
    (hcap : t.maxLen.val < usizeMax) (hroom : buf.length ≤ t.maxLen.val) :
    (lineBuffer (buf, t)).length ≤ t.maxLen.val + 1 := by
  unfold lineBuffer
  simp only [remainingBudget_eq hcap]
  split
  · rename_i available reader hfill
    have htake : min available.length (t.maxLen.val - buf.length + 1) ≤
        t.maxLen.val - buf.length + 1 :=
      Nat.min_le_right _ _
    generalize min available.length (t.maxLen.val - buf.length + 1) = take at htake ⊢
    split
    · rename_i nl hfind
      obtain ⟨before, after, hsplit, hlength, hlt, -⟩ := findIdx?_lineFeed_some hfind
      rw [List.length_append, List.length_take]
      omega
    · rw [List.length_append, List.length_take]
      omega
  · exact Nat.le_succ_of_le hroom

/-- `read_line` goes round only with a buffer within the cap. -/
theorem readLineBody_room {s s' : List UInt8 × FramedTransport Reader}
    (hbody : readLineBody s = .next s') :
    s'.1 = lineBuffer s ∧ s'.1.length ≤ s'.2.maxLen.val ∧ s'.2.maxLen = s.2.maxLen := by
  obtain ⟨buf, t⟩ := s
  obtain ⟨bytes, hne, events, hr⟩ := chunk_of_readLineBody_next hbody
  simp only [readLineBody, lineBuffer, Reader.fillBuf, hr, if_neg hne] at hbody ⊢
  generalize min bytes.length (remainingBudget t.maxLen.val buf.length) = take at hbody ⊢
  cases hfind : (bytes.take take).findIdx? (· == lineFeed) with
  | some nl =>
      rw [hfind] at hbody
      cases hbody
  | none =>
      rw [hfind] at hbody
      simp only [checkLen] at hbody
      by_cases hover : t.maxLen.val < (buf ++ bytes.take take).length
      · rw [if_pos hover] at hbody
        cases hbody
      · rw [if_neg hover] at hbody
        cases hbody
        exact ⟨rfl, Nat.not_lt.mp hover, rfl⟩

theorem lineBuffer_reaches {t : FramedTransport Reader} (hcap : t.maxLen.val < usizeMax)
    {s : List UInt8 × FramedTransport Reader} (h : Loop.Reaches readLineBody ([], t) s) :
    (lineBuffer s).length ≤ t.maxLen.val + 1 := by
  have hroom : s.1.length ≤ s.2.maxLen.val ∧ s.2.maxLen = t.maxLen := by
    refine h.invariant (fun s => s.1.length ≤ s.2.maxLen.val ∧ s.2.maxLen = t.maxLen) ?_
      ⟨Nat.zero_le _, rfl⟩
    rintro s s' ⟨-, hmax⟩ hbody
    obtain ⟨-, hroom, hsame⟩ := readLineBody_room hbody
    exact ⟨hroom, hsame.trans hmax⟩
  obtain ⟨hlength, hmax⟩ := hroom
  have hbuffer := length_lineBuffer_le (hmax ▸ hcap) hlength
  rw [hmax] at hbuffer
  exact hbuffer

/-- What was read of a body and what is left of its limit make the declared length. -/
theorem readToEndBody_room {s s' : Nat × List UInt8 × Reader} (hbody : readToEndBody s = .next s') :
    s'.2.1.length + s'.1 = s.2.1.length + s.1 := by
  obtain ⟨limit, buf, reader⟩ := s
  unfold readToEndBody at hbody
  simp only at hbody
  split at hbody
  · cases hbody
  · split at hbody
    · cases hbody
    · cases hbody
    · split at hbody
      · cases hbody
      · cases hbody
        simp only [List.length_append, List.length_take]
        omega

/-- The body buffer of a frame holds no more than was declared. -/
theorem bodyBuffer_reaches {n : Nat} {reader : Reader} {s : Nat × List UInt8 × Reader}
    (h : Loop.Reaches readToEndBody (n, [], reader) s) :
    s.2.1.length ≤ n := by
  have hroom : s.2.1.length + s.1 = n := by
    refine h.invariant (fun s => s.2.1.length + s.1 = n) ?_ (Nat.zero_add n)
    intro s s' hs hbody
    rw [readToEndBody_room hbody, hs]
  omega

end Buffers

section Bounded

/-- What is buffered, consumed and returned by a read is bounded by the cap. -/
structure Bounded (t : FramedTransport Reader) : Prop where
  /-- A message is within the cap. -/
  message : ∀ text, (readMessage t).1 = .ok text → (asBytes text).length ≤ t.maxLen.val
  /-- Whatever line is read, its buffer holds no more than a byte beyond the cap. -/
  line : ∀ u s, u.maxLen = t.maxLen → Loop.Reaches readLineBody ([], u) s →
    (lineBuffer s).length ≤ t.maxLen.val + 1
  /-- A length that is accepted is within the cap, and the buffer of the body within it. -/
  body : ∀ (u : FramedTransport Reader) value n, u.maxLen = t.maxLen →
    declaredLength u value = .ok n →
    n ≤ t.maxLen.val ∧
    ∀ reader s, Loop.Reaches readToEndBody (n, [], reader) s → s.2.1.length ≤ n
  /-- In newline framing no more than one line is consumed. -/
  newline : t.framing = .newline → ∃ part,
    Takes part (t.mapReader Reader.unchunked) ((readMessage t).2.mapReader Reader.unchunked) ∧
    IsLinePart part ∧ part.length ≤ t.maxLen.val + 1
  /-- A call that reads a frame consumes no more than so many lines and the declared body,
  the blank lines before it apart if the framing was not detected. -/
  frame : (readMessage t).2.framing = .contentLength → ∃ blanks part,
    Takes (blanks.flatMap asBytes ++ part) (t.mapReader Reader.unchunked)
      ((readMessage t).2.mapReader Reader.unchunked) ∧
    (t.framing ≠ .auto → blanks = []) ∧ BlankLines t.maxLen.val blanks ∧
    FrameTaken t.maxLen.val part ∧
    part.length ≤ (maxHeaderLines + 1) * (t.maxLen.val + 1) + t.maxLen.val

/--
Consumption is bounded: whatever a peer sends, in whatever chunks, whether it ends,
fails or goes on for ever, and in whatever state of the transport.
-/
theorem bounded_consumption (t : FramedTransport Reader) (hcap : t.maxLen.val < usizeMax) :
    Bounded t := by
  obtain ⟨blanks, part, htakes, hblanks⟩ := readMessage_takes (t.mapReader Reader.unchunked)
  rw [readMessage_unchunked] at htakes
  refine ⟨htakes.returned, ?_, ?_, ?_, ?_⟩
  · intro u s hmax hreaches
    rw [← hmax]
    exact lineBuffer_reaches (hmax ▸ hcap) hreaches
  · intro u value n hmax hlength
    have hdeclared := declaredValue_of_declaredLength hlength
    rw [hmax] at hdeclared
    exact ⟨declaredValue_le hdeclared, fun reader s hreaches => bodyBuffer_reaches hreaches⟩
  · intro hframing
    have hkept := (kept_readMessage t).framing (by simp [hframing])
    have hnone := hblanks (by simp [FramedTransport.mapReader, hframing])
    have htaken := htakes.takes
    rw [hnone, List.flatMap_nil, List.nil_append] at htaken
    exact ⟨part, htaken,
      htakes.line (by simp [through, FramedTransport.mapReader, hkept, hframing])⟩
  · intro hframing
    have hframe := htakes.frame hframing
    exact ⟨blanks, part, htakes.takes, hblanks, htakes.blanks, hframe, hframe.length_le⟩

/-- A frame in a stream that goes on, and a line without an end. -/
theorem bounded_consumption_of_open_streams :
    let frame := asBytes "\nContent-Length: 2\r\n\r\n\x7b\x7dmore"
    let t : FramedTransport Reader := .new (.new [.chunk frame (by decide)] false) .reliable 30
    let line := List.replicate 9 (97 : UInt8)
    let u : FramedTransport Reader := .new (.new [.chunk line (by decide)] false) .reliable 4
    (Bounded t ∧ (readMessage t).2.reader.items = (asBytes "more").map .byte) ∧
    Bounded u ∧ (readMessage u).2.reader.consumed.length = 5 := by
  intro frame t line u
  exact ⟨⟨bounded_consumption t (by decide), by decide⟩,
    bounded_consumption u (by decide), by decide⟩

end Bounded

end Transport
end McpCore
