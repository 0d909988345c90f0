import McpCore.Parametric

/-!
# Reading without chunks

How a stream is cut into chunks should not matter.  A `Stream` is a reader's
script with the chunk boundaries forgotten, and `scanLine` and `scanBody` read
it item by item, by recursion on the items instead of by a budgeted loop.

`readMessage_unchunked` says that reading a chunked stream and then forgetting
the chunks is reading the stream without chunks, for every chunking, every
placement of I/O failures and every cap.
-/

namespace McpCore
namespace Transport

open Text

section Scan

/-- How the scan for a line ended. -/
inductive LineEnd where
  | newline
  | eof
  | overlong
  | failed (err : IoError)
  | waiting
deriving DecidableEq

/--
Scan for the end of a line of which `seen` bytes are already buffered: how the
scan ended, the bytes it took and the items it left.
-/
def scanLine (maxLen : Nat) (closed : Bool) :
    Nat → List Item → LineEnd × List UInt8 × List Item
  | _, [] => (if closed then .eof else .waiting, [], [])
  | _, .fail err :: items => (.failed err, [], items)
  | seen, .byte b :: items =>
      if b = lineFeed then (.newline, [b], items)
      else if maxLen < seen + 1 then (.overlong, [b], items)
      else
        let (lineEnd, taken, rest) := scanLine maxLen closed (seen + 1) items
        (lineEnd, b :: taken, rest)

/-- Scan a body of `n` bytes: how the scan ended, the bytes it took and the
items it left. -/
def scanBody (closed : Bool) : Nat → List Item → BodyEnd × List UInt8 × List Item
  | 0, items => (.done, [], items)
  | _ + 1, [] => (if closed then .done else .waiting, [], [])
  | _ + 1, .fail err :: items => (.failed err, [], items)
  | n + 1, .byte b :: items =>
      let (bodyEnd, taken, rest) := scanBody closed n items
      (bodyEnd, b :: taken, rest)

end Scan

/-- Whether the next item is a byte. -/
def startsWithByte : List Item → Bool
  | .byte _ :: _ => true
  | _ => false

/-- The transport after `taken` was taken from its stream and `items` are left. -/
def advance (t : FramedTransport Stream) (taken : List UInt8) (items : List Item) :
    FramedTransport Stream :=
  { t with reader := { t.reader with items, consumed := t.reader.consumed ++ taken } }

/-- What the loop of `read_line` makes of the end of a scan. -/
def lineEndOutcome (line : List UInt8) (t : FramedTransport Stream) :
    LineEnd → Outcome (List UInt8) × FramedTransport Stream
  | .newline => (.ok line, t)
  | .eof =>
      if line = [] then (.err (.transport .connectionClosed), t) else (.ok line, t)
  | .overlong => desyncError t (tooLarge t "line length" (toString line.length))
  | .failed err => (.err (.io err), t)
  | .waiting => (.running, t)

/-- The loop of `read_line`, from a line with `buf` already buffered. -/
def lineOutcome (buf : List UInt8) (t : FramedTransport Stream) :
    Outcome (List UInt8) × FramedTransport Stream :=
  let scan := scanLine t.maxLen t.reader.closed buf.length t.reader.items
  lineEndOutcome (buf ++ scan.2.1) (advance t scan.2.1 scan.2.2) scan.1

instance : LineReader Stream where
  collectLine t :=
    -- At `usize::MAX` the budget of an empty buffer wraps to zero bytes.
    if t.maxLen.val = usizeMax ∧ startsWithByte t.reader.items then (.running, t)
    else lineOutcome [] t
  collectBody n s :=
    let scan := scanBody s.closed n s.items
    (scan.1, scan.2.1, { s with items := scan.2.2, consumed := s.consumed ++ scan.2.1 })
  size s := s.items.length

section View

variable {R R' : Type}

/-- Replace the reader of a transport by a view of it. -/
def FramedTransport.mapReader (view : R → R') (t : FramedTransport R) :
    FramedTransport R' :=
  ⟨view t.reader, t.writer, t.framing, t.maxLen, t.desync⟩

/-- See what a call left behind through a view of the reader. -/
def through {α : Type} (view : R → R') (call : α × FramedTransport R) :
    α × FramedTransport R' :=
  (call.1, call.2.mapReader view)

variable {view : R → R'}

@[simp] theorem mapReader_maxLen (t : FramedTransport R) :
    (t.mapReader view).maxLen = t.maxLen := by
  rfl

@[simp] theorem mapReader_reader (t : FramedTransport R) :
    (t.mapReader view).reader = view t.reader := by
  rfl

/-- A view of the readers that changes nothing but the readers. -/
theorem alike_mapReader (t : FramedTransport R) :
    Alike (fun reader reader' => reader' = view reader) Eq t (t.mapReader view) := by
  obtain ⟨reader, writer, framing, maxLen, desync⟩ := t
  exact @Alike.mk _ _ (fun reader reader' => reader' = view reader) _ _ _ _ _ rfl rfl ..

theorem eq_mapReader_of_alike
    {t : FramedTransport R} {t' : FramedTransport R'}
    (h : Alike (fun reader reader' => reader' = view reader) Eq t t') :
    t' = t.mapReader view := by
  cases h with
  | mk h hw =>
      rw [h, ← hw]
      rfl

theorem eq_through_of_agree
    {α : Type} {call : Outcome α × FramedTransport R} {call' : Outcome α × FramedTransport R'}
    (h : Agree False (fun reader reader' => reader' = view reader) Eq call call') :
    call' = through view call := by
  cases h with
  | same h =>
      rw [eq_mapReader_of_alike h]
      rfl
  | waiting h =>
      exact h.elim

end View

section ScanLemmas

variable {maxLen : Nat} {closed : Bool}

/-- A line's bytes before its end only move the scan on. -/
theorem scanLine_append
    {bs : List UInt8} (hbs : lineFeed ∉ bs)
    (seen : Nat) (items : List Item)
    (hroom : seen + bs.length ≤ maxLen) :
    scanLine maxLen closed seen (bs.map .byte ++ items) =
      ((scanLine maxLen closed (seen + bs.length) items).1,
        bs ++ (scanLine maxLen closed (seen + bs.length) items).2.1,
        (scanLine maxLen closed (seen + bs.length) items).2.2) := by
  induction bs generalizing seen with
  | nil =>
      simp
  | cons b bs ih =>
      have hb : b ≠ lineFeed := fun h => hbs (by simp [h])
      have hrest : lineFeed ∉ bs := fun h => hbs (by simp [h])
      simp only [List.length_cons] at hroom
      have hlen : ¬ maxLen < seen + 1 := by omega
      have hseen : seen + (b :: bs).length = seen + 1 + bs.length := by
        simp only [List.length_cons]
        omega
      simp only [List.map_cons, List.cons_append, scanLine, hb, hlen, if_false]
      rw [ih hrest (seen + 1) (by omega), hseen]

theorem scanLine_newline
    {bs : List UInt8} (hbs : lineFeed ∉ bs)
    (seen : Nat) (items : List Item)
    (hroom : seen + bs.length ≤ maxLen) :
    scanLine maxLen closed seen (bs.map .byte ++ .byte lineFeed :: items) =
      (.newline, bs ++ [lineFeed], items) := by
  rw [scanLine_append hbs seen _ hroom]
  simp [scanLine]

theorem scanLine_overlong
    {bs : List UInt8} {b : UInt8}
    (hbs : lineFeed ∉ bs) (hb : b ≠ lineFeed)
    (seen : Nat) (items : List Item)
    (hroom : seen + bs.length = maxLen) :
    scanLine maxLen closed seen (bs.map .byte ++ .byte b :: items) =
      (.overlong, bs ++ [b], items) := by
  rw [scanLine_append hbs seen _ (by omega)]
  simp [scanLine, hb, hroom]

/-- A body's bytes are taken one by one. -/
theorem scanBody_append
    (n : Nat) (bs : List UInt8) (items : List Item) :
    scanBody closed (n + bs.length) (bs.map .byte ++ items) =
      ((scanBody closed n items).1, bs ++ (scanBody closed n items).2.1,
        (scanBody closed n items).2.2) := by
  induction bs with
  | nil =>
      simp
  | cons b bs ih =>
      simp only [List.length_cons, List.map_cons, List.cons_append]
      rw [← Nat.add_assoc]
      simp only [scanBody, ih]

end ScanLemmas

section Unchunked

/-- Where the first line feed of a chunk is, within the bytes to be consumed. -/
theorem findIdx?_lineFeed_some
    {available : List UInt8} {take nl : Nat}
    (h : (available.take take).findIdx? (· == lineFeed) = some nl) :
    ∃ before after,
      available = before ++ lineFeed :: after ∧
      before.length = nl ∧ nl < take ∧ lineFeed ∉ before := by
  obtain ⟨hlt, hnl, hbefore⟩ := List.findIdx?_eq_some_iff_getElem.mp h
  have hlen : nl < available.length := by
    have := List.length_take (i := take) (l := available)
    omega
  have hget : available[nl] = lineFeed := by
    simpa using hnl
  refine ⟨available.take nl, available.drop (nl + 1), ?_, ?_, ?_, ?_⟩
  · rw [← hget, List.getElem_cons_drop, List.take_append_drop]
  · rw [List.length_take]
    omega
  · have := List.length_take (i := take) (l := available)
    omega
  · intro hmem
    obtain ⟨i, hi, hval⟩ := List.getElem_of_mem hmem
    have hi' : i < nl := by
      have := List.length_take (i := nl) (l := available)
      omega
    have hne := hbefore i hi'
    simp at hne hval
    exact hne hval

/-- Bytes taken beyond the room for them are one byte too many. -/
theorem take_eq_concat_of_overfull
    {available : List UInt8} {room take : Nat}
    (htake : min available.length (room + 1) = take)
    (hover : room < (available.take take).length) :
    ∃ before b, available.take take = before ++ [b] ∧ before.length = room ∧
      (before ++ [b]).length = take := by
  have hlen : (available.take take).length = room + 1 := by
    rw [List.length_take] at hover ⊢
    omega
  rcases List.eq_nil_or_concat (available.take take) with hnil | ⟨before, b, hsplit⟩
  · simp [hnil] at hlen
  · rw [List.concat_eq_append] at hsplit
    rw [hsplit, List.length_append, List.length_singleton] at hlen
    refine ⟨before, b, hsplit, by omega, ?_⟩
    rw [← hsplit, List.length_take]
    omega

theorem items_of_chunk
    {r : Reader} {bytes : List UInt8} {hne : bytes ≠ []} {events : List Event}
    (hr : r.events = .chunk bytes hne :: events) :
    r.items = bytes.map .byte ++ events.flatMap Event.items := by
  simp [Reader.items, hr, Event.items]

/-- Consuming the front of a chunk, with the chunks forgotten. -/
theorem unchunked_consume
    {r : Reader} {bytes : List UInt8} {hne : bytes ≠ []} {events : List Event}
    (hr : r.events = .chunk bytes hne :: events)
    {taken after : List UInt8} (hbytes : bytes = taken ++ after) :
    (r.consume taken.length).unchunked =
      ⟨after.map .byte ++ events.flatMap Event.items, r.closed, r.consumed ++ taken⟩ := by
  have hdrop : bytes.drop taken.length = after := by
    simp [hbytes]
  have htake : bytes.take taken.length = taken := by
    simp [hbytes]
  simp only [Reader.unchunked, Reader.consume, hr, Reader.items, hdrop, htake]
  by_cases h : after = []
  · simp [h]
  · simp [h, Event.items]

/-- Consuming the front of a chunk is an advance of the unchunked stream. -/
theorem mapReader_consume
    (t : FramedTransport Reader)
    {bytes : List UInt8} {hne : bytes ≠ []} {events : List Event}
    (hr : t.reader.events = .chunk bytes hne :: events)
    {taken after : List UInt8} (hbytes : bytes = taken ++ after) :
    FramedTransport.mapReader Reader.unchunked
        { t with reader := t.reader.consume taken.length } =
      advance (t.mapReader Reader.unchunked) taken
        (after.map .byte ++ events.flatMap Event.items) := by
  simp only [FramedTransport.mapReader, unchunked_consume hr hbytes]
  rfl

theorem remainingBudget_eq
    {maxLen len : Nat} (h : maxLen < usizeMax) :
    remainingBudget maxLen len = maxLen - len + 1 := by
  unfold remainingBudget
  exact Nat.mod_eq_of_lt (by omega)

/-- What holds of the buffer and the transport whenever `read_line` goes round. -/
structure LineInvariant (s : List UInt8 × FramedTransport Reader) : Prop where
  room : s.1.length ≤ s.2.maxLen
  cap : s.2.maxLen.val < usizeMax ∨ startsWithByte s.2.reader.items = false

theorem startsWithByte_of_chunk
    {r : Reader} {bytes : List UInt8} {hne : bytes ≠ []} {events : List Event}
    (hr : r.events = .chunk bytes hne :: events) :
    startsWithByte r.items = true := by
  obtain ⟨b, bs, rfl⟩ := List.exists_cons_of_ne_nil hne
  rw [items_of_chunk hr]
  rfl

theorem LineInvariant.cap_of_chunk
    {s : List UInt8 × FramedTransport Reader} (h : LineInvariant s)
    {bytes : List UInt8} {hne : bytes ≠ []} {events : List Event}
    (hr : s.2.reader.events = .chunk bytes hne :: events) :
    s.2.maxLen.val < usizeMax := by
  rcases h.cap with hcap | hcap
  · exact hcap
  · rw [startsWithByte_of_chunk hr] at hcap
    cases hcap

/--
One iteration of `read_line` on a chunk: it finds the end of the line, or takes
the byte that makes the line too long, or buffers the whole chunk and goes round.
-/
theorem readLineBody_chunk_cases
    {buf : List UInt8} {t : FramedTransport Reader}
    (hinv : LineInvariant (buf, t))
    {bytes : List UInt8} {hne : bytes ≠ []} {events : List Event}
    (hr : t.reader.events = .chunk bytes hne :: events) :
    (∃ before after,
        bytes = before ++ lineFeed :: after ∧ lineFeed ∉ before ∧
        buf.length + before.length ≤ t.maxLen ∧
        readLineBody (buf, t) =
          .leave (.ok (buf ++ (before ++ [lineFeed])),
            { t with reader := t.reader.consume (before ++ [lineFeed]).length })) ∨
    (∃ before b after,
        bytes = before ++ b :: after ∧ lineFeed ∉ before ∧ b ≠ lineFeed ∧
        buf.length + before.length = t.maxLen ∧
        readLineBody (buf, t) =
          .leave (desyncError
            { t with reader := t.reader.consume (before ++ [b]).length }
            (tooLarge t "line length"
              (toString (buf ++ (before ++ [b])).length)))) ∨
    (lineFeed ∉ bytes ∧ buf.length + bytes.length ≤ t.maxLen ∧
        readLineBody (buf, t) =
          .next (buf ++ bytes, { t with reader := t.reader.consume bytes.length })) := by
  have hroom : buf.length ≤ t.maxLen := hinv.room
  have hbudget : remainingBudget t.maxLen buf.length = t.maxLen - buf.length + 1 :=
    remainingBudget_eq (hinv.cap_of_chunk hr)
  simp only [readLineBody, Reader.fillBuf, hr, hne, if_false, hbudget]
  generalize htake : min bytes.length (t.maxLen - buf.length + 1) = take
  cases hfind : (bytes.take take).findIdx? (· == lineFeed) with
  | some nl =>
      obtain ⟨before, after, hbytes, hlen, hnl, hbefore⟩ := findIdx?_lineFeed_some hfind
      refine Or.inl ⟨before, after, hbytes, hbefore, by omega, ?_⟩
      have hlen' : (before ++ [lineFeed]).length = nl + 1 := by
        simp [hlen]
      have htaken : bytes.take (nl + 1) = before ++ [lineFeed] := by
        rw [hbytes, List.append_cons, List.take_left' hlen']
      simp only [hlen', htaken]
  | none =>
      have hnone : lineFeed ∉ bytes.take take := by
        intro hmem
        have := List.findIdx?_eq_none_iff.mp hfind lineFeed hmem
        simp at this
      right
      by_cases hover : (t.maxLen : Nat) < (buf ++ bytes.take take).length
      · -- the budget was used up: the last byte taken is the one too many
        obtain ⟨before, b, hsplit, hbefore, hlen'⟩ : ∃ before b,
            bytes.take take = before ++ [b] ∧ before.length = t.maxLen - buf.length ∧
              (before ++ [b]).length = take := by
          refine take_eq_concat_of_overfull htake ?_
          rw [List.length_append] at hover
          omega
        left
        refine ⟨before, b, bytes.drop take, ?_, ?_, ?_, by omega, ?_⟩
        · rw [← List.singleton_append, ← List.append_assoc, ← hsplit,
            List.take_append_drop]
        · intro h
          exact hnone (by simp [hsplit, h])
        · rintro rfl
          exact hnone (by simp [hsplit])
        · simp only [hsplit, checkLen] at hover ⊢
          rw [if_pos hover, hlen']
          rfl
      · right
        have htakeAll : take = bytes.length := by
          simp only [List.length_append, List.length_take] at hover
          omega
        subst take
        rw [htakeAll, List.take_length] at hnone hover ⊢
        refine ⟨hnone, ?_, ?_⟩
        · simp only [List.length_append] at hover
          omega
        · simp only [checkLen, if_neg hover]

theorem lineOutcome_of_scan
    {buf : List UInt8} {t : FramedTransport Stream}
    {lineEnd : LineEnd} {taken : List UInt8} {items : List Item}
    (h : scanLine t.maxLen t.reader.closed buf.length t.reader.items =
      (lineEnd, taken, items)) :
    lineOutcome buf t = lineEndOutcome (buf ++ taken) (advance t taken items) lineEnd := by
  simp only [lineOutcome, h]

theorem readLineBody_leave
    (s : List UInt8 × FramedTransport Reader)
    (r : Outcome (List UInt8) × FramedTransport Reader)
    (hinv : LineInvariant s) (hbody : readLineBody s = .leave r) :
    through Reader.unchunked r = lineOutcome s.1 (s.2.mapReader Reader.unchunked) := by
  obtain ⟨buf, t⟩ := s
  rcases hr : t.reader.events with _ | ⟨event, events⟩
  · -- the end of the script
    have hitems : t.reader.items = [] := by
      simp [Reader.items, hr]
    cases hclosed : t.reader.closed with
    | false =>
        simp [readLineBody, Reader.fillBuf, hr, hclosed] at hbody
        subst r
        simp [lineOutcome, lineEndOutcome, through, FramedTransport.mapReader,
          Reader.unchunked, advance, hitems, hclosed, scanLine]
    | true =>
        simp only [readLineBody, Reader.fillBuf, hr, hclosed, if_true] at hbody
        split at hbody
        · rename_i hbuf
          cases hbody
          simp [lineOutcome, lineEndOutcome, through, FramedTransport.mapReader,
            Reader.unchunked, advance, hitems, hclosed, scanLine, hbuf]
        · rename_i hbuf
          cases hbody
          simp [lineOutcome, lineEndOutcome, through, FramedTransport.mapReader,
            Reader.unchunked, advance, hitems, hclosed, scanLine, hbuf]
  · cases event with
    | fail err =>
        simp [readLineBody, Reader.fillBuf, hr] at hbody
        subst r
        simp [lineOutcome, lineEndOutcome, advance, through, FramedTransport.mapReader,
          Reader.unchunked, Reader.items, hr, Event.items, scanLine]
    | chunk bytes hne =>
        have hitems : (t.mapReader Reader.unchunked).reader.items =
            bytes.map .byte ++ events.flatMap Event.items :=
          items_of_chunk hr
        rcases readLineBody_chunk_cases hinv hr with
          ⟨before, after, hbytes, hbefore, hlen, hcase⟩ |
          ⟨before, b, after, hbytes, hbefore, hb, hlen, hcase⟩ |
          ⟨_, _, hcase⟩
        · rw [hcase] at hbody
          cases hbody
          have hscan : scanLine t.maxLen t.reader.closed buf.length
              (t.mapReader Reader.unchunked).reader.items =
                (.newline, before ++ [lineFeed],
                  after.map .byte ++ events.flatMap Event.items) := by
            rw [hitems, hbytes]
            simpa using scanLine_newline hbefore buf.length _ hlen
          rw [lineOutcome_of_scan hscan, lineEndOutcome,
            ← @mapReader_consume t _ _ _ hr _ after (by simp [hbytes])]
          rfl
        · rw [hcase] at hbody
          cases hbody
          have hscan : scanLine t.maxLen t.reader.closed buf.length
              (t.mapReader Reader.unchunked).reader.items =
                (.overlong, before ++ [b],
                  after.map .byte ++ events.flatMap Event.items) := by
            rw [hitems, hbytes]
            simpa using scanLine_overlong hbefore hb buf.length _ hlen
          rw [lineOutcome_of_scan hscan, lineEndOutcome,
            ← @mapReader_consume t _ _ _ hr _ after (by simp [hbytes])]
          rfl
        · rw [hcase] at hbody
          cases hbody

/-- `read_line` goes round only on a chunk. -/
theorem chunk_of_readLineBody_next
    {buf : List UInt8} {t : FramedTransport Reader} {s' : List UInt8 × FramedTransport Reader}
    (hbody : readLineBody (buf, t) = .next s') :
    ∃ bytes hne events, t.reader.events = .chunk bytes hne :: events := by
  rcases hr : t.reader.events with _ | ⟨event, events⟩
  · cases hclosed : t.reader.closed with
    | false =>
        simp [readLineBody, Reader.fillBuf, hr, hclosed] at hbody
    | true =>
        simp only [readLineBody, Reader.fillBuf, hr, hclosed, if_true] at hbody
        split at hbody
        · cases hbody
        · cases hbody
  · cases event with
    | fail err =>
        simp [readLineBody, Reader.fillBuf, hr] at hbody
    | chunk bytes hne =>
        exact ⟨bytes, hne, events, rfl⟩

theorem readLineBody_next
    (s s' : List UInt8 × FramedTransport Reader)
    (hinv : LineInvariant s) (hbody : readLineBody s = .next s') :
    LineInvariant s' ∧
    lineOutcome s'.1 (s'.2.mapReader Reader.unchunked) =
      lineOutcome s.1 (s.2.mapReader Reader.unchunked) ∧
    s'.2.reader.items.length < s.2.reader.items.length := by
  obtain ⟨buf, t⟩ := s
  obtain ⟨bytes, hne, events, hr⟩ := chunk_of_readLineBody_next hbody
  rcases readLineBody_chunk_cases hinv hr with
    ⟨_, _, _, _, _, hcase⟩ | ⟨_, _, _, _, _, _, _, hcase⟩ | ⟨hlf, hlen, hcase⟩
  · rw [hcase] at hbody
    cases hbody
  · rw [hcase] at hbody
    cases hbody
  · rw [hcase] at hbody
    cases hbody
    have hafter := @mapReader_consume t _ _ _ hr bytes [] (by simp)
    have hitems := items_of_chunk hr
    have hitems' : (t.reader.consume bytes.length).items = events.flatMap Event.items :=
      congrArg Stream.items (unchunked_consume hr (List.append_nil bytes).symm)
    refine ⟨⟨by simpa using hlen, Or.inl (hinv.cap_of_chunk hr)⟩, ?_, ?_⟩
    · have hscan := @scanLine_append _ t.reader.closed _ hlf buf.length
        (events.flatMap Event.items) hlen
      simp only [hafter]
      unfold lineOutcome
      simp only [advance, mapReader_reader, mapReader_maxLen, Reader.unchunked,
        hitems, hscan, List.length_append]
      simp
    · simp only [hitems, hitems', List.length_append, List.length_map]
      have := List.length_pos_of_ne_nil hne
      omega

/-- At `usize::MAX` the budget of an empty buffer is zero bytes, and an iteration
leaves everything as it was. -/
theorem readLineBody_spin
    {t : FramedTransport Reader}
    (hmax : t.maxLen.val = usizeMax) (hbyte : startsWithByte t.reader.items = true) :
    readLineBody ([], t) = .next ([], t) := by
  rcases hr : t.reader.events with _ | ⟨event, events⟩
  · simp [Reader.items, hr, startsWithByte] at hbyte
  · cases event with
    | fail err =>
        simp [Reader.items, hr, Event.items, startsWithByte] at hbyte
    | chunk bytes hne =>
        have hbudget : remainingBudget t.maxLen 0 = 0 := by
          rw [hmax]
          decide
        have hconsume : t.reader.consume 0 = t.reader := by
          obtain ⟨⟨_, closed, consumed⟩, writer, framing, maxLen, desync⟩ := t
          simp only at hr
          subst hr
          simp [Reader.consume, hne]
        simp [readLineBody, Reader.fillBuf, hr, hne, hbudget, hconsume, checkLen]

theorem collectLine_unchunked (t : FramedTransport Reader) :
    LineReader.collectLine (t.mapReader Reader.unchunked) =
      through Reader.unchunked (LineReader.collectLine t) := by
  simp only [LineReader.collectLine, mapReader_maxLen, mapReader_reader,
    unchunked_items]
  by_cases hspin : t.maxLen.val = usizeMax ∧ startsWithByte t.reader.items = true
  · rw [if_pos hspin, Loop.run_eq_none_of_spin (fun s => s = ([], t))
      (by rintro s rfl; exact ⟨_, readLineBody_spin hspin.1 hspin.2, rfl⟩) _ rfl]
    rfl
  · rw [if_neg hspin]
    have hinv : LineInvariant ([], t) := by
      refine ⟨Nat.zero_le _, ?_⟩
      by_cases hcap : t.maxLen.val < usizeMax
      · exact Or.inl hcap
      · exact Or.inr (by simpa [eq_usizeMax_of_not_lt hcap] using hspin)
    obtain ⟨r, hrun, hspec⟩ :=
      Loop.run_eq_spec LineInvariant (fun s => s.2.reader.items.length)
        (fun s => lineOutcome s.1 (s.2.mapReader Reader.unchunked))
        (through Reader.unchunked)
        readLineBody_leave readLineBody_next hinv
        (Nat.lt_succ_self t.reader.items.length)
    rw [hrun, hspec]

/-- What `take(limit).read_to_end(&mut buf)` makes of an unchunked stream. -/
def bodyOutcome (limit : Nat) (buf : List UInt8) (s : Stream) :
    BodyEnd × List UInt8 × Stream :=
  let scan := scanBody s.closed limit s.items
  (scan.1, buf ++ scan.2.1, { s with items := scan.2.2, consumed := s.consumed ++ scan.2.1 })

theorem readToEndBody_leave
    (s : Nat × List UInt8 × Reader) (r : BodyEnd × List UInt8 × Reader)
    (hbody : readToEndBody s = .leave r) :
    (r.1, r.2.1, r.2.2.unchunked) = bodyOutcome s.1 s.2.1 s.2.2.unchunked := by
  obtain ⟨limit, buf, reader⟩ := s
  cases limit with
  | zero =>
      simp [readToEndBody] at hbody
      subst r
      simp [bodyOutcome, scanBody, Reader.unchunked]
  | succ limit =>
      rcases hr : reader.events with _ | ⟨event, events⟩
      · cases hclosed : reader.closed with
        | false =>
            simp [readToEndBody, Reader.fillBuf, hr, hclosed] at hbody
            subst r
            simp [bodyOutcome, scanBody, Reader.unchunked, Reader.items, hr, hclosed]
        | true =>
            simp [readToEndBody, Reader.fillBuf, hr, hclosed] at hbody
            subst r
            simp [bodyOutcome, scanBody, Reader.unchunked, Reader.items, hr, hclosed]
      · cases event with
        | fail err =>
            simp [readToEndBody, Reader.fillBuf, hr] at hbody
            subst r
            simp [bodyOutcome, scanBody, Reader.unchunked, Reader.items, hr, Event.items]
        | chunk bytes hne =>
            simp [readToEndBody, Reader.fillBuf, hr, hne] at hbody

theorem readToEndBody_next
    (s s' : Nat × List UInt8 × Reader)
    (hbody : readToEndBody s = .next s') :
    bodyOutcome s'.1 s'.2.1 s'.2.2.unchunked = bodyOutcome s.1 s.2.1 s.2.2.unchunked ∧
    s'.2.2.items.length < s.2.2.items.length := by
  obtain ⟨limit, buf, reader⟩ := s
  cases limit with
  | zero =>
      simp [readToEndBody] at hbody
  | succ limit =>
      rcases hr : reader.events with _ | ⟨event, events⟩
      · cases hclosed : reader.closed with
        | false =>
            simp [readToEndBody, Reader.fillBuf, hr, hclosed] at hbody
        | true =>
            simp [readToEndBody, Reader.fillBuf, hr, hclosed] at hbody
      · cases event with
        | fail err =>
            simp [readToEndBody, Reader.fillBuf, hr] at hbody
        | chunk bytes hne =>
            have hpos := List.length_pos_of_ne_nil hne
            simp only [readToEndBody, Reader.fillBuf, hr, hne, if_false,
              Nat.add_one_ne_zero] at hbody
            generalize hn : min bytes.length (limit + 1) = n at hbody
            cases hbody
            have hlen : (bytes.take n).length = n := by
              rw [List.length_take]
              omega
            have hafter := unchunked_consume hr (List.take_append_drop n bytes).symm
            rw [hlen] at hafter
            have hitems : reader.unchunked.items =
                (bytes.take n).map .byte ++
                  ((bytes.drop n).map .byte ++ events.flatMap Event.items) := by
              change reader.items = _
              rw [items_of_chunk hr, ← List.append_assoc, ← List.map_append,
                List.take_append_drop]
            constructor
            · have hlimit : limit + 1 = limit + 1 - n + (bytes.take n).length := by
                omega
              simp only [bodyOutcome, hafter, hitems]
              rw [hlimit, scanBody_append, hlen]
              simp [Reader.unchunked]
            · have hitems' : (reader.consume n).items = _ :=
                congrArg Stream.items hafter
              have hitems'' : reader.items = _ := hitems
              simp only [hitems', hitems'', List.length_append, List.length_map]
              omega

theorem collectBody_unchunked (n : Nat) (r : Reader) :
    LineReader.collectBody n r.unchunked =
      ((LineReader.collectBody n r).1, (LineReader.collectBody n r).2.1,
        (LineReader.collectBody n r).2.2.unchunked) := by
  obtain ⟨left, hrun, hspec⟩ :=
    Loop.run_eq_spec (fun _ => True) (fun s => s.2.2.items.length)
      (fun s : Nat × List UInt8 × Reader => bodyOutcome s.1 s.2.1 s.2.2.unchunked)
      (fun r : BodyEnd × List UInt8 × Reader => (r.1, r.2.1, r.2.2.unchunked))
      (fun s r _ hbody => readToEndBody_leave s r hbody)
      (fun s s' _ hbody => ⟨trivial, readToEndBody_next s s' hbody⟩)
      (s := (n, [], r)) trivial (Nat.lt_succ_self r.items.length)
  simp only [LineReader.collectBody, hrun]
  rw [hspec]
  rfl

/-- Forgetting the chunks respects how bytes are taken. -/
theorem respects_unchunked :
    Respects False (fun reader stream => stream = Reader.unchunked reader) Eq where
  line := by
    intro t t' h
    rw [eq_mapReader_of_alike h, collectLine_unchunked]
    exact .same (alike_mapReader _)
  body := by
    rintro reader _ rfl n
    refine Or.inr ⟨_, _, _, _, rfl, collectBody_unchunked n reader, rfl⟩
  size := by
    rintro reader _ rfl
    exact Or.inl rfl

/-- Reading a chunked stream is reading the stream without its chunks. -/
theorem readMessage_unchunked (t : FramedTransport Reader) :
    readMessage (t.mapReader Reader.unchunked) =
      through Reader.unchunked (readMessage t) :=
  eq_through_of_agree (readMessage_agree respects_unchunked (alike_mapReader t))

end Unchunked

end Transport
end McpCore
