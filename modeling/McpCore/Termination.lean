import McpCore.Pump

/-!
# When reading terminates

Over a stream that ends, every read returns, every iteration of a loop takes a
byte or leaves, and a pump comes to an end: for every cap but `usize::MAX`.  At
that one the budget of the first chunk wraps to zero, and `read_line` goes round
for ever with nothing taken.
-/

namespace McpCore
namespace Transport

open Text

section Ended

variable {t : FramedTransport Reader}

/-- The stream has ended. -/
structure Ended (t : FramedTransport Reader) : Prop where
  closed : t.reader.closed = true
  items : t.reader.items = []

theorem Ended.fillBuf (h : Ended t) :
    t.reader.fillBuf = (.ready [], t.reader) := by
  obtain ⟨⟨events, closed, consumed⟩, writer, framing, maxLen, desync⟩ := t
  obtain ⟨hclosed, hitems⟩ := h
  simp only at hclosed
  subst hclosed
  cases events with
  | nil =>
      rfl
  | cons event events =>
      cases event with
      | fail err =>
          simp [Reader.items, Event.items] at hitems
      | chunk bytes hne =>
          simp [Reader.items, Event.items, hne] at hitems

theorem Ended.readLineBody (h : Ended t) (buf : List UInt8) :
    ∃ left, readLineBody (buf, t) = .leave left ∧
      (buf = [] → left = (.err (.transport .connectionClosed), t)) := by
  simp only [Transport.readLineBody, h.fillBuf, if_true]
  by_cases hbuf : buf = []
  · exact ⟨_, by rw [if_pos hbuf], fun _ => rfl⟩
  · exact ⟨_, by rw [if_neg hbuf], fun hnil => absurd hnil hbuf⟩

theorem Ended.readLine (h : Ended t) :
    readLine t = (.err (.transport .connectionClosed), t) := by
  obtain ⟨left, hbody, hleft⟩ := h.readLineBody []
  rw [hleft rfl] at hbody
  simp only [Transport.readLine, collectLine_eq_getD, Loop.run_succ_of_leave _ hbody,
    Option.getD_some, andThen]

theorem Ended.readFrameLine (h : Ended t) :
    readFrameLine t = (.err (.transport .connectionClosed), t) := by
  simp only [Transport.readFrameLine, h.readLine]
  rfl

theorem Ended.readMessage_of_sync (h : Ended t) (hsync : t.desync = none) :
    readMessage t = (.err (.transport .connectionClosed), t) := by
  simp only [Transport.readMessage, hsync]
  cases t.framing with
  | auto =>
      have hbody : readAutoBody t =
          .leave (.err (.transport .connectionClosed), t) := by
        simp only [readAutoBody, h.readLine]
      rw [readAuto_eq_getD, fuel, Loop.run_succ_of_leave _ hbody]
      rfl
  | newline =>
      rw [readNewline, h.readLine]
      rfl
  | contentLength =>
      rw [h.readFrameLine]
      rfl

theorem Ended.readMessage (h : Ended t) :
    ∃ err, readMessage t = (.err err, t) := by
  cases hdesync : t.desync with
  | some reason =>
      exact ⟨_, readMessage_of_desync hdesync⟩
  | none =>
      exact ⟨_, h.readMessage_of_sync hdesync⟩

end Ended

section Over

variable {maxLen : Usize} {bytes : List UInt8} {t : FramedTransport Reader}

/-- The transport reads what is left of `bytes`, in any chunks, after which the
stream ends; its framing may be any, and it may have given up. -/
structure Over (maxLen : Usize) (bytes : List UInt8) (t : FramedTransport Reader) : Prop where
  cap : t.maxLen = maxLen
  closed : t.reader.closed = true
  items : ∃ rest, rest <:+ bytes ∧ t.reader.items = rest.map .byte

theorem Over.at (h : Over maxLen bytes t) (hdesync : t.desync = none) :
    ∃ rest, At maxLen t.framing rest (t.mapReader Reader.unchunked) := by
  obtain ⟨rest, -, hitems⟩ := h.items
  exact ⟨rest, h.cap, rfl, hdesync, h.closed, hitems⟩

/-- The transport is where some decoder is that has as much left to decode. -/
theorem Over.tracks (h : Over maxLen bytes t) :
    ∃ d, Tracks maxLen (t.mapReader Reader.unchunked) d ∧
      d.rest.length = t.reader.items.length := by
  obtain ⟨rest, -, hitems⟩ := h.items
  have hlen : rest.length = t.reader.items.length := by
    rw [hitems, List.length_map]
  cases hdesync : t.desync with
  | some reason =>
      exact ⟨⟨.refused, rest⟩, .refused (by simp [FramedTransport.mapReader, hdesync]), hlen⟩
  | none =>
      have hat : At maxLen t.framing rest (t.mapReader Reader.unchunked) :=
        ⟨h.cap, rfl, hdesync, h.closed, hitems⟩
      cases hframing : t.framing with
      | auto =>
          exact ⟨⟨.undecided, rest⟩, .synced rfl (hframing ▸ hat), hlen⟩
      | newline =>
          exact ⟨⟨.newline, rest⟩, .synced rfl (hframing ▸ hat), hlen⟩
      | contentLength =>
          exact ⟨⟨.contentLength, rest⟩, .synced rfl (hframing ▸ hat), hlen⟩

/-- A transport that settled its framing has left what its decoder has. -/
theorem over_of_tracks
    {d : Decoder} (h : Tracks maxLen (t.mapReader Reader.unchunked) d)
    (hphase : d.phase = .newline ∨ d.phase = .contentLength) :
    Over maxLen d.rest t ∧ t.reader.items.length = d.rest.length := by
  cases h with
  | refused hdesync =>
      simp at hphase
  | @synced phase framing rest _ hat =>
      refine ⟨⟨hat.cap, hat.closed, rest, List.suffix_rfl, hat.items⟩, ?_⟩
      have hlen := congrArg List.length hat.items
      rw [List.length_map] at hlen
      exact hlen

theorem Over.ended (h : Over maxLen [] t) : Ended t := by
  obtain ⟨rest, hsuffix, hitems⟩ := h.items
  rw [List.suffix_nil.mp hsuffix] at hitems
  exact ⟨h.closed, hitems⟩

theorem Over.writer (h : Over maxLen bytes t) (writer : Writer) :
    Over maxLen bytes { t with writer } :=
  ⟨h.cap, h.closed, h.items⟩

/-- A read over a stream that ends returns, and a message takes something. -/
theorem Over.read (h : Over maxLen bytes t)
    (hfits : maxLen.val < usizeMax ∨ bytes = []) :
    (∃ err t', readMessage t = (.err err, t')) ∨
    (∃ raw t', readMessage t = (.ok raw, t') ∧
      t'.reader.items.length < t.reader.items.length ∧
      ∃ bytes', Over maxLen bytes' t' ∧ (maxLen.val < usizeMax ∨ bytes' = [])) := by
  rcases hfits with hcap | rfl
  · obtain ⟨d, htracks, hlen⟩ := h.tracks
    rcases hread : readMessage t with ⟨raw | err | _, t'⟩
    · obtain ⟨hdecode, htracks'⟩ := decode_of_read htracks hcap hread
      obtain ⟨hphase, hlt⟩ := decode_message hdecode
      obtain ⟨hover, hlen'⟩ := over_of_tracks htracks' hphase
      exact Or.inr ⟨raw, t', rfl, by omega, _, hover, Or.inl hcap⟩
    · exact Or.inl ⟨err, t', rfl⟩
    · have hanswers := readMessage_tracks htracks hcap
      rw [readMessage_unchunked, hread] at hanswers
      cases hanswers.same
  · obtain ⟨err, hread⟩ := h.ended.readMessage
    exact Or.inl ⟨err, t, hread⟩

end Over

section Progress

variable {maxLen : Usize} {bytes : List UInt8} {t t' : FramedTransport Reader}

/-- Consuming something of a chunk leaves less. -/
theorem length_items_consume
    {r : Reader} {chunk : List UInt8} {hne : chunk ≠ []} {events : List Event}
    (hr : r.events = .chunk chunk hne :: events)
    {n : Nat} (hpos : 0 < n) (hle : n ≤ chunk.length) :
    (r.consume n).items.length < r.items.length := by
  have hsplit : chunk = chunk.take n ++ chunk.drop n := by
    rw [List.take_append_drop]
  have hlen : (chunk.take n).length = n := by
    rw [List.length_take]
    omega
  have hafter := congrArg Stream.items (unchunked_consume hr hsplit)
  rw [hlen] at hafter
  rw [unchunked_items] at hafter
  rw [hafter, items_of_chunk hr]
  simp only [List.length_append, List.length_map, List.length_drop]
  omega

/-- Below `usize::MAX` the budget is at least one, and `read_line` goes round only
with something taken. -/
theorem readLineBody_progress
    (hcap : t.maxLen.val < usizeMax) {buf buf' : List UInt8}
    (h : readLineBody (buf, t) = .next (buf', t')) :
    t'.reader.items.length < t.reader.items.length := by
  have hbudget : 0 < remainingBudget t.maxLen.val buf.length := by
    rw [remainingBudget_eq hcap]
    omega
  obtain ⟨chunk, hne, events, hevents⟩ := chunk_of_readLineBody_next h
  have hpos := List.length_pos_of_ne_nil hne
  simp only [readLineBody, Reader.fillBuf, hevents, if_neg hne] at h
  generalize remainingBudget t.maxLen.val buf.length = budget at hbudget h
  split at h
  · cases h
  · unfold checkLen at h
    split at h
    · rename_i hcheck
      split at hcheck
      · cases hcheck
      · cases hcheck
        cases h
        exact length_items_consume hevents (by omega) (by omega)
    · cases h
    · cases h

theorem readLine_unchunked (t : FramedTransport Reader) :
    readLine (t.mapReader Reader.unchunked) = through Reader.unchunked (readLine t) :=
  eq_through_of_agree (readLine_agree respects_unchunked (alike_mapReader t))

/-- A line that is read was taken. -/
theorem Over.readLine
    (h : Over maxLen bytes t) (hcap : maxLen.val < usizeMax) (hdesync : t.desync = none)
    {line : String} (hread : readLine t = (.ok line, t')) :
    t'.reader.items.length < t.reader.items.length := by
  obtain ⟨rest, hat⟩ := h.at hdesync
  have hline := readLine_at hat hcap
  rw [readLine_unchunked, hread] at hline
  have hitems : t.reader.items = rest.map .byte := hat.items
  obtain ⟨hne, -, -, hat'⟩ := LineRead.of_ok hline
  have hitems' : t'.reader.items = (splitLine rest).2.map .byte := hat'.items
  rw [hitems, hitems', List.length_map, List.length_map]
  exact splitLine_snd_length_lt hne

/-- A line of a frame is a line. -/
theorem readLine_of_readFrameLine
    {line : String} (hread : readFrameLine t = (.ok line, t')) :
    readLine t = (.ok line, t') := by
  unfold readFrameLine at hread
  split at hread
  · split at hread
    · cases hread
    · cases hread
  · exact hread

/-- `read_auto` goes round only with something taken. -/
theorem Over.readAutoBody
    (h : Over maxLen bytes t) (hcap : maxLen.val < usizeMax) (hdesync : t.desync = none)
    (hnext : readAutoBody t = .next t') :
    t'.reader.items.length < t.reader.items.length := by
  unfold Transport.readAutoBody at hnext
  split at hnext
  · rename_i line u hread
    simp only at hnext
    split at hnext
    · cases hnext
      exact h.readLine hcap hdesync hread
    · split at hnext
      · cases hnext
      · cases hnext
  · cases hnext
  · cases hnext

/-- The header loop goes round only with something taken, and at most so often
that its count stays within the bound. -/
theorem Over.readHeadersBody
    (h : Over maxLen bytes t) (hcap : maxLen.val < usizeMax) (hdesync : t.desync = none)
    {lines lines' : Nat} (hnext : readHeadersBody (lines, t) = .next (lines', t')) :
    t'.reader.items.length < t.reader.items.length ∧ lines' ≤ maxHeaderLines := by
  unfold Transport.readHeadersBody at hnext
  simp only at hnext
  split at hnext
  · rename_i line u hread
    split at hnext
    · cases hnext
    · split at hnext
      · cases hnext
      · cases hnext
        exact ⟨h.readLine hcap hdesync (readLine_of_readFrameLine hread), by omega⟩
  · cases hnext
  · cases hnext

end Progress

end Transport

namespace Runner

open Transport Server

variable {σ R : Type} (serde : SerdeJson) (crates : Externals) (core : ServerCore σ)

section Writes

/-- A call that returns and changes nothing but the writer. -/
structure Writes (t : FramedTransport R)
    (call : Transport.Outcome Unit × FramedTransport R) : Prop where
  returns : call.1 ≠ .running
  only : ∃ writer, call.2 = { t with writer }

variable {t : FramedTransport R}

theorem writes_andThen
    {call : Transport.Outcome Unit × FramedTransport R}
    {k : Unit → FramedTransport R → Transport.Outcome Unit × FramedTransport R}
    (hcall : Writes t call) (hk : ∀ x u, Writes u (k x u)) :
    Writes t (andThen call k) := by
  obtain ⟨outcome, u⟩ := call
  obtain ⟨hreturns, writer, rfl⟩ := hcall
  cases outcome with
  | ok x =>
      obtain ⟨hreturns', writer', honly'⟩ := hk x { t with writer }
      exact ⟨hreturns', writer', honly'⟩
  | err e =>
      exact ⟨by simp [andThen], writer, rfl⟩
  | running =>
      exact absurd rfl hreturns

theorem writes_writeAll (bytes : List UInt8) (t : FramedTransport R) :
    Writes t (writeAll bytes t) := by
  unfold writeAll
  rcases t.writer.writeAll bytes with ⟨err | _, writer⟩
  · exact ⟨by simp, writer, rfl⟩
  · exact ⟨by simp, writer, rfl⟩

theorem writes_writeMessage (message : String) (t : FramedTransport R) :
    Writes t (writeMessage message t) := by
  have hsent : ∀ a b : List UInt8, Writes t
      (andThen (andThen (writeAll a t) fun _ u => writeAll b u) fun _ u => flush u) := by
    intro a b
    simp only [flush_eq]
    exact writes_andThen (writes_andThen (writes_writeAll a t) fun _ u => writes_writeAll b u)
      fun _ u => writes_writeAll [] u
  unfold writeMessage
  cases t.framing with
  | auto =>
      exact hsent _ _
  | newline =>
      exact hsent _ _
  | contentLength =>
      exact hsent _ _

theorem writes_nothing (t : FramedTransport R) :
    Writes t (.ok (), t) :=
  ⟨by simp, t.writer, rfl⟩

theorem writes_send (value : Value) (t : FramedTransport R) :
    Writes t (send serde value t) := by
  unfold send
  split
  · exact writes_writeMessage _ t
  · exact ⟨by simp, t.writer, rfl⟩

theorem writes_sendAll (values : List Value) (t : FramedTransport R) :
    Writes t (sendAll serde values t) := by
  induction values generalizing t with
  | nil =>
      exact writes_nothing t
  | cons value values ih =>
      exact writes_andThen (writes_send serde value t) fun _ u => ih u

theorem writes_sendDispatch (dispatch : Dispatch) (t : FramedTransport R) :
    Writes t (sendDispatch serde dispatch t) := by
  unfold sendDispatch
  refine writes_andThen ?_ fun _ u => writes_sendAll serde dispatch.notifications u
  cases dispatch.response with
  | none =>
      exact writes_nothing t
  | some response =>
      exact writes_send serde response t

theorem writes_answer
    (raw : String) (t : FramedTransport R) (session : Session) (world : World σ) :
    Writes t (answer serde crates core raw t session world).1 := by
  unfold answer
  split
  · exact writes_send serde _ t
  · exact writes_sendDispatch serde _ t

end Writes

section PumpEnds

/-- An iteration of `pump` after a message returns or goes round, with nothing
changed about the transport but the writer. -/
theorem pumpBody_cases [LineReader R]
    {c : Connection R σ} {t : FramedTransport R} {raw : String}
    (hread : readMessage c.transport = (.ok raw, t)) :
    (∃ left, pumpBody serde crates core c = .leave left ∧ left.1 ≠ .running) ∨
    (∃ c' writer, pumpBody serde crates core c = .next c' ∧
      c'.transport = { t with writer }) := by
  simp only [pumpBody, hread]
  by_cases hblank : Text.trim raw = ""
  · simp only [if_pos hblank]
    exact Or.inr ⟨_, t.writer, rfl, rfl⟩
  · simp only [if_neg hblank]
    have hwrites := writes_answer serde crates core raw t c.session c.world
    generalize answer serde crates core raw t c.session c.world = answered at hwrites ⊢
    obtain ⟨⟨sent, t'⟩, session, world⟩ := answered
    obtain ⟨hreturns, writer, honly⟩ := hwrites
    cases sent with
    | ok _ =>
        exact Or.inr ⟨⟨t', session, world⟩, writer, rfl, honly⟩
    | err err =>
        exact Or.inl ⟨(.err err, ⟨t', session, world⟩), rfl, by simp⟩
    | running =>
        exact absurd rfl hreturns

/-- A pump over a stream that ends comes to an end. -/
theorem pump_ends
    {maxLen : Text.Usize} (bytes : List UInt8) {c : Connection Reader σ}
    (hover : Over maxLen bytes c.transport)
    (hfits : maxLen.val < Text.usizeMax ∨ bytes = []) :
    (pump serde crates core c).1 ≠ .running := by
  obtain ⟨left, hrun, hleft⟩ := Loop.run_total (pumpBody serde crates core)
    (fun c => ∃ bytes, Over maxLen bytes c.transport ∧
      (maxLen.val < Text.usizeMax ∨ bytes = []))
    (fun c => c.transport.reader.items.length) (fun left => left.1 ≠ .running)
    (by
      rintro c ⟨bytes, hover, hfits⟩
      rcases hover.read hfits with
        ⟨err, t, hread⟩ | ⟨raw, t, hread, hlt, bytes', hover', hfits'⟩
      · refine Or.inl ?_
        simp only [pumpBody, hread]
        split
        · exact ⟨_, rfl, by simp⟩
        · exact ⟨_, rfl, by simp⟩
      · rcases pumpBody_cases serde crates core hread with
          ⟨left, hbody, hleft⟩ | ⟨c', writer, hbody, htransport⟩
        · exact Or.inl ⟨left, hbody, hleft⟩
        · refine Or.inr ⟨c', hbody, ⟨bytes', ?_, hfits'⟩, ?_⟩
          · rw [htransport]
            exact hover'.writer writer
          · rw [htransport]
            exact hlt)
    (s := c) ⟨bytes, hover, hfits⟩ (Nat.lt_succ_self c.transport.reader.items.length)
  rw [pump_eq_of_run crates core hrun]
  exact hleft

/-- Serving a stream that ends comes to an end, unless the cap is `usize::MAX`. -/
theorem serveStdio_ends
    (hcap : core.config.maxContentLength.val < Text.usizeMax) {bytes : List UInt8}
    {reader : Reader} (hclosed : reader.closed = true)
    (hitems : reader.items = bytes.map .byte) (writer : Writer) (world : World σ) :
    (serveStdio serde crates core reader writer world).1 ≠ .running :=
  pump_ends serde crates core bytes
    ⟨rfl, hclosed, bytes, List.suffix_rfl, hitems⟩ (Or.inl hcap)

end PumpEnds

section Terminate

open Text

/-- Reading `bytes` under this cap terminates, at whatever point of them, in
whatever chunks and in whatever state of the transport. -/
structure Terminates (maxLen : Usize) (bytes : List UInt8) : Prop where
  /-- Every read returns. -/
  returns : ∀ t, Over maxLen bytes t → (readMessage t).1 ≠ .running
  /-- Every iteration of `read_line` takes a byte or leaves. -/
  lineProgress : ∀ t t' buf buf', Over maxLen bytes t →
    readLineBody (buf, t) = .next (buf', t') →
    t'.reader.items.length < t.reader.items.length
  /-- Every iteration of `read_auto` takes a byte or leaves. -/
  autoProgress : ∀ t t', Over maxLen bytes t → t.desync = none →
    readAutoBody t = .next t' → t'.reader.items.length < t.reader.items.length
  /-- Every iteration over headers takes a byte or leaves, and their count is
  bounded. -/
  headerProgress : ∀ t t' lines lines', Over maxLen bytes t → t.desync = none →
    readHeadersBody (lines, t) = .next (lines', t') →
    t'.reader.items.length < t.reader.items.length ∧ lines' ≤ maxHeaderLines
  /-- The budget of a chunk does not overflow. -/
  budget : ∀ t (buf : List UInt8) available, Over maxLen bytes t →
    t.reader.fillBuf = (.ready available, t.reader) → available ≠ [] →
    maxLen.val - buf.length + 1 ≤ usizeMax
  /-- A pump ends, whatever its service and its writer do. -/
  pumpEnds : ∀ (σ : Type) (serde : SerdeJson) (crates : Externals) (core : ServerCore σ)
    (c : Connection Reader σ), Over maxLen bytes c.transport →
    (pump serde crates core c).1 ≠ .running

theorem terminates_of_lt {maxLen : Usize} (hcap : maxLen.val < usizeMax) (bytes : List UInt8) :
    Terminates maxLen bytes where
  returns t hover := by
    rcases hover.read (Or.inl hcap) with ⟨err, t', hread⟩ | ⟨raw, t', hread, -⟩
    · simp [hread]
    · simp [hread]
  lineProgress t t' buf buf' hover hnext :=
    readLineBody_progress (by rw [hover.cap]; exact hcap) hnext
  autoProgress t t' hover hdesync hnext := hover.readAutoBody hcap hdesync hnext
  headerProgress t t' lines lines' hover hdesync hnext :=
    hover.readHeadersBody hcap hdesync hnext
  budget t buf available _ _ _ := by omega
  pumpEnds σ serde crates core c hover := pump_ends serde crates core bytes hover (Or.inl hcap)

theorem terminates_nil (maxLen : Usize) :
    Terminates maxLen [] where
  returns t hover := by
    obtain ⟨err, hread⟩ := hover.ended.readMessage
    simp [hread]
  lineProgress t t' buf buf' hover hnext := by
    obtain ⟨left, hbody, -⟩ := hover.ended.readLineBody buf
    rw [hbody] at hnext
    cases hnext
  autoProgress t t' hover _ hnext := by
    simp [readAutoBody, hover.ended.readLine] at hnext
  headerProgress t t' lines lines' hover _ hnext := by
    simp [readHeadersBody, hover.ended.readFrameLine] at hnext
  budget t buf available hover hfill hne := by
    rw [hover.ended.fillBuf] at hfill
    cases hfill
    exact absurd rfl hne
  pumpEnds σ serde crates core c hover := pump_ends serde crates core [] hover (Or.inr rfl)

/-- At `usize::MAX` the loop of `read_line` goes round for ever on any byte. -/
theorem run_readLineBody_spins {t : FramedTransport Reader}
    (hmax : t.maxLen.val = usizeMax) (hbyte : startsWithByte t.reader.items = true) (n : Nat) :
    Loop.run readLineBody n ([], t) = none :=
  Loop.run_eq_none_of_spin (fun s => s = ([], t))
    (by
      rintro s rfl
      exact ⟨_, readLineBody_spin hmax hbyte, rfl⟩) n rfl

/-- So does every read of it, in whatever framing. -/
theorem readMessage_spins_on_byte {t : FramedTransport Reader}
    (hmax : t.maxLen.val = usizeMax) (hbyte : startsWithByte t.reader.items = true)
    (hsync : t.desync = none) :
    readMessage t = (.running, t) := by
  have hline : readLine t = (.running, t) := by
    simp only [readLine, collectLine_eq_getD, run_readLineBody_spins hmax hbyte, Option.getD_none,
      andThen]
  simp only [readMessage, hsync]
  cases t.framing with
  | auto =>
      have hbody : readAutoBody t = .leave (.running, t) := by
        simp only [readAutoBody, hline]
      simp only [readAuto_eq_getD, fuel, Loop.run_succ_of_leave _ hbody, Option.getD_some]
  | newline =>
      simp only [readNewline, hline, andThen]
  | contentLength =>
      simp only [readFrameLine, hline, andThen]

theorem startsWithByte_overChunks {maxLen : Usize} {writer : Writer} {chunks : List Chunk}
    (hne : chunks ≠ []) :
    startsWithByte (overChunks maxLen writer chunks).reader.items = true := by
  obtain ⟨⟨bytes, hbytes⟩, chunks, rfl⟩ := List.exists_cons_of_ne_nil hne
  exact startsWithByte_of_chunk rfl

theorem readMessage_spins {maxLen : Usize} (hmax : maxLen.val = usizeMax)
    {bytes : List UInt8} (hne : bytes ≠ []) (writer : Writer) :
    (readMessage (overChunks maxLen writer [⟨bytes, hne⟩])).1 = .running := by
  rw [readMessage_spins_on_byte hmax (startsWithByte_overChunks (by simp)) rfl]

theorem over_overChunks (maxLen : Usize) (writer : Writer) {bytes : List UInt8}
    (hne : bytes ≠ []) :
    Over maxLen bytes (overChunks maxLen writer [⟨bytes, hne⟩]) :=
  ⟨rfl, rfl, bytes, List.suffix_rfl, by
    simp [overChunks, FramedTransport.new, Reader.new, Reader.items, Event.items]⟩

/--
Reading terminates, for every stream, chunking and service, exactly if the cap is
not `usize::MAX` or there is nothing to read.
-/
theorem terminates_iff (maxLen : Usize) (bytes : List UInt8) :
    Terminates maxLen bytes ↔ maxLen.val < usizeMax ∨ bytes = [] := by
  constructor
  · intro h
    by_contra hnot
    obtain ⟨hcap, hne⟩ := not_or.mp hnot
    have hmax := eq_usizeMax_of_not_lt hcap
    exact h.returns _ (over_overChunks maxLen .reliable hne)
      (readMessage_spins hmax hne .reliable)
  · rintro (hcap | rfl)
    · exact terminates_of_lt hcap bytes
    · exact terminates_nil maxLen

/-- A server configured with the cap `usize::MAX` never reads a message. -/
theorem not_terminates_at_max :
    let maxLen :=
      ((ServerConfig.new "server" "1.0").withMaxContentLength
        ⟨usizeMax, by decide⟩).maxContentLength
    let bytes := asBytes "\x7b\x7d\n"
    ¬ Terminates maxLen bytes ∧
    (readMessage (overChunks maxLen .reliable [⟨bytes, by decide⟩])).1 = .running ∧
    ∀ n, Loop.run readLineBody n ([], overChunks maxLen .reliable [⟨bytes, by decide⟩]) =
      none := by
  intro maxLen bytes
  have hne : bytes ≠ [] := by
    decide
  have hspins := @readMessage_spins maxLen rfl _ hne .reliable
  exact ⟨fun h => h.returns _ (over_overChunks maxLen .reliable hne) hspins, hspins,
    run_readLineBody_spins rfl rfl⟩

end Terminate

end Runner
end McpCore
