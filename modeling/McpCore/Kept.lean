import McpCore.Calls
import McpCore.Library.Faults

/-!
# What one call leaves alone

`Kept` says what a read keeps of a transport, on every path through the code:
the writer and the cap, the framing once it was detected, the reason the stream
was given up for once it was.  `Sends` says what a write does: it sends the
message in the framing of the transport, or a part from its start if the writer
fails, and changes nothing but the writer.  And which writer a transport has does not matter to its
reads.
-/

namespace McpCore
namespace Transport

open Text

section Kept

variable {R : Type}

/-- `t'` has what `t` has settled: the writer and the cap, the framing if it was
detected, and the reason the stream was given up for if it was. -/
structure Kept (t t' : FramedTransport R) : Prop where
  writer : t'.writer = t.writer
  maxLen : t'.maxLen = t.maxLen
  framing : t.framing ≠ .auto → t'.framing = t.framing
  desync : ∀ reason, t.desync = some reason → t'.desync = some reason

variable {t u v : FramedTransport R}

theorem Kept.refl (t : FramedTransport R) : Kept t t :=
  ⟨rfl, rfl, fun _ => rfl, fun _ h => h⟩

theorem Kept.trans (h : Kept t u) (h' : Kept u v) : Kept t v where
  writer := h'.writer.trans h.writer
  maxLen := h'.maxLen.trans h.maxLen
  framing hauto := by
    have hu := h.framing hauto
    exact (h'.framing (hu ▸ hauto)).trans hu
  desync reason hreason := h'.desync reason (h.desync reason hreason)

theorem kept_poison (t : FramedTransport R) (reason : String) :
    Kept t (poison t reason) where
  writer := rfl
  maxLen := rfl
  framing _ := rfl
  desync first hfirst := by
    simp [poison, hfirst]

theorem kept_desyncError {α : Type} (t : FramedTransport R) (reason : String) :
    Kept t (desyncError (α := α) t reason).2 :=
  kept_poison t reason

theorem kept_checkLen (t : FramedTransport R) (len : Nat) (what : String) :
    Kept t (checkLen t len what).2 := by
  unfold checkLen
  split
  · exact kept_desyncError t _
  · exact .refl t

theorem kept_reader (t : FramedTransport R) (reader : R) :
    Kept t { t with reader } :=
  ⟨rfl, rfl, fun _ => rfl, fun _ h => h⟩

theorem kept_andThen
    {α β : Type}
    {call : Outcome α × FramedTransport R}
    {k : α → FramedTransport R → Outcome β × FramedTransport R}
    (hcall : Kept t call.2) (hk : ∀ a u, Kept u (k a u).2) :
    Kept t (andThen call k).2 := by
  obtain ⟨outcome, u⟩ := call
  cases outcome with
  | ok a =>
      exact hcall.trans (hk a u)
  | err e =>
      exact hcall
  | running =>
      exact hcall

end Kept

section KeptByReads

variable {t : FramedTransport Stream}

theorem kept_collectLine (t : FramedTransport Stream) :
    Kept t (LineReader.collectLine t).2 := by
  simp only [LineReader.collectLine]
  split
  · exact .refl t
  · unfold lineOutcome
    generalize scanLine t.maxLen t.reader.closed _ t.reader.items = scan
    obtain ⟨lineEnd, taken, items⟩ := scan
    have hadvance : Kept t (advance t taken items) :=
      kept_reader t _
    cases lineEnd with
    | newline =>
        exact hadvance
    | eof =>
        simp only [lineEndOutcome]
        split
        · exact hadvance
        · exact hadvance
    | overlong =>
        exact hadvance.trans (kept_desyncError _ _)
    | failed err =>
        exact hadvance
    | waiting =>
        exact hadvance

theorem kept_readLine (t : FramedTransport Stream) :
    Kept t (readLine t).2 := by
  refine kept_andThen (kept_collectLine t) ?_
  intro buf u
  exact kept_andThen (kept_checkLen u _ _) (fun _ v => .refl v)

theorem kept_readFrameLine (t : FramedTransport Stream) :
    Kept t (readFrameLine t).2 := by
  have h := kept_readLine t
  unfold readFrameLine
  generalize readLine t = call at h ⊢
  obtain ⟨outcome, u⟩ := call
  cases outcome with
  | ok line =>
      exact h
  | err err =>
      simp only
      split
      · exact h
      · exact h.trans (kept_poison u _)
  | running =>
      exact h

theorem kept_readHeadersBody (lines : Nat) (t : FramedTransport Stream) :
    (∀ s, readHeadersBody (lines, t) = .next s → Kept t s.2) ∧
    (∀ left, readHeadersBody (lines, t) = .leave left → Kept t left.2) := by
  have h := kept_readFrameLine t
  unfold readHeadersBody
  simp only
  generalize readFrameLine t = call at h ⊢
  obtain ⟨outcome, u⟩ := call
  cases outcome with
  | ok line =>
      simp only
      split
      · exact ⟨by simp, by rintro _ ⟨⟩; exact h⟩
      · split
        · exact ⟨by simp, by rintro _ ⟨⟩; exact h.trans (kept_desyncError u _)⟩
        · exact ⟨by rintro _ ⟨⟩; exact h, by simp⟩
  | err err =>
      exact ⟨by simp, by rintro _ ⟨⟩; exact h⟩
  | running =>
      exact ⟨by simp, by rintro _ ⟨⟩; exact h⟩

theorem kept_readHeaders (t : FramedTransport Stream) :
    Kept t (readHeaders t).2 := by
  unfold readHeaders
  cases hrun : Loop.run readHeadersBody (fuel t) (1, t) with
  | none =>
      exact .refl t
  | some left =>
      refine Loop.run_invariant (fun s => Kept t s.2) (fun left => Kept t left.2)
        ?_ ?_ (.refl t) hrun
      · intro s s' hs hbody
        exact hs.trans ((kept_readHeadersBody s.1 s.2).1 s' hbody)
      · intro s left hs hbody
        exact hs.trans ((kept_readHeadersBody s.1 s.2).2 left hbody)

theorem kept_readFrameBody (declared : Nat) (t : FramedTransport Stream) :
    Kept t (readFrameBody declared t).2 := by
  unfold readFrameBody
  rcases LineReader.collectBody declared t.reader with ⟨bodyEnd, buf, reader⟩
  cases bodyEnd with
  | done =>
      simp only
      split
      · exact (kept_reader t reader).trans (kept_desyncError _ _)
      · exact kept_reader t reader
  | failed err =>
      exact (kept_reader t reader).trans (kept_poison _ _)
  | waiting =>
      exact kept_reader t reader

theorem kept_readContentLength (first : String) (t : FramedTransport Stream) :
    Kept t (readContentLength first t).2 := by
  rcases readContentLength_cases first t with ⟨declared, -, hleft⟩ | ⟨reason, hleft⟩
  · rw [hleft]
    exact kept_andThen (kept_readHeaders t) (fun _ u => kept_readFrameBody declared u)
  · rw [hleft]
    exact kept_desyncError t reason

/-- `read_auto` is only called while the framing is undetected; what it sets the
framing to is then kept. -/
theorem kept_readAuto (hauto : t.framing = .auto) :
    Kept t (readAuto t).2 := by
  have hset : ∀ {u : FramedTransport Stream} (framing : Framing),
      Kept t u → Kept t { u with framing } := by
    intro u framing h
    exact ⟨h.writer, h.maxLen, fun hdetected => absurd hauto hdetected, h.desync⟩
  have hbody : ∀ u : FramedTransport Stream, Kept t u →
      (∀ s, readAutoBody u = .next s → Kept t s) ∧
      (∀ left, readAutoBody u = .leave left → Kept t left.2) := by
    intro u hu
    have h := hu.trans (kept_readLine u)
    unfold readAutoBody
    generalize readLine u = call at h ⊢
    obtain ⟨outcome, v⟩ := call
    cases outcome with
    | ok line =>
        simp only
        split
        · exact ⟨by rintro _ ⟨⟩; exact h, by simp⟩
        · split
          · have hframe := (hset .contentLength h).trans
              (kept_readContentLength (trimCrlf line) { v with framing := .contentLength })
            generalize readContentLength (trimCrlf line)
              { v with framing := .contentLength } = left at hframe ⊢
            exact ⟨by simp, by rintro _ ⟨⟩; exact hframe⟩
          · exact ⟨by simp, by rintro _ ⟨⟩; exact hset _ h⟩
    | err err =>
        exact ⟨by simp, by rintro _ ⟨⟩; exact h⟩
    | running =>
        exact ⟨by simp, by rintro _ ⟨⟩; exact h⟩
  unfold readAuto
  cases hrun : Loop.run readAutoBody (fuel t) t with
  | none =>
      exact .refl t
  | some left =>
      exact Loop.run_invariant (Kept t) (fun left => Kept t left.2)
        (fun u s hu hnext => (hbody u hu).1 s hnext)
        (fun u left hu hleave => (hbody u hu).2 left hleave)
        (.refl t) hrun

theorem kept_readMessage_stream (t : FramedTransport Stream) :
    Kept t (readMessage t).2 := by
  unfold readMessage
  cases hdesync : t.desync with
  | some reason =>
      exact .refl t
  | none =>
      cases hframing : t.framing with
      | auto =>
          exact kept_readAuto hframing
      | newline =>
          exact kept_andThen (kept_readLine t) (fun _ u => .refl u)
      | contentLength =>
          exact kept_andThen (kept_readFrameLine t) (fun first u => kept_readContentLength first u)

/-- A read keeps what the transport has settled, on every path. -/
theorem kept_readMessage (t : FramedTransport Reader) :
    Kept t (readMessage t).2 := by
  have h := kept_readMessage_stream (t.mapReader Reader.unchunked)
  rw [readMessage_unchunked] at h
  exact ⟨h.writer, h.maxLen, h.framing, h.desync⟩

end KeptByReads

section AnyWriter

/-- Transports that differ in their writers only. -/
abbrev AlikeButWriter : FramedTransport Reader → FramedTransport Reader → Prop :=
  Alike Eq fun _ _ => True

theorem readLineBody_anyWriter
    (buf : List UInt8) {t t' : FramedTransport Reader} (h : AlikeButWriter t t') :
    (readLineBody (buf, t)).Related
      (fun s s' => s.1 = s'.1 ∧ AlikeButWriter s.2 s'.2)
      (Agree False Eq fun _ _ => True) (fun left => False ∧ left.1 = .running)
      (readLineBody (buf, t')) := by
  cases h with
  | @mk reader _ writer writer' h _ framing maxLen desync =>
      subst h
      unfold readLineBody
      simp only
      rcases reader.fillBuf with ⟨available | err | _, reader⟩
      · simp only
        split
        · split
          · exact .leave (.same (.mk rfl trivial ..))
          · exact .leave (.same (.mk rfl trivial ..))
        · split
          · exact .leave (.same (.mk rfl trivial ..))
          · generalize min available.length (remainingBudget maxLen.val buf.length) = take
            have halike : AlikeButWriter ⟨reader.consume take, writer, framing, maxLen, desync⟩
                ⟨reader.consume take, writer', framing, maxLen, desync⟩ :=
              .mk rfl trivial ..
            have hcheck : Agree False Eq _ _ _ :=
              checkLen_agree halike (buf ++ available.take take).length "line length"
            revert hcheck
            generalize checkLen _ _ _ = call
            generalize checkLen _ _ _ = call'
            intro hcheck
            cases hcheck with
            | @same outcome t t' h =>
                cases outcome with
                | ok _ =>
                    exact .next ⟨rfl, h⟩
                | err e =>
                    exact .leave (.same h)
                | running =>
                    exact .leave (.same h)
            | waiting hlax =>
                exact hlax.elim
      · exact .leave (.same (.mk rfl trivial ..))
      · exact .leave (.same (.mk rfl trivial ..))

/-- Taking bytes does not depend on the writer. -/
theorem respects_anyWriter :
    Respects False (Eq : Reader → Reader → Prop) (fun _ _ => True) where
  line := by
    intro t t' h
    have hreader : t.reader = t'.reader := by
      cases h with
      | mk h _ =>
          exact h
    rw [collectLine_eq_getD, collectLine_eq_getD]
    refine run_agree ?_ (S := fun s s' => s.1 = s'.1 ∧ AlikeButWriter s.2 s'.2)
      ⟨rfl, h⟩ h (Or.inl (by rw [hreader]))
    rintro ⟨buf, t⟩ ⟨_, t'⟩ ⟨rfl, h⟩
    exact readLineBody_anyWriter buf h
  body := by
    rintro reader _ rfl n
    exact Or.inr ⟨_, _, _, _, rfl, rfl, rfl⟩
  size := by
    rintro reader _ rfl
    exact Or.inl rfl

/-- Which writer a transport has does not matter to a read. -/
theorem readMessage_writer (t : FramedTransport Reader) (writer : Writer) :
    readMessage { t with writer } =
      ((readMessage t).1, { (readMessage t).2 with writer }) := by
  have hagree := readMessage_agree respects_anyWriter
    (show AlikeButWriter t { t with writer } from .mk rfl trivial ..)
  have hkept := (kept_readMessage { t with writer }).writer
  generalize readMessage t = call at hagree ⊢
  generalize readMessage { t with writer } = call' at hagree hkept ⊢
  cases hagree with
  | same h =>
      cases h with
      | mk h _ =>
          simp only at hkept
          rw [h, hkept]
  | waiting hlax =>
      exact hlax.elim

end AnyWriter

section Writes

variable {R : Type}

/-- A message as `write_message` frames it. -/
def encode (framing : Framing) (message : String) : List UInt8 :=
  match framing with
  | .contentLength =>
      asBytes s!"Content-Length: {(asBytes message).length}\r\n\r\n" ++ asBytes message
  | .auto | .newline => asBytes message ++ [lineFeed]

/-- A call that sends these bytes, or a part from their start if the writer fails, and
changes nothing but the writer. -/
structure Sends (bytes : List UInt8) (t : FramedTransport R)
    (call : Outcome Unit × FramedTransport R) : Prop where
  only : ∃ writer, call.2 = { t with writer }
  sent : ∃ sent, call.2.writer.written = t.writer.written ++ sent ∧ sent <+: bytes ∧
    (call.1 = .ok () → sent = bytes)
  taken : call.2.writer.faults <:+ t.writer.faults
  /-- It returns, and fails only with an error that the writer gave it. -/
  returns : call.1 = .ok () ∨
    ∃ fault, Faults.Fired t.writer.faults call.2.writer.faults fault ∧
      call.1 = .err (.io fault.2)

theorem sends_writeAll (bytes : List UInt8) (t : FramedTransport R) :
    Sends bytes t (writeAll bytes t) := by
  unfold writeAll Writer.writeAll
  obtain ⟨reader, ⟨written, faults⟩, framing, maxLen, desync⟩ := t
  rcases faults with _ | ⟨_ | ⟨sent, err⟩, faults⟩
  · exact ⟨⟨_, rfl⟩, ⟨bytes, rfl, List.prefix_rfl, fun _ => rfl⟩, List.suffix_rfl, .inl rfl⟩
  · exact ⟨⟨_, rfl⟩, ⟨bytes, rfl, List.prefix_rfl, fun _ => rfl⟩, List.suffix_cons _ _, .inl rfl⟩
  · exact ⟨⟨_, rfl⟩, ⟨bytes.take sent, rfl, List.take_prefix _ _, by simp⟩,
      List.suffix_cons _ _, .inr ⟨(sent, err), Faults.fired_cons, rfl⟩⟩

/-- A write after a write; the framing stays what it was. -/
theorem Sends.andThen
    {a b : List UInt8} {t : FramedTransport R} {call : Outcome Unit × FramedTransport R}
    {k : Unit → FramedTransport R → Outcome Unit × FramedTransport R}
    (hcall : Sends a t call)
    (hk : ∀ x, ∀ u : FramedTransport R, u.framing = t.framing → Sends b u (k x u)) :
    Sends (a ++ b) t (andThen call k) := by
  obtain ⟨⟨writer, honly⟩, ⟨sent, hwritten, hpre, hall⟩, htaken, hreturns⟩ := hcall
  obtain ⟨outcome, u⟩ := call
  simp only at honly
  subst u
  rcases hreturns with rfl | ⟨fault, hfired, rfl⟩
  · obtain ⟨⟨writer', honly'⟩, ⟨sent', hwritten', hpre', hall'⟩, htaken', hreturns'⟩ :=
      hk () { t with writer } rfl
    rw [hall rfl] at hwritten
    simp only [Transport.andThen]
    refine ⟨⟨writer', honly'⟩, ⟨a ++ sent', ?_, ?_, ?_⟩, htaken'.trans htaken,
      hreturns'.imp_right fun ⟨fault, hfired, hfailed⟩ => ⟨fault, hfired.earlier htaken, hfailed⟩⟩
    · rw [hwritten', hwritten, List.append_assoc]
    · exact (List.prefix_append_right_inj a).mpr hpre'
    · intro hok
      rw [hall' hok]
  · exact ⟨⟨writer, rfl⟩, ⟨sent, hwritten, hpre.trans (List.prefix_append a b),
      fun hok => by cases hok⟩, htaken, .inr ⟨fault, hfired, rfl⟩⟩

/-- A write sends the message in the framing of the transport. -/
theorem sends_writeMessage (message : String) (t : FramedTransport R) :
    Sends (encode t.framing message) t (writeMessage message t) := by
  have hsent : ∀ a b : List UInt8,
      Sends (a ++ b) t
        (Transport.andThen (Transport.andThen (writeAll a t) fun _ u => writeAll b u)
          fun _ u => flush u) := by
    intro a b
    simp only [flush_eq]
    have h := ((sends_writeAll a t).andThen fun _ u _ => sends_writeAll b u).andThen
      fun _ u _ => sends_writeAll [] u
    rw [List.append_nil] at h
    exact h
  unfold writeMessage encode
  cases t.framing with
  | auto =>
      exact hsent _ _
  | newline =>
      exact hsent _ _
  | contentLength =>
      exact hsent _ _

/-- A write that meets no fault sends the whole message. -/
theorem writeMessage_reliable
    {t : FramedTransport R} (h : t.writer.faults = []) (message : String) :
    writeMessage message t =
      (.ok (), { t with writer := ⟨t.writer.written ++ encode t.framing message, []⟩ }) := by
  obtain ⟨reader, ⟨written, faults⟩, framing, maxLen, desync⟩ := t
  simp only at h
  subst h
  cases framing with
  | auto =>
      simp [writeMessage, flush_eq, writeAll, Writer.writeAll, andThen, encode]
  | newline =>
      simp [writeMessage, flush_eq, writeAll, Writer.writeAll, andThen, encode]
  | contentLength =>
      simp [writeMessage, flush_eq, writeAll, Writer.writeAll, andThen, encode]

end Writes

end Transport
end McpCore
