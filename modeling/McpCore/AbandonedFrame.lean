import McpCore.Boundary
import McpCore.LockIn

/-!
# Where messages start

A read that fails somewhere inside a line or a frame has to give the stream up,
or the next read starts inside what this one abandoned and may return it as a
message.

`reads_whole_iff` says when that does not happen: the runs in which every
message starts where complete lines and frames end are exactly those in which no
read is broken off by an I/O failure in the middle of a line, outside frames.
-/

namespace McpCore
namespace Transport

open Text

section Runs

variable {maxLen : Usize}

/-- The peer has closed the stream and everything it sent was read. -/
def Exhausted (t : FramedTransport Reader) : Prop :=
  t.reader.closed = true ∧ t.reader.items = []

/-- The stream was given up: no later read returns a message. -/
def GivenUp (t : FramedTransport Reader) : Prop :=
  t.desync.isSome ∧ ∀ n, ∀ outcome ∈ (reads n t).1, ∀ text, outcome ≠ .ok text

/-- A read from `t` abandons nothing silently: when it fails, the bytes consumed
are complete lines and frames, or the peer is gone, or the stream is given up;
and a message it returns starts where complete lines and frames end. -/
structure CallWhole (t : FramedTransport Reader) : Prop where
  error : ∀ err, (readMessage t).1 = .err err →
    Boundary t.maxLen (readMessage t).2.framing (readMessage t).2.reader.consumed ∨
    Exhausted (readMessage t).2 ∨ GivenUp (readMessage t).2
  message : ∀ text, (readMessage t).1 = .ok text →
    Boundary t.maxLen t.framing t.reader.consumed

/-- The next read is broken off in the middle of a line. -/
def BrokenOff (t : FramedTransport Reader) : Prop :=
  t.desync = none ∧ BreaksOff t.maxLen t.framing t.reader.items

theorem BreaksOff.ne_nil
    {cap : Nat} {framing : Framing} {items : List Item} (h : BreaksOff cap framing items) :
    items ≠ [] := by
  cases h with
  | here =>
      simp
  | skip hline =>
      have := hline.ends.ne_nil
      simp [this]

theorem givenUp_of_desync {t : FramedTransport Reader} (h : t.desync.isSome) :
    GivenUp t := by
  refine ⟨h, fun n => ?_⟩
  refine Mealy.run_outputs _ (fun t : FramedTransport Reader => t.desync.isSome)
    (fun outcome : Outcome String => ∀ text, outcome ≠ .ok text) ?_ (List.replicate n ()) h
  intro _ t h
  obtain ⟨reason, hreason⟩ := Option.isSome_iff_exists.mp h
  rw [readMessage_of_desync hreason]
  exact ⟨h, by simp⟩

/-- Where `Rests` puts a transport, in terms of what `CallWhole` asks. -/
theorem Rests.cases_chunked
    {t : FramedTransport Reader} (h : Rests maxLen (t.mapReader Reader.unchunked)) :
    Boundary maxLen t.framing t.reader.consumed ∨ Exhausted t ∨ GivenUp t := by
  cases h with
  | lost hdesync =>
      exact Or.inr (Or.inr (givenUp_of_desync hdesync))
  | exhausted h hitems =>
      exact Or.inr (Or.inl ⟨h.closed, hitems⟩)
  | whole h hboundary =>
      have hframing : t.framing = _ := h.framing
      have hconsumed : t.reader.consumed = _ := h.consumed
      rw [hframing, hconsumed]
      exact Or.inl hboundary

/-- A read of a stream that was used up finds its end. -/
theorem readMessage_exhausted
    {framing : Framing} {consumed : List UInt8} {t : FramedTransport Stream}
    (h : Reading maxLen framing consumed t) (hitems : t.reader.items = [])
    (hcap : maxLen.val < usizeMax) :
    (∀ text, (readMessage t).1 ≠ .ok text) ∧ Rests maxLen (readMessage t).2 := by
  have hat : At maxLen framing [] t :=
    ⟨h.cap, h.framing, h.sync, h.closed, hitems⟩
  obtain ⟨phase, hphase, hend⟩ : ∃ phase : Phase, phase.framing = some framing ∧
      decode maxLen ⟨phase, []⟩ = (.connectionClosed, ⟨phase, []⟩) := by
    cases framing with
    | auto =>
        refine ⟨.undecided, rfl, ?_⟩
        simp only [decode]
        rw [decodeUndecided]
        simp
    | newline =>
        exact ⟨.newline, rfl, rfl⟩
    | contentLength =>
        exact ⟨.contentLength, rfl, rfl⟩
  obtain ⟨hsame, htracks⟩ := readMessage_tracks (.synced hphase hat) hcap
  rw [hend] at hsame htracks
  refine ⟨fun text htext => ?_, ?_⟩
  · rw [htext] at hsame
    cases hsame
  · generalize (readMessage t).2 = u at htracks
    cases htracks with
    | refused hdesync =>
        exact .lost hdesync
    | synced hphase' hat' =>
        exact .exhausted ⟨hat'.cap, hat'.framing, hat'.sync, hat'.closed, rfl⟩ hat'.items

theorem not_callWhole_of_astray
    (t : FramedTransport Reader) {err : Error}
    (herr : (readMessage t).1 = .err err)
    (h : Astray ((readMessage t).2.mapReader Reader.unchunked)) :
    ¬ CallWhole t := by
  intro hwhole
  rcases hwhole.error err herr with hboundary | hexhausted | hgiven
  · obtain ⟨before, body, hconsumed, hne, hbody⟩ := h.inside
    have hconsumed : (readMessage t).2.reader.consumed = before ++ body := hconsumed
    rw [hconsumed] at hboundary
    rcases hboundary.eq_nil_or_concat h.framing with hnil | ⟨before', hlast⟩
    · exact hne (List.append_eq_nil_iff.mp hnil).2
    · have hmem : body.getLast hne = lineFeed := by
        have := congrArg List.getLast? hlast
        rw [List.getLast?_append_of_ne_nil _ hne, List.getLast?_concat,
          List.getLast?_eq_getLast_of_ne_nil hne] at this
        exact Option.some.inj this
      exact hbody (hmem ▸ List.getLast_mem hne)
  · exact h.more hexhausted.2
  · have hsync : (readMessage t).2.desync = none := h.sync
    rw [GivenUp, hsync] at hgiven
    exact absurd hgiven.1 (by simp)

theorem readMessage_unchunked_fst (t : FramedTransport Reader) :
    (readMessage (t.mapReader Reader.unchunked)).1 = (readMessage t).1 := by
  rw [readMessage_unchunked]
  rfl

theorem readMessage_unchunked_snd (t : FramedTransport Reader) :
    (readMessage (t.mapReader Reader.unchunked)).2 =
      (readMessage t).2.mapReader Reader.unchunked := by
  rw [readMessage_unchunked]
  rfl

/-- A read that leaves the transport at rest is whole if its messages are. -/
theorem callWhole_of_rests
    {t : FramedTransport Reader} (hmaxLen : t.maxLen = maxLen)
    (hrests : Rests maxLen ((readMessage t).2.mapReader Reader.unchunked))
    (hmessage : ∀ text, (readMessage t).1 = .ok text →
      Boundary t.maxLen t.framing t.reader.consumed) :
    CallWhole t := by
  refine ⟨fun _ _ => ?_, hmessage⟩
  rw [hmaxLen]
  exact hrests.cases_chunked

/-- A read of a stream that was given up is whole. -/
theorem callWhole_of_lost
    {t : FramedTransport Reader} (hmaxLen : t.maxLen = maxLen) (hdesync : t.desync.isSome) :
    CallWhole t ∧ Rests maxLen ((readMessage t).2.mapReader Reader.unchunked) := by
  obtain ⟨reason, hreason⟩ := Option.isSome_iff_exists.mp hdesync
  have hread := readMessage_of_desync hreason
  have hrests : Rests maxLen ((readMessage t).2.mapReader Reader.unchunked) := by
    rw [hread]
    exact .lost hdesync
  refine ⟨callWhole_of_rests hmaxLen hrests fun text htext => ?_, hrests⟩
  rw [hread] at htext
  cases htext

/-- So is a read of a stream that was used up. -/
theorem callWhole_of_exhausted
    {framing : Framing} {consumed : List UInt8} {t : FramedTransport Reader}
    (hmaxLen : t.maxLen = maxLen)
    (h : Reading maxLen framing consumed (t.mapReader Reader.unchunked))
    (hitems : t.reader.items = []) (hcap : maxLen.val < usizeMax) :
    CallWhole t ∧ Rests maxLen ((readMessage t).2.mapReader Reader.unchunked) := by
  obtain ⟨hmessage, hrests⟩ := readMessage_exhausted h hitems hcap
  rw [readMessage_unchunked_fst] at hmessage
  rw [readMessage_unchunked_snd] at hrests
  exact ⟨callWhole_of_rests hmaxLen hrests fun text htext => absurd htext (hmessage text), hrests⟩

/-- A read from a boundary is whole unless it is broken off. -/
theorem callWhole_of_whole
    {t : FramedTransport Reader} (hmaxLen : t.maxLen = maxLen)
    (h : Reading maxLen t.framing t.reader.consumed (t.mapReader Reader.unchunked))
    (hboundary : Boundary maxLen t.framing t.reader.consumed)
    (hcap : maxLen.val < usizeMax) (hbroken : ¬ BrokenOff t) :
    CallWhole t ∧ Rests maxLen ((readMessage t).2.mapReader Reader.unchunked) := by
  have hrests : Rests maxLen ((readMessage t).2.mapReader Reader.unchunked) := by
    rw [← readMessage_unchunked_snd]
    refine (readMessage_comes h hcap hboundary fun hbreaks => hbroken ⟨h.sync, ?_⟩).rests
    rw [hmaxLen]
    exact hbreaks
  refine ⟨callWhole_of_rests hmaxLen hrests fun _ _ => ?_, hrests⟩
  rw [hmaxLen]
  exact hboundary

/-- A read from a boundary that is broken off is not whole. -/
theorem not_callWhole_of_brokenOff
    {t : FramedTransport Reader} (hmaxLen : t.maxLen = maxLen)
    (h : Reading maxLen t.framing t.reader.consumed (t.mapReader Reader.unchunked))
    (hcap : maxLen.val < usizeMax) (hbroken : BrokenOff t) :
    ¬ CallWhole t := by
  have hbreaks : BreaksOff maxLen t.framing t.reader.items := by
    rw [← hmaxLen]
    exact hbroken.2
  obtain ⟨⟨err, herr⟩, hastray⟩ := readMessage_breaksOff h hcap hbreaks
  rw [readMessage_unchunked_fst] at herr
  rw [readMessage_unchunked_snd] at hastray
  exact not_callWhole_of_astray t herr hastray

/-- One read from a transport at rest: it abandons something silently exactly
when it is broken off, and otherwise leaves the transport at rest. -/
theorem callWhole_iff
    {t : FramedTransport Reader} (h : Rests maxLen (t.mapReader Reader.unchunked))
    (hmaxLen : t.maxLen = maxLen) (hcap : maxLen.val < usizeMax) :
    (CallWhole t ↔ ¬ BrokenOff t) ∧
    (¬ BrokenOff t → Rests maxLen ((readMessage t).2.mapReader Reader.unchunked)) := by
  cases h with
  | lost hdesync =>
      have hbroken : ¬ BrokenOff t := by
        intro hbroken
        have hsome : t.desync.isSome := hdesync
        rw [hbroken.1] at hsome
        cases hsome
      obtain ⟨hwhole, hrests⟩ := callWhole_of_lost hmaxLen hdesync
      exact ⟨iff_of_true hwhole hbroken, fun _ => hrests⟩
  | exhausted h hitems =>
      have hbroken : ¬ BrokenOff t := fun hbroken => hbroken.2.ne_nil hitems
      obtain ⟨hwhole, hrests⟩ := callWhole_of_exhausted hmaxLen h hitems hcap
      exact ⟨iff_of_true hwhole hbroken, fun _ => hrests⟩
  | @whole framing consumed _ h hboundary =>
      have hframing : t.framing = framing := h.framing
      have hconsumed : t.reader.consumed = consumed := h.consumed
      subst hframing hconsumed
      have hwhole := callWhole_of_whole hmaxLen h hboundary hcap
      refine ⟨⟨?_, fun hbroken => (hwhole hbroken).1⟩, fun hbroken => (hwhole hbroken).2⟩
      exact fun hcall hbroken => not_callWhole_of_brokenOff hmaxLen h hcap hbroken hcall

/-- The runs of reads in which nothing is abandoned silently are those in which
no read is broken off. -/
theorem reads_whole_iff
    (maxLen : Usize) (hcap : maxLen.val < usizeMax)
    (framing : Framing) (events : List Event) (writer : Writer) (n : Nat) :
    let t : FramedTransport Reader := ⟨.new events true, writer, framing, maxLen, none⟩
    (∀ k < n, CallWhole (reads k t).2) ↔ (∀ k < n, ¬ BrokenOff (reads k t).2) := by
  intro t
  have hmaxLen : ∀ k, (reads k t).2.maxLen = maxLen := by
    intro k
    refine Mealy.run_invariant _ (fun u : FramedTransport Reader => u.maxLen = maxLen) ?_
      (List.replicate k ()) rfl
    intro _ u hu
    exact (kept_readMessage u).maxLen.trans hu
  have hrests : ∀ k, (∀ j < k, ¬ BrokenOff (reads j t).2) →
      Rests maxLen ((reads k t).2.mapReader Reader.unchunked) := by
    intro k
    induction k with
    | zero =>
        intro _
        exact .whole ⟨rfl, rfl, rfl, rfl, rfl⟩ (.start framing)
    | succ k ih =>
        intro hno
        rw [reads_succ_snd]
        have hbefore := ih fun j hj => hno j (by omega)
        exact (callWhole_iff hbefore (hmaxLen k) hcap).2 (hno k (by omega))
  induction n with
  | zero =>
      simp
  | succ n ih =>
      simp only [Nat.forall_lt_succ_right, ih]
      refine and_congr_right fun hno => ?_
      exact (callWhole_iff (hrests n hno) (hmaxLen n) hcap).1

/-- A line that is broken off after three bytes: its rest is read as a message. -/
theorem reads_not_whole_of_broken_line :
    let t : FramedTransport Reader :=
      .new (.new [.chunk (asBytes "abc") (by decide), .fail ⟨"reset"⟩,
        .chunk (asBytes "def\n") (by decide)] true) .reliable 64
    (reads 2 t).1 = [.err (.io ⟨"reset"⟩), .ok "def"] ∧
      ¬ ∀ k < 2, CallWhole (reads k t).2 := by
  intro t
  refine ⟨by decide, fun h => ?_⟩
  have hreset : (readMessage t).1 = .err (.io ⟨"reset"⟩) := by
    decide
  have hastray : Astray ((readMessage t).2.mapReader Reader.unchunked) :=
    ⟨by decide, by decide, by decide, [], asBytes "abc", by decide, by decide, by decide⟩
  exact not_callWhole_of_astray t hreset hastray
    (h 0 (by decide))

/-- An I/O failure between two lines abandons nothing. -/
theorem reads_whole_iff_of_failure_between_lines :
    let t : FramedTransport Reader :=
      ⟨.new [.chunk (asBytes "abc\n") (by decide), .fail ⟨"reset"⟩,
        .chunk (asBytes "def\n") (by decide)] true, .reliable, .newline, 64, none⟩
    (reads 3 t).1 = [.ok "abc", .err (.io ⟨"reset"⟩), .ok "def"] ∧
      ((∀ k < 3, CallWhole (reads k t).2) ↔ (∀ k < 3, ¬ BrokenOff (reads k t).2)) :=
  ⟨by decide, reads_whole_iff 64 (by decide) .newline _ .reliable 3⟩

end Runs

end Transport
end McpCore
