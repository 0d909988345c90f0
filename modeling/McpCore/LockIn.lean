import McpCore.Kept

/-!
# Runs settle the framing and isolate what was given up

The framing of a transport is settled once, by a read, and the loss of its
stream is permanent; both are invariants of runs of calls, from what one call
keeps.

`calls_settled_and_isolated` adds the consequence for an adversary: once a read
has given the stream up, nothing that follows in the stream can influence
anything the transport does.  `Begins` relates what has been seen of a stream to
the stream, and reading is parametric in it.
-/

namespace McpCore
namespace Transport

open Text

section Runs

variable {t u : FramedTransport Reader}

/-- What every call keeps: the framing if it was detected, and the reason the
stream was given up for if it was. -/
structure Settled (t t' : FramedTransport Reader) : Prop where
  framing : t.framing ≠ .auto → t'.framing = t.framing
  desync : ∀ reason, t.desync = some reason → t'.desync = some reason

theorem settled_call (c : Call) (t : FramedTransport Reader) :
    Settled t (call c t).2 := by
  cases c with
  | read =>
      have h := kept_readMessage t
      exact ⟨h.framing, h.desync⟩
  | write message =>
      obtain ⟨writer, hwriter⟩ := (sends_writeMessage message t).only
      simp only [call, hwriter]
      exact ⟨fun _ => rfl, fun _ h => h⟩

theorem settled_calls (cs : List Call) (t : FramedTransport Reader) :
    Settled t (calls cs t).2 := by
  refine Mealy.run_invariant _ (Settled t) ?_ cs ⟨fun _ => rfl, fun _ h => h⟩
  intro c u hu
  have h := settled_call c u
  refine ⟨?_, fun reason hreason => h.desync reason (hu.desync reason hreason)⟩
  intro hauto
  have hframing := hu.framing hauto
  exact (h.framing (hframing ▸ hauto)).trans hframing

/-- A transport that gave its stream up for `reason`, over this reader. -/
structure GaveUp (reason : String) (reader : Reader) (t : FramedTransport Reader) : Prop where
  desync : t.desync = some reason
  reader : t.reader = reader

/-- Every call after a stream was given up leaves it given up and unread, and
every read says so in the same words. -/
theorem calls_gaveUp
    {reason : String} {reader : Reader} (h : GaveUp reason reader t) (cs : List Call) :
    GaveUp reason reader (calls cs t).2 ∧
    ∀ reply ∈ (calls cs t).1, ∀ outcome, reply = .read outcome →
      outcome = .err (invalidMessage (desyncReason reason)) := by
  have hstep : ∀ c u, GaveUp reason reader u →
      GaveUp reason reader (call c u).2 ∧
      ∀ outcome, (call c u).1 = .read outcome →
        outcome = .err (invalidMessage (desyncReason reason)) := by
    intro c u hu
    cases c with
    | read =>
        simp only [call, readMessage_of_desync hu.desync]
        exact ⟨hu, by rintro _ ⟨⟩; rfl⟩
    | write message =>
        obtain ⟨writer, hwriter⟩ := (sends_writeMessage message u).only
        simp only [call, hwriter]
        exact ⟨⟨hu.desync, hu.reader⟩, by simp⟩
  exact ⟨Mealy.run_invariant _ _ (fun c u hu => (hstep c u hu).1) cs h,
    Mealy.run_outputs _ _ _ hstep cs h⟩

end Runs

section TwoStreams

/-- `s` starts with `p`: it is `p`, or `p` is open and it goes on where `p` is
waiting. -/
inductive Begins : Stream → Stream → Prop
  | whole (s) : Begins s s
  | on {p s more} (hopen : p.closed = false) (hconsumed : s.consumed = p.consumed)
      (hmore : s.items = p.items ++ more) : Begins p s

theorem alike_begins_refl (t : FramedTransport Stream) : Alike Begins Eq t t := by
  obtain ⟨reader, writer, framing, maxLen, desync⟩ := t
  exact .mk (.whole reader) rfl ..

theorem scanLine_extend
    (maxLen : Nat) (closed : Bool) (seen : Nat) (items more : List Item) :
    (scanLine maxLen false seen items).1 = .waiting ∨
    (scanLine maxLen closed seen (items ++ more) =
        ((scanLine maxLen false seen items).1, (scanLine maxLen false seen items).2.1,
          (scanLine maxLen false seen items).2.2 ++ more) ∧
      (scanLine maxLen false seen items).1 ≠ .eof) := by
  induction items generalizing seen with
  | nil =>
      exact Or.inl rfl
  | cons item items ih =>
      cases item with
      | fail err =>
          exact Or.inr ⟨rfl, by simp [scanLine]⟩
      | byte b =>
          simp only [List.cons_append, scanLine]
          by_cases hb : b = lineFeed
          · simp [hb]
          · by_cases hlen : maxLen < seen + 1
            · simp [hb, hlen]
            · simp only [if_neg hb, if_neg hlen]
              rcases ih (seen + 1) with hwait | ⟨hscan, heof⟩
              · exact Or.inl hwait
              · exact Or.inr ⟨by rw [hscan], heof⟩

theorem scanBody_extend
    (closed : Bool) (n : Nat) (items more : List Item) :
    (scanBody false n items).1 = .waiting ∨
    scanBody closed n (items ++ more) =
      ((scanBody false n items).1, (scanBody false n items).2.1,
        (scanBody false n items).2.2 ++ more) := by
  induction n generalizing items with
  | zero =>
      exact Or.inr (by simp [scanBody])
  | succ n ih =>
      cases items with
      | nil =>
          exact Or.inl rfl
      | cons item items =>
          cases item with
          | fail err =>
              exact Or.inr rfl
          | byte b =>
              simp only [List.cons_append, scanBody]
              rcases ih items with hwait | hscan
              · exact Or.inl hwait
              · exact Or.inr (by rw [hscan])

theorem startsWithByte_append
    {items : List Item} (more : List Item) (hne : items ≠ []) :
    startsWithByte (items ++ more) = startsWithByte items := by
  cases items with
  | nil =>
      exact absurd rfl hne
  | cons item items =>
      cases item with
      | byte b =>
          rfl
      | fail err =>
          rfl

theorem collectLine_begins
    {t u : FramedTransport Stream} (h : Alike Begins Eq t u) :
    Agree True Begins Eq (LineReader.collectLine t) (LineReader.collectLine u) := by
  cases h with
  | @mk p s writer writer' h hw framing maxLen desync =>
      subst hw
      cases h with
      | whole =>
          generalize LineReader.collectLine (⟨p, writer, framing, maxLen, desync⟩ :
            FramedTransport Stream) = call
          exact .same (alike_begins_refl call.2)
      | @on _ more hopen hconsumed hmore =>
          by_cases hspin : maxLen.val = usizeMax ∧ startsWithByte p.items = true
          · simp only [LineReader.collectLine, if_pos hspin]
            exact .waiting trivial
          · by_cases hnil : p.items = []
            · have hwait : LineReader.collectLine
                  (⟨p, writer, framing, maxLen, desync⟩ : FramedTransport Stream) =
                    (.running, advance ⟨p, writer, framing, maxLen, desync⟩ [] []) := by
                simp [LineReader.collectLine, hnil, startsWithByte, lineOutcome, scanLine,
                  lineEndOutcome, hopen]
              rw [hwait]
              exact .waiting trivial
            · have hspin' :
                  ¬ (maxLen.val = usizeMax ∧ startsWithByte (p.items ++ more) = true) := by
                rw [startsWithByte_append more hnil]
                exact hspin
              simp only [LineReader.collectLine, if_neg hspin, if_neg hspin', lineOutcome,
                List.length_nil, hopen, hmore]
              rcases scanLine_extend maxLen s.closed 0 p.items more with hwait | ⟨hscan, heof⟩
              · rw [hwait]
                exact .waiting trivial
              · rw [hscan]
                generalize scanLine maxLen false 0 p.items = scan at heof
                obtain ⟨lineEnd, taken, items⟩ := scan
                have hleft : Alike Begins Eq
                    (advance ⟨p, writer, framing, maxLen, desync⟩ taken items)
                    (advance ⟨s, writer, framing, maxLen, desync⟩ taken (items ++ more)) :=
                  .mk (.on hopen (by simp only [hconsumed]) rfl) rfl ..
                cases lineEnd with
                | newline =>
                    exact .same hleft
                | eof =>
                    exact absurd rfl heof
                | overlong =>
                    exact desyncError_agree hleft _
                | failed err =>
                    exact .same hleft
                | waiting =>
                    exact .waiting trivial

/-- A stream gives what its beginning gives, unless that is still waiting. -/
theorem respects_begins : Respects True Begins Eq where
  line := collectLine_begins
  body := by
    intro p s h n
    cases h with
    | whole =>
        exact Or.inr ⟨_, _, _, _, rfl, rfl, .whole _⟩
    | @on _ more hopen hconsumed hmore =>
        simp only [LineReader.collectBody, hopen, hmore]
        rcases scanBody_extend s.closed n p.items more with hwait | hscan
        · exact Or.inl ⟨trivial, hwait⟩
        · refine Or.inr ⟨_, _, _, _, rfl, by rw [hscan], .on rfl ?_ rfl⟩
          simp only [hconsumed]
  size := by
    intro p s h
    cases h with
    | whole =>
        exact Or.inl rfl
    | @on _ more hopen hconsumed hmore =>
        refine Or.inr ⟨trivial, ?_⟩
        simp only [LineReader.size, hmore, List.length_append]
        omega

/-- A call that came back. -/
def Reply.returned (reply : Reply) : Prop :=
  reply ≠ .read .running ∧ reply ≠ .wrote .running

instance (reply : Reply) : Decidable reply.returned :=
  inferInstanceAs (Decidable (_ ∧ _))

theorem call_begins
    (c : Call) {t u : FramedTransport Stream} (h : Alike Begins Eq t u)
    (hreturned : (call c t).1.returned) :
    (call c u).1 = (call c t).1 ∧ Alike Begins Eq (call c t).2 (call c u).2 := by
  cases c with
  | read =>
      have hagree := readMessage_agree respects_begins h
      simp only [call] at hreturned ⊢
      generalize readMessage t = left at hagree hreturned ⊢
      generalize readMessage u = right at hagree ⊢
      cases hagree with
      | same h =>
          exact ⟨rfl, h⟩
      | waiting _ =>
          exact absurd rfl hreturned.1
  | write message =>
      have hagree : Agree True Begins Eq _ _ := writeMessage_agree h message
      simp only [call] at hreturned ⊢
      generalize writeMessage message t = left at hagree hreturned ⊢
      generalize writeMessage message u = right at hagree ⊢
      cases hagree with
      | same h =>
          exact ⟨rfl, h⟩
      | waiting _ =>
          exact absurd rfl hreturned.2

/-- Calls that all return on a beginning of a stream return the same on the
stream. -/
theorem calls_begins
    (cs : List Call) {t u : FramedTransport Stream} (h : Alike Begins Eq t u)
    (hreturned : ∀ reply ∈ (calls cs t).1, reply.returned) :
    (calls cs u).1 = (calls cs t).1 ∧ Alike Begins Eq (calls cs t).2 (calls cs u).2 := by
  induction cs generalizing t u with
  | nil =>
      exact ⟨rfl, h⟩
  | cons c cs ih =>
      simp only [calls, Mealy.run_cons_fst, Mealy.run_cons_snd] at hreturned ih ⊢
      obtain ⟨hreply, hnext⟩ := call_begins c h (hreturned _ (by simp))
      obtain ⟨hreplies, hlast⟩ := ih hnext (fun reply hmem => hreturned reply (by simp [hmem]))
      exact ⟨by rw [hreply, hreplies], hlast⟩

/-- Calls on transports that gave their streams up for the same reason differ in
nothing, whatever the two readers are. -/
theorem calls_alike_of_gaveUp
    (cs : List Call) {t u : FramedTransport Reader}
    (h : Alike (fun _ _ => True) Eq t u) (hdesync : t.desync.isSome) :
    (calls cs u).1 = (calls cs t).1 ∧ Alike (fun _ _ => True) Eq (calls cs t).2 (calls cs u).2 := by
  obtain ⟨hreplies, hlast⟩ :=
    Mealy.run_simulation (call (R := Reader)) (call (R := Reader))
      (fun t u => Alike (fun _ _ => True) Eq t u ∧ t.desync.isSome) id id
      (by
        rintro c t u ⟨h, hdesync⟩
        obtain ⟨reason, hreason⟩ := Option.isSome_iff_exists.mp hdesync
        have hkept := (settled_call c t).desync reason hreason
        cases c with
        | read =>
            have hreason' : u.desync = some reason := by
              cases h with
              | mk h hw =>
                  exact hreason
            simp only [call, readMessage_of_desync hreason, readMessage_of_desync hreason']
            exact ⟨trivial, h, hdesync⟩
        | write message =>
            have hagree : Agree False _ Eq _ _ := writeMessage_agree h message
            simp only [call] at hkept ⊢
            generalize writeMessage message t = left at hagree hkept ⊢
            generalize writeMessage message u = right at hagree ⊢
            cases hagree with
            | same h =>
                exact ⟨rfl, h, Option.isSome_iff_exists.mpr ⟨reason, hkept⟩⟩
            | waiting hlax =>
                exact hlax.elim)
      cs ⟨h, hdesync⟩
  rw [List.map_id, List.map_id] at hreplies
  exact ⟨hreplies.symm, hlast.1⟩

theorem alike_of_mapReader
    {rel : Stream → Stream → Prop} {view : Reader → Stream} {t u : FramedTransport Reader}
    (h : Alike rel Eq (t.mapReader view) (u.mapReader view)) :
    Alike (fun _ _ => True) Eq t u := by
  obtain ⟨reader, writer, framing, maxLen, desync⟩ := t
  obtain ⟨reader', writer', framing', maxLen', desync'⟩ := u
  cases h with
  | mk h hw =>
      exact .mk trivial hw ..

/-- `calls_begins` for chunked streams, as far as it does not show the readers. -/
theorem calls_begins_chunked
    (cs : List Call) (t : FramedTransport Reader) {p s : Reader}
    (h : Begins p.unchunked s.unchunked)
    (hreturned : ∀ reply ∈ (calls cs { t with reader := p }).1, reply.returned) :
    (calls cs { t with reader := s }).1 = (calls cs { t with reader := p }).1 ∧
    Alike (fun _ _ => True) Eq (calls cs { t with reader := p }).2
      (calls cs { t with reader := s }).2 := by
  have halike : Alike Begins Eq
      (FramedTransport.mapReader Reader.unchunked { t with reader := p })
      (FramedTransport.mapReader Reader.unchunked { t with reader := s }) :=
    .mk h rfl ..
  have hp := calls_unchunked cs { t with reader := p }
  have hs := calls_unchunked cs { t with reader := s }
  have hrun := calls_begins cs halike (by rw [hp]; exact hreturned)
  rw [hp, hs] at hrun
  exact ⟨hrun.1, alike_of_mapReader hrun.2⟩

/-- Two streams that begin with `p` are the same to a transport that gave up
within `p`. -/
theorem calls_append_begins
    (cs cs' : List Call) (t : FramedTransport Reader) {p s : Reader}
    (h : Begins p.unchunked s.unchunked)
    (hreturned : ∀ reply ∈ (calls cs { t with reader := p }).1, reply.returned)
    (hdesync : (calls cs { t with reader := p }).2.desync.isSome) :
    (calls (cs ++ cs') { t with reader := s }).1 =
        (calls (cs ++ cs') { t with reader := p }).1 ∧
      (calls (cs ++ cs') { t with reader := s }).2.writer =
        (calls (cs ++ cs') { t with reader := p }).2.writer := by
  obtain ⟨hreplies, halike⟩ := calls_begins_chunked cs t h hreturned
  obtain ⟨hreplies', halike'⟩ := calls_alike_of_gaveUp cs' halike hdesync
  simp only [calls, Mealy.run_append_fst, Mealy.run_append_snd] at hreplies hreplies' halike' ⊢
  rw [hreplies, hreplies']
  refine ⟨rfl, ?_⟩
  generalize (Mealy.run call cs' (Mealy.run call cs { t with reader := p }).2).2 = u at halike'
  generalize (Mealy.run call cs' (Mealy.run call cs { t with reader := s }).2).2 = v at halike' ⊢
  cases halike' with
  | mk _ hw =>
      exact hw.symm

/--
What calls on a transport settle, over any stream, failures included.

A detected framing is kept by all later calls; writes never change it, send messages
in it and fail only where the writer does.  The reason a stream was given up for is
kept, and from then on nothing is read and every read says the same.  And when the
calls `cs` give up a stream of which they have seen `p`, everything the transport does
then and later is the same for all streams that begin with `p`.
-/
theorem calls_settled_and_isolated
    (cs cs' : List Call) (t : FramedTransport Reader) :
    ((calls cs t).2.framing ≠ .auto →
      (calls (cs ++ cs') t).2.framing = (calls cs t).2.framing) ∧
    (∀ message, Sends (encode (calls cs t).2.framing message) (calls cs t).2
      (writeMessage message (calls cs t).2)) ∧
    (∀ reason, (calls cs t).2.desync = some reason →
      (calls (cs ++ cs') t).2.desync = some reason ∧
      (calls (cs ++ cs') t).2.reader = (calls cs t).2.reader ∧
      ∀ reply ∈ (calls cs' (calls cs t).2).1, ∀ outcome, reply = .read outcome →
        outcome = .err (invalidMessage (desyncReason reason))) ∧
    (∀ p s s' : Reader,
      Begins p.unchunked s.unchunked → Begins p.unchunked s'.unchunked →
      (∀ reply ∈ (calls cs { t with reader := p }).1, reply.returned) →
      (calls cs { t with reader := p }).2.desync.isSome →
      (calls (cs ++ cs') { t with reader := s }).1 =
          (calls (cs ++ cs') { t with reader := s' }).1 ∧
        (calls (cs ++ cs') { t with reader := s }).2.writer =
          (calls (cs ++ cs') { t with reader := s' }).2.writer) := by
  refine ⟨?_, ?_, ?_, ?_⟩
  · intro hdetected
    have h := (settled_calls cs' (calls cs t).2).framing hdetected
    simp only [calls, Mealy.run_append_snd] at h ⊢
    exact h
  · intro message
    exact sends_writeMessage message _
  · intro reason hreason
    obtain ⟨hlast, hreplies⟩ := calls_gaveUp ⟨hreason, rfl⟩ cs'
    simp only [calls, Mealy.run_append_snd] at hlast hreplies ⊢
    exact ⟨hlast.desync, hlast.reader, hreplies⟩
  · intro p s s' hs hs' hreturned hdesync
    obtain ⟨hreplies, hwriter⟩ := calls_append_begins cs cs' t hs hreturned hdesync
    obtain ⟨hreplies', hwriter'⟩ := calls_append_begins cs cs' t hs' hreturned hdesync
    exact ⟨hreplies.trans hreplies'.symm, hwriter.trans hwriter'.symm⟩

/-- A frame whose length is no number loses the stream; what the streams that
begin with it go on with does not matter. -/
theorem calls_settled_and_isolated_of_bad_length :
    let p : Reader := .new [.chunk (asBytes "Content-Length: no\n") (by decide)] false
    let smuggled : Reader := .new
      [.chunk (asBytes "Content-Length: no\n\n") (by decide), .chunk (asBytes "x\n") (by decide)] true
    let t : FramedTransport Reader := .new p .reliable 64
    (calls ([.read] ++ [.write "a", .read]) { t with reader := p }).1 =
        (calls ([.read] ++ [.write "a", .read]) { t with reader := smuggled }).1 ∧
      (calls ([.read] ++ [.write "a", .read]) { t with reader := p }).2.writer =
        (calls ([.read] ++ [.write "a", .read]) { t with reader := smuggled }).2.writer ∧
      (calls ([.read] ++ [.write "a", .read]) { t with reader := p }).2.writer.written =
        asBytes "Content-Length: 1\r\n\r\na" := by
  intro p smuggled t
  have hbegins : Begins p.unchunked smuggled.unchunked :=
    @Begins.on _ _ ((asBytes "\nx\n").map .byte) rfl rfl (by decide)
  obtain ⟨hreplies, hwriter⟩ := (calls_settled_and_isolated [.read] [.write "a", .read] t).2.2.2
    p p smuggled (.whole _) hbegins (by decide) (by decide)
  exact ⟨hreplies, hwriter, by decide⟩

end TwoStreams

end Transport
end McpCore
