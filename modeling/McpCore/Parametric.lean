import McpCore.Transport

/-!
# Reading is parametric in the reader

Reading takes bytes from its reader in two ways only, by the line and by the
body.  So a relation between readers under which both give the same
(`Respects`) is one under which whole reads give the same
(`readMessage_agree`), each function in between agreeing on the way.

A relation may be `lax`: then the first of two calls may also be waiting for
bytes that the second has.
-/

namespace McpCore
namespace Transport

open Text

section Agreement

variable {R R' : Type}

/-- Transports that differ in their readers and writers only, which are related. -/
inductive Alike (rel : R → R' → Prop) (writers : Writer → Writer → Prop) :
    FramedTransport R → FramedTransport R' → Prop
  | mk {reader reader' writer writer'} (h : rel reader reader') (hw : writers writer writer')
      (framing maxLen desync) :
      Alike rel writers ⟨reader, writer, framing, maxLen, desync⟩
        ⟨reader', writer', framing, maxLen, desync⟩

/-- Two calls that return the same and leave transports alike. -/
inductive Agree (lax : Prop) (rel : R → R' → Prop) (writers : Writer → Writer → Prop)
    {α : Type} : Outcome α × FramedTransport R → Outcome α × FramedTransport R' → Prop
  | same {outcome t t'} (h : Alike rel writers t t') :
      Agree lax rel writers (outcome, t) (outcome, t')
  | waiting {t call'} (h : lax) : Agree lax rel writers (.running, t) call'

/-- A relation of readers under which bytes are taken in the same way. -/
structure Respects [LineReader R] [LineReader R'] (lax : Prop) (rel : R → R' → Prop)
    (writers : Writer → Writer → Prop) : Prop where
  line : ∀ {t t'}, Alike rel writers t t' →
    Agree lax rel writers (LineReader.collectLine t) (LineReader.collectLine t')
  body : ∀ {reader reader'}, rel reader reader' → ∀ n,
    (lax ∧ (LineReader.collectBody n reader).1 = .waiting) ∨
    (∃ bodyEnd buf left left',
      LineReader.collectBody n reader = (bodyEnd, buf, left) ∧
      LineReader.collectBody n reader' = (bodyEnd, buf, left') ∧ rel left left')
  size : ∀ {reader reader'}, rel reader reader' →
    LineReader.size reader = LineReader.size reader' ∨
    (lax ∧ LineReader.size reader ≤ LineReader.size reader')

variable {lax : Prop} {rel : R → R' → Prop} {writers : Writer → Writer → Prop}
variable {t : FramedTransport R} {t' : FramedTransport R'}

theorem andThen_agree
    {α β : Type}
    {call : Outcome α × FramedTransport R} {call' : Outcome α × FramedTransport R'}
    {k : α → FramedTransport R → Outcome β × FramedTransport R}
    {k' : α → FramedTransport R' → Outcome β × FramedTransport R'}
    (hcall : Agree lax rel writers call call')
    (hk : ∀ a t t', Alike rel writers t t' → Agree lax rel writers (k a t) (k' a t')) :
    Agree lax rel writers (andThen call k) (andThen call' k') := by
  cases hcall with
  | @same outcome t t' h =>
      cases outcome with
      | ok a =>
          exact hk a t t' h
      | err e =>
          exact .same h
      | running =>
          exact .same h
  | waiting h =>
      exact .waiting h

theorem poison_alike (h : Alike rel writers t t') (reason : String) :
    Alike rel writers (poison t reason) (poison t' reason) := by
  cases h with
  | mk h hw =>
      exact .mk h hw ..

theorem desyncError_agree {α : Type} (h : Alike rel writers t t') (reason : String) :
    Agree (α := α) lax rel writers (desyncError t reason) (desyncError t' reason) := by
  cases h with
  | mk h hw =>
      exact .same (.mk h hw ..)

theorem setFraming_alike (h : Alike rel writers t t') (framing : Framing) :
    Alike rel writers { t with framing } { t' with framing } := by
  cases h with
  | mk h hw =>
      exact .mk h hw ..

theorem checkLen_agree (h : Alike rel writers t t') (len : Nat) (what : String) :
    Agree lax rel writers (checkLen t len what) (checkLen t' len what) := by
  cases h with
  | mk h hw =>
      unfold checkLen
      split
      · exact .same (.mk h hw ..)
      · exact .same (.mk h hw ..)

theorem writeAll_agree (h : Alike rel Eq t t') (bytes : List UInt8) :
    Agree lax rel Eq (writeAll bytes t) (writeAll bytes t') := by
  cases h with
  | @mk reader reader' writer writer' h hw framing maxLen desync =>
      subst hw
      unfold writeAll
      rcases writer.writeAll bytes with ⟨_ | _, writer⟩
      · exact .same (.mk h rfl ..)
      · exact .same (.mk h rfl ..)

theorem writeMessage_agree (h : Alike rel Eq t t') (message : String) :
    Agree lax rel Eq (writeMessage message t) (writeMessage message t') := by
  have hframing : t'.framing = t.framing := by
    cases h with
    | mk h hw =>
        rfl
  have hsent : ∀ a b : List UInt8,
      Agree lax rel Eq (andThen (writeAll a t) fun _ u => writeAll b u)
        (andThen (writeAll a t') fun _ u => writeAll b u) := by
    intro a b
    refine andThen_agree (writeAll_agree h a) ?_
    intro _ t t' h
    exact writeAll_agree h b
  unfold writeMessage
  rw [hframing]
  simp only [flush_eq]
  refine andThen_agree ?_ (fun _ t t' h => writeAll_agree h [])
  cases t.framing with
  | auto =>
      exact hsent _ _
  | newline =>
      exact hsent _ _
  | contentLength =>
      exact hsent _ _

/-- Loops whose bodies agree agree, whichever of the two is given more fuel. -/
theorem run_agree
    {σ σ' α : Type}
    {body : σ → Loop.Step σ (Outcome α × FramedTransport R)}
    {body' : σ' → Loop.Step σ' (Outcome α × FramedTransport R')}
    {S : σ → σ' → Prop}
    (hbody : ∀ s s', S s s' → (body s).Related S (Agree lax rel writers)
      (fun left => lax ∧ left.1 = .running) (body' s'))
    {s : σ} {s' : σ'} (hS : S s s') (halike : Alike rel writers t t')
    {fuel fuel' : Nat} (hfuel : fuel = fuel' ∨ (lax ∧ fuel ≤ fuel')) :
    Agree lax rel writers ((Loop.run body fuel s).getD (.running, t))
      ((Loop.run body' fuel' s').getD (.running, t')) := by
  rcases Loop.run_related hbody fuel hS with
    ⟨hrun, hrun'⟩ | ⟨⟨o, u⟩, hrun, hlax, hstuck⟩ | ⟨r, r', hrun, hrun', hagree⟩
  · rw [hrun]
    rcases hfuel with rfl | ⟨hlax, _⟩
    · rw [hrun']
      exact .same halike
    · exact .waiting hlax
  · rw [hrun]
    cases hstuck
    exact .waiting hlax
  · have hle : fuel ≤ fuel' := by
      rcases hfuel with h | h
      · omega
      · exact h.2
    rw [hrun, Loop.run_of_le hrun' hle]
    exact hagree

end Agreement

section Reads

variable {R R' : Type} [LineReader R] [LineReader R']
variable {lax : Prop} {rel : R → R' → Prop} {writers : Writer → Writer → Prop}
variable {t : FramedTransport R} {t' : FramedTransport R'}

theorem readLine_agree (hrel : Respects lax rel writers) (h : Alike rel writers t t') :
    Agree lax rel writers (readLine t) (readLine t') := by
  refine andThen_agree (hrel.line h) ?_
  intro buf t t' h
  refine andThen_agree (checkLen_agree h _ _) ?_
  intro _ t t' h
  exact .same h

theorem readFrameLine_agree (hrel : Respects lax rel writers) (h : Alike rel writers t t') :
    Agree lax rel writers (readFrameLine t) (readFrameLine t') := by
  have hline := readLine_agree hrel h
  unfold readFrameLine
  generalize readLine t = call at hline ⊢
  generalize readLine t' = call' at hline ⊢
  cases hline with
  | @same outcome t t' h =>
      cases outcome with
      | ok line =>
          exact .same h
      | err err =>
          simp only
          split
          · exact .same h
          · exact .same (poison_alike h _)
      | running =>
          exact .same h
  | waiting hlax =>
      exact .waiting hlax

theorem fuel_agree (hrel : Respects lax rel writers) (h : Alike rel writers t t') :
    fuel t = fuel t' ∨ (lax ∧ fuel t ≤ fuel t') := by
  cases h with
  | mk h hw =>
      simp only [fuel]
      rcases hrel.size h with h | ⟨hlax, h⟩
      · exact Or.inl (by omega)
      · exact Or.inr ⟨hlax, by omega⟩

theorem readHeadersBody_agree
    (hrel : Respects lax rel writers) (lines : Nat) (h : Alike rel writers t t') :
    (readHeadersBody (lines, t)).Related
      (fun s s' => s.1 = s'.1 ∧ Alike rel writers s.2 s'.2) (Agree lax rel writers)
      (fun left => lax ∧ left.1 = .running) (readHeadersBody (lines, t')) := by
  have hline := readFrameLine_agree hrel h
  unfold readHeadersBody
  simp only
  generalize readFrameLine t = call at hline ⊢
  generalize readFrameLine t' = call' at hline ⊢
  cases hline with
  | @same outcome t t' h =>
      cases outcome with
      | ok line =>
          simp only
          split
          · exact .leave (.same h)
          · split
            · exact .leave (desyncError_agree h _)
            · exact .next ⟨rfl, h⟩
      | err err =>
          exact .leave (.same h)
      | running =>
          exact .leave (.same h)
  | waiting hlax =>
      exact .stuck ⟨hlax, rfl⟩

theorem readHeaders_agree (hrel : Respects lax rel writers) (h : Alike rel writers t t') :
    Agree lax rel writers (readHeaders t) (readHeaders t') := by
  rw [readHeaders_eq_getD, readHeaders_eq_getD]
  refine run_agree ?_ (S := fun s s' => s.1 = s'.1 ∧ Alike rel writers s.2 s'.2)
    ⟨rfl, h⟩ h (fuel_agree hrel h)
  rintro ⟨lines, t⟩ ⟨lines', t'⟩ ⟨rfl, h⟩
  exact readHeadersBody_agree hrel lines h

theorem readFrameBody_agree
    (hrel : Respects lax rel writers) (declared : Nat) (h : Alike rel writers t t') :
    Agree lax rel writers (readFrameBody declared t) (readFrameBody declared t') := by
  cases h with
  | @mk reader reader' writer writer' h hw framing maxLen desync =>
      simp only [readFrameBody]
      rcases hrel.body h declared with
        ⟨hlax, hwait⟩ | ⟨bodyEnd, buf, left, left', hbody, hbody', h⟩
      · rcases hbody : LineReader.collectBody declared reader with ⟨bodyEnd, buf, left⟩
        rw [hbody] at hwait
        cases hwait
        exact .waiting hlax
      · rw [hbody, hbody']
        cases bodyEnd with
        | done =>
            simp only
            split
            · exact desyncError_agree (.mk h hw ..) _
            · exact .same (.mk h hw ..)
        | failed err =>
            exact .same (poison_alike (.mk h hw ..) _)
        | waiting =>
            exact .same (.mk h hw ..)

theorem readContentLength_agree
    (hrel : Respects lax rel writers) (first : String) (h : Alike rel writers t t') :
    Agree lax rel writers (readContentLength first t) (readContentLength first t') := by
  have hdeclared : declaredLength t' = declaredLength t := by
    cases h with
    | mk h hw =>
        rfl
  unfold readContentLength
  rw [hdeclared]
  rcases (contentLengthValue first).map (declaredLength t) with _ | ⟨reason | declared⟩
  · exact desyncError_agree h _
  · exact desyncError_agree h _
  · refine andThen_agree (readHeaders_agree hrel h) ?_
    intro _ t t' h
    exact readFrameBody_agree hrel declared h

theorem readAutoBody_agree (hrel : Respects lax rel writers) (h : Alike rel writers t t') :
    (readAutoBody t).Related (Alike rel writers) (Agree lax rel writers)
      (fun left => lax ∧ left.1 = .running) (readAutoBody t') := by
  have hline := readLine_agree hrel h
  unfold readAutoBody
  generalize readLine t = call at hline ⊢
  generalize readLine t' = call' at hline ⊢
  cases hline with
  | @same outcome t t' h =>
      cases outcome with
      | ok line =>
          simp only
          split
          · exact .next h
          · split
            · exact .leave (readContentLength_agree hrel _ (setFraming_alike h _))
            · exact .leave (.same (setFraming_alike h _))
      | err err =>
          exact .leave (.same h)
      | running =>
          exact .leave (.same h)
  | waiting hlax =>
      exact .stuck ⟨hlax, rfl⟩

theorem readAuto_agree (hrel : Respects lax rel writers) (h : Alike rel writers t t') :
    Agree lax rel writers (readAuto t) (readAuto t') := by
  rw [readAuto_eq_getD, readAuto_eq_getD]
  exact run_agree (fun _ _ h => readAutoBody_agree hrel h) h h (fuel_agree hrel h)

/-- Readers that give the same bytes make whole reads give the same. -/
theorem readMessage_agree (hrel : Respects lax rel writers) (h : Alike rel writers t t') :
    Agree lax rel writers (readMessage t) (readMessage t') := by
  have hdesync : t'.desync = t.desync := by
    cases h with
    | mk h hw =>
        rfl
  have hframing : t'.framing = t.framing := by
    cases h with
    | mk h hw =>
        rfl
  unfold readMessage
  rw [hdesync, hframing]
  cases t.desync with
  | some reason =>
      exact .same h
  | none =>
      cases t.framing with
      | auto =>
          exact readAuto_agree hrel h
      | newline =>
          refine andThen_agree (readLine_agree hrel h) ?_
          intro line t t' h
          exact .same h
      | contentLength =>
          refine andThen_agree (readFrameLine_agree hrel h) ?_
          intro first t t' h
          exact readContentLength_agree hrel first h

end Reads

end Transport
end McpCore
