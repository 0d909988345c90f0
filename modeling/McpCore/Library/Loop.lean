import Mathlib.Order.Basic

/-!
# Loops that run until their body leaves them

A loop of the shape `loop { body }` is given by its body: from a loop state the
body either goes round again with a new state or leaves the loop with a result.
`run` iterates the body with an explicit number of iterations, so a loop that
never leaves is a loop whose run is `none` for every number of iterations.

**Rules.**
* `run_eq_spec`: a specification that is unchanged by going round, and is met
  where the body leaves, is what the loop computes once the number of iterations
  exceeds a measure.
* `run_total`: a body that decreases a measure until it leaves as specified makes a
  loop that is left as specified.
* `run_invariant`: what an invariant says where the body leaves holds of every
  result.
* `Reaches.invariant`: what going round keeps holds whenever the loop goes round.
* `run_eq_none_of_spin`: a body that never leaves from an invariant set spins.
* `run_related`: bodies that keep step make loops that keep step.

`trace` lists what the iterations of a loop do, given what one does; `foldl_trace`
says that a trace replays the loop, and `endsAt_trace` that nothing comes after an
event at which the body leaves.
-/

namespace McpCore
namespace Loop

universe u v w

/-- What one iteration of a loop body does. -/
inductive Step (σ : Type u) (ρ : Type v) where
  | next (s : σ)
  | leave (r : ρ)

variable {σ : Type u} {ρ : Type v}

/-- Iterate `body` from `s`; `none` when `fuel` iterations did not leave. -/
def run (body : σ → Step σ ρ) : Nat → σ → Option ρ
  | 0, _ => none
  | fuel + 1, s =>
      match body s with
      | .next s' => run body fuel s'
      | .leave r => some r

/-- The states a loop is in before its iterations, from `s` on. -/
inductive Reaches (body : σ → Step σ ρ) (s : σ) : σ → Prop
  | start : Reaches body s s
  | next {s' s''} (h : Reaches body s s') (hbody : body s' = .next s'') : Reaches body s s''

section Rules

variable {body : σ → Step σ ρ}

theorem run_succ_of_next
    {s s' : σ} (fuel : Nat)
    (hbody : body s = .next s') :
    run body (fuel + 1) s = run body fuel s' := by
  simp only [run, hbody]

theorem run_succ_of_leave
    {s : σ} {r : ρ} (fuel : Nat)
    (hbody : body s = .leave r) :
    run body (fuel + 1) s = some r := by
  simp only [run, hbody]

/-- More iterations do not change the result of a loop that was left. -/
theorem run_of_le
    {m n : Nat} {s : σ} {r : ρ}
    (hrun : run body m s = some r)
    (hmn : m ≤ n) :
    run body n s = some r := by
  induction m generalizing n s with
  | zero =>
      simp [run] at hrun
  | succ m ih =>
      obtain ⟨k, rfl⟩ : ∃ k, n = k + 1 := ⟨n - 1, by omega⟩
      cases hbody : body s with
      | next s' =>
          rw [run_succ_of_next _ hbody] at hrun ⊢
          exact ih hrun (by omega)
      | leave r' =>
          rw [run_succ_of_leave _ hbody] at hrun ⊢
          exact hrun

/--
A specification that going round leaves unchanged, and that `view`s the result
where the body leaves, is what the loop computes.
-/
theorem run_eq_spec
    {τ : Type w}
    (I : σ → Prop) (μ : σ → Nat) (spec : σ → τ) (view : ρ → τ)
    (hleave : ∀ s r, I s → body s = .leave r → view r = spec s)
    (hnext : ∀ s s', I s → body s = .next s' →
      I s' ∧ spec s' = spec s ∧ μ s' < μ s)
    {fuel : Nat} {s : σ}
    (hI : I s) (hfuel : μ s < fuel) :
    ∃ r, run body fuel s = some r ∧ view r = spec s := by
  induction fuel generalizing s with
  | zero =>
      omega
  | succ fuel ih =>
      cases hbody : body s with
      | next s' =>
          obtain ⟨hI', hspec, hμ⟩ := hnext s s' hI hbody
          obtain ⟨r, hrun, hview⟩ := ih hI' (by omega)
          refine ⟨r, ?_, hview.trans hspec⟩
          rw [run_succ_of_next _ hbody, hrun]
      | leave r =>
          exact ⟨r, run_succ_of_leave _ hbody, hleave s r hI hbody⟩

/--
Total correctness: a body that from an invariant set either leaves with a result
as specified, or goes round within the set and decreases a measure, leaves its
loop with a result as specified.
-/
theorem run_total
    (body : σ → Step σ ρ) (I : σ → Prop) (μ : σ → Nat) (Q : ρ → Prop)
    (hbody : ∀ s, I s →
      (∃ r, body s = .leave r ∧ Q r) ∨
      (∃ s', body s = .next s' ∧ I s' ∧ μ s' < μ s))
    {fuel : Nat} {s : σ}
    (hI : I s) (hfuel : μ s < fuel) :
    ∃ r, run body fuel s = some r ∧ Q r := by
  induction fuel generalizing s with
  | zero =>
      omega
  | succ fuel ih =>
      rcases hbody s hI with ⟨r, hleave, hQ⟩ | ⟨s', hnext, hI', hμ⟩
      · exact ⟨r, run_succ_of_leave _ hleave, hQ⟩
      · obtain ⟨r, hrun, hQ⟩ := ih hI' (by omega)
        refine ⟨r, ?_, hQ⟩
        rw [run_succ_of_next _ hnext, hrun]

/-- What an invariant gives where the body leaves holds of every result. -/
theorem run_invariant
    (I : σ → Prop) (Q : ρ → Prop)
    (hnext : ∀ s s', I s → body s = .next s' → I s')
    (hleave : ∀ s r, I s → body s = .leave r → Q r)
    {fuel : Nat} {s : σ} {r : ρ}
    (hI : I s) (hrun : run body fuel s = some r) :
    Q r := by
  induction fuel generalizing s with
  | zero =>
      simp [run] at hrun
  | succ fuel ih =>
      cases hbody : body s with
      | next s' =>
          rw [run_succ_of_next _ hbody] at hrun
          exact ih (hnext s s' hI hbody) hrun
      | leave r' =>
          rw [run_succ_of_leave _ hbody] at hrun
          cases hrun
          exact hleave s r hI hbody

/-- What going round keeps holds of every state the loop reaches. -/
theorem Reaches.invariant
    (I : σ → Prop)
    (hnext : ∀ s s', I s → body s = .next s' → I s')
    {s s' : σ} (h : Reaches body s s') (hI : I s) :
    I s' := by
  induction h with
  | start =>
      exact hI
  | next h hbody ih =>
      exact hnext _ _ ih hbody

/-- A body that always goes round inside an invariant set never leaves. -/
theorem run_eq_none_of_spin
    (I : σ → Prop)
    (hspin : ∀ s, I s → ∃ s', body s = .next s' ∧ I s')
    (fuel : Nat) {s : σ} (hI : I s) :
    run body fuel s = none := by
  induction fuel generalizing s with
  | zero =>
      rfl
  | succ fuel ih =>
      obtain ⟨s', hbody, hI'⟩ := hspin s hI
      rw [run_succ_of_next _ hbody]
      exact ih hI'

/--
Two iterations that keep step: both go round with related states, or both leave
with related results, or the first leaves `stuck` and the second does anything.
-/
inductive Step.Related
    {σ' : Type u} {ρ' : Type v}
    (S : σ → σ' → Prop) (Q : ρ → ρ' → Prop) (stuck : ρ → Prop) :
    Step σ ρ → Step σ' ρ' → Prop
  | next {s s'} (h : S s s') : Step.Related S Q stuck (.next s) (.next s')
  | leave {r r'} (h : Q r r') : Step.Related S Q stuck (.leave r) (.leave r')
  | stuck {r step'} (h : stuck r) : Step.Related S Q stuck (.leave r) step'

/-- Bodies that keep step make loops that keep step. -/
theorem run_related
    {σ' : Type u} {ρ' : Type v} {body' : σ' → Step σ' ρ'}
    {S : σ → σ' → Prop} {Q : ρ → ρ' → Prop} {stuck : ρ → Prop}
    (hbody : ∀ s s', S s s' → (body s).Related S Q stuck (body' s'))
    (fuel : Nat) {s : σ} {s' : σ'} (hS : S s s') :
    (run body fuel s = none ∧ run body' fuel s' = none) ∨
    (∃ r, run body fuel s = some r ∧ stuck r) ∨
    (∃ r r', run body fuel s = some r ∧ run body' fuel s' = some r' ∧ Q r r') := by
  induction fuel generalizing s s' with
  | zero =>
      exact Or.inl ⟨rfl, rfl⟩
  | succ fuel ih =>
      have h := hbody s s' hS
      generalize hb : body s = step at h
      generalize hb' : body' s' = step' at h
      cases h with
      | next h =>
          rw [run_succ_of_next _ hb, run_succ_of_next _ hb']
          exact ih h
      | leave h =>
          exact Or.inr (Or.inr ⟨_, _, run_succ_of_leave _ hb, run_succ_of_leave _ hb', h⟩)
      | stuck h =>
          exact Or.inr (Or.inl ⟨_, run_succ_of_leave _ hb, h⟩)

end Rules

section Traces

variable {ε : Type w}

/-- What the iterations from `s` on do, where `events` lists what one does. -/
def trace (body : σ → Step σ ρ) (events : σ → List ε) : Nat → σ → List ε
  | 0, _ => []
  | fuel + 1, s =>
      events s ++
        match body s with
        | .next s' => trace body events fuel s'
        | .leave _ => []

/-- Nothing comes after an event of this kind. -/
def EndsAt (p : ε → Prop) (events : List ε) : Prop :=
  ∀ before e after, events = before ++ e :: after → p e → after = []

variable {p : ε → Prop} {xs ys : List ε}

theorem endsAt_nil : EndsAt p [] := by
  intro before e after h
  simp at h

theorem endsAt_singleton (e : ε) : EndsAt p [e] := by
  intro before e' after h _
  have hlength := congrArg List.length h
  simp only [List.length_cons, List.length_nil, List.length_append] at hlength
  exact List.length_eq_zero_iff.mp (by omega)

/-- What ends the first part ends the whole. -/
theorem endsAt_append :
    EndsAt p (xs ++ ys) ↔
      EndsAt p xs ∧ EndsAt p ys ∧ ((∃ e ∈ xs, p e) → ys = []) := by
  constructor
  · intro h
    refine ⟨?_, ?_, ?_⟩
    · rintro before e after rfl hp
      have hnil := h before e (after ++ ys) (by simp) hp
      exact (List.append_eq_nil_iff.mp hnil).1
    · rintro before e after rfl hp
      exact h (xs ++ before) e after (by simp) hp
    · rintro ⟨e, hmem, hp⟩
      obtain ⟨before, after, rfl⟩ := List.append_of_mem hmem
      have hnil := h before e (after ++ ys) (by simp) hp
      exact (List.append_eq_nil_iff.mp hnil).2
  · rintro ⟨hxs, hys, hstop⟩ before e after heq hp
    rcases List.append_eq_append_iff.mp heq with ⟨middle, rfl, hrest⟩ | ⟨middle, hfirst, hrest⟩
    · exact hys middle e after hrest hp
    · cases middle with
      | nil =>
          exact hys [] e after hrest.symm hp
      | cons e' middle =>
          rw [List.cons_append, List.cons.injEq] at hrest
          obtain ⟨rfl, rfl⟩ := hrest
          rw [hxs before e middle hfirst hp, hstop ⟨e, by simp [hfirst], hp⟩, List.append_nil]

variable {body : σ → Step σ ρ} {events : σ → List ε}

/-- Replaying what the iterations do gives what the loop comes to. -/
theorem foldl_trace
    {τ : Type u} (act : τ → ε → τ) (view : σ → τ) (view' : ρ → τ)
    (hnext : ∀ s s', body s = .next s' → (events s).foldl act (view s) = view s')
    (hleave : ∀ s r, body s = .leave r → (events s).foldl act (view s) = view' r)
    {fuel : Nat} {s : σ} {r : ρ} (hrun : run body fuel s = some r) :
    (trace body events fuel s).foldl act (view s) = view' r := by
  induction fuel generalizing s with
  | zero =>
      simp [run] at hrun
  | succ fuel ih =>
      cases hbody : body s with
      | next s' =>
          rw [run_succ_of_next _ hbody] at hrun
          simp only [trace, hbody, List.foldl_append, hnext s s' hbody]
          exact ih hrun
      | leave r' =>
          rw [run_succ_of_leave _ hbody] at hrun
          cases hrun
          simp only [trace, hbody, List.append_nil]
          exact hleave s r hbody

/-- A body that leaves at such an event makes a loop that ends at it. -/
theorem endsAt_trace
    (hevents : ∀ s, EndsAt p (events s))
    (hnext : ∀ s s', body s = .next s' → ∀ e ∈ events s, ¬ p e)
    (fuel : Nat) (s : σ) :
    EndsAt p (trace body events fuel s) := by
  induction fuel generalizing s with
  | zero =>
      exact endsAt_nil
  | succ fuel ih =>
      cases hbody : body s with
      | next s' =>
          simp only [trace, hbody]
          refine endsAt_append.mpr ⟨hevents s, ih s', ?_⟩
          rintro ⟨e, hmem, hp⟩
          exact absurd hp (hnext s s' hbody e hmem)
      | leave r =>
          simp only [trace, hbody, List.append_nil]
          exact hevents s

end Traces

end Loop
end McpCore
