import Mathlib.Data.List.Forall2
import Mathlib.Order.Basic

/-!
# Runs of a machine that answers each input

A machine with states `σ` takes an input, answers with an output and moves to a
new state.  `run` feeds it a list of inputs; the rules below lift what one step
preserves, answers or simulates to whole runs.
-/

namespace McpCore
namespace Mealy

universe u v w x

variable {ι : Type u} {σ : Type v} {ο : Type w}

/-- Feed the inputs one after another, collecting the outputs. -/
def run (step : ι → σ → ο × σ) : List ι → σ → List ο × σ
  | [], s => ([], s)
  | i :: is, s =>
      ((step i s).1 :: (run step is (step i s).2).1, (run step is (step i s).2).2)

variable (step : ι → σ → ο × σ)

@[simp] theorem run_nil (s : σ) :
    run step [] s = ([], s) := by
  rfl

@[simp] theorem run_cons_fst (i : ι) (is : List ι) (s : σ) :
    (run step (i :: is) s).1 =
      (step i s).1 :: (run step is (step i s).2).1 := by
  rfl

@[simp] theorem run_cons_snd (i : ι) (is : List ι) (s : σ) :
    (run step (i :: is) s).2 = (run step is (step i s).2).2 := by
  rfl

theorem run_append_snd (is js : List ι) (s : σ) :
    (run step (is ++ js) s).2 = (run step js (run step is s).2).2 := by
  induction is generalizing s with
  | nil =>
      rfl
  | cons i is ih =>
      simp [ih]

theorem run_append_fst (is js : List ι) (s : σ) :
    (run step (is ++ js) s).1 =
      (run step is s).1 ++ (run step js (run step is s).2).1 := by
  induction is generalizing s with
  | nil =>
      rfl
  | cons i is ih =>
      simp [ih]

/-- One input more is one step more. -/
theorem run_concat (is : List ι) (i : ι) (s : σ) :
    run step (is ++ [i]) s =
      ((run step is s).1 ++ [(step i (run step is s).2).1], (step i (run step is s).2).2) :=
  Prod.ext (run_append_fst step is [i] s) (run_append_snd step is [i] s)

theorem length_run_fst (is : List ι) (s : σ) :
    (run step is s).1.length = is.length := by
  induction is generalizing s with
  | nil =>
      rfl
  | cons i is ih =>
      simp [ih]

/-- What every step preserves, every run preserves. -/
theorem run_invariant
    (I : σ → Prop)
    (hstep : ∀ i s, I s → I (step i s).2)
    (is : List ι) {s : σ} (hI : I s) :
    I (run step is s).2 := by
  induction is generalizing s with
  | nil =>
      exact hI
  | cons i is ih =>
      exact ih (hstep i s hI)

/-- What every step from an invariant set answers, every run answers. -/
theorem run_outputs
    (I : σ → Prop) (Q : ο → Prop)
    (hstep : ∀ i s, I s → I (step i s).2 ∧ Q (step i s).1)
    (is : List ι) {s : σ} (hI : I s) :
    ∀ o ∈ (run step is s).1, Q o := by
  induction is generalizing s with
  | nil =>
      simp
  | cons i is ih =>
      intro o ho
      rcases List.mem_cons.mp ho with rfl | ho
      · exact (hstep i s hI).2
      · exact ih (hstep i s hI).1 o ho

/-- What every step keeps of the answers so far and the state, the run keeps. -/
theorem run_history
    (J : List ο → σ → Prop)
    {is : List ι}
    (hstep : ∀ i ∈ is, ∀ os s, J os s → J (os ++ [(step i s).1]) (step i s).2)
    {os : List ο} {s : σ} (hJ : J os s) :
    J (os ++ (run step is s).1) (run step is s).2 := by
  induction is generalizing os s with
  | nil =>
      rw [run_nil, List.append_nil]
      exact hJ
  | cons i is ih =>
      have hrest := ih (fun i hi => hstep i (.tail _ hi)) (hstep i (.head _) os s hJ)
      rw [List.append_assoc] at hrest
      exact hrest

/-- Answers that, seen through `f`, the input alone decides are decided so in every
run. -/
theorem run_map_fst
    {κ : Type w} (f : ο → κ) (g : ι → κ)
    (hstep : ∀ i s, f (step i s).1 = g i)
    (is : List ι) (s : σ) :
    (run step is s).1.map f = is.map g := by
  induction is generalizing s with
  | nil =>
      rfl
  | cons i is ih =>
      simp [hstep, ih]

/-- A machine that takes its inputs through `f` runs like one that is given them so. -/
theorem run_map
    {ι' : Type x} (step' : ι' → σ → ο × σ) (f : ι → ι')
    (hstep : ∀ i s, step i s = step' (f i) s)
    (is : List ι) (s : σ) :
    run step is s = run step' (is.map f) s := by
  induction is generalizing s with
  | nil =>
      rfl
  | cons i is ih =>
      rw [run, List.map_cons, run, hstep, ih]

/-- A log that every step adds its events to holds the events of the run, in order. -/
theorem run_log
    {κ : Type x} (log : σ → List κ) (events : ο → List κ)
    (hstep : ∀ i s, log (step i s).2 = log s ++ events (step i s).1)
    (is : List ι) (s : σ) :
    log (run step is s).2 = log s ++ (run step is s).1.flatMap events := by
  induction is generalizing s with
  | nil =>
      simp
  | cons i is ih =>
      simp [ih, hstep]

/--
A relation that every step keeps, and under which the outputs look the same
through `f` and `g`, makes whole runs look the same.
-/
theorem run_simulation
    {σ' : Type v} {ο' κ : Type w}
    (step' : ι → σ' → ο' × σ')
    (R : σ → σ' → Prop) (f : ο → κ) (g : ο' → κ)
    (hstep : ∀ i s s', R s s' →
      f (step i s).1 = g (step' i s').1 ∧ R (step i s).2 (step' i s').2)
    (is : List ι) {s : σ} {s' : σ'} (hR : R s s') :
    (run step is s).1.map f = (run step' is s').1.map g ∧
    R (run step is s).2 (run step' is s').2 := by
  induction is generalizing s s' with
  | nil =>
      exact ⟨rfl, hR⟩
  | cons i is ih =>
      obtain ⟨hout, hnext⟩ := hstep i s s' hR
      obtain ⟨hrest, hfinal⟩ := ih hnext
      exact ⟨by simp [hout, hrest], hfinal⟩

/-- Related inputs, answered alike from related states, are answered alike in every
run. -/
theorem run_forall₂
    {ι' : Type u} {σ' : Type v} {ο' : Type w}
    (step' : ι' → σ' → ο' × σ')
    (S : ι → ι' → Prop) (R : σ → σ' → Prop) (Q : ο → ο' → Prop)
    (hstep : ∀ i i' s s', S i i' → R s s' →
      Q (step i s).1 (step' i' s').1 ∧ R (step i s).2 (step' i' s').2)
    {is : List ι} {is' : List ι'} (his : List.Forall₂ S is is')
    {s : σ} {s' : σ'} (hR : R s s') :
    List.Forall₂ Q (run step is s).1 (run step' is' s').1 ∧
    R (run step is s).2 (run step' is' s').2 := by
  induction his generalizing s s' with
  | nil =>
      exact ⟨.nil, hR⟩
  | cons hi _ ih =>
      obtain ⟨hout, hnext⟩ := hstep _ _ s s' hi hR
      obtain ⟨hrest, hfinal⟩ := ih hnext
      exact ⟨.cons hout hrest, hfinal⟩

end Mealy
end McpCore
