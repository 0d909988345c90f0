import McpCore.Library.Mealy
import Mathlib.Data.List.Perm.Basic

/-!
# Tasks that share something

A pool holds tasks, numbered as they are spawned, and something they share.  Each task
has a state of its own, which what arrives for it changes; in its turns it works on
that state and on what is shared, and puts something out.  What is shared may also
change by itself.

`run_spawn`: from when it is spawned a task behaves as it does alone, given what arrives
for it and what its turns find, whatever else happens in the pool.  `exists_spawn` says
that there are no other tasks than those that were spawned.  `run_tally` accounts for what
the turns of all tasks log.
-/

namespace McpCore
namespace Pool

universe u v w x y z

variable {τ : Type u} {α : Type v} {δ : Type w} {ρ : Type x} {ο : Type y}

/-- What a task does with what arrives for it and in its turns, and how what is shared
changes by itself. -/
structure Behaviour (τ : Type u) (α : Type v) (δ : Type w) (ρ : Type x) (ο : Type y) where
  arrive : α → τ → τ
  turn : τ → ρ → ο × τ × ρ
  disturb : δ → ρ → ρ

/-- The tasks and what they share. -/
structure State (τ : Type u) (ρ : Type x) where
  tasks : List τ
  shared : ρ

/-- No tasks yet. -/
def State.init (shared : ρ) : State τ ρ :=
  ⟨[], shared⟩

/-- One thing that happens in a pool. -/
inductive Move (τ : Type u) (α : Type v) (δ : Type w) where
  | spawn (task : τ)
  | arrive (n : Nat) (arrival : α)
  | turn (n : Nat)
  | disturb (disturbance : δ)

/-- One thing that happens to a task; its turns find something shared. -/
inductive Own (α : Type v) (ρ : Type x) where
  | arrive (arrival : α)
  | turn (found : ρ)

/-- What arrives for a task, if that is what happens to it. -/
def Own.arrival : Own α ρ → Option α
  | .arrive arrival => some arrival
  | .turn _ => none

/-- What a turn of a task finds, if that is what happens to it. -/
def Own.found : Own α ρ → Option ρ
  | .arrive _ => none
  | .turn found => some found

/-- What a move makes arrive for a task. -/
def Move.arrivalFor (n : Nat) : Move τ α δ → Option α
  | .arrive k arrival => if k = n then some arrival else none
  | _ => none

/-- Whether a move is a turn of a task. -/
def Move.isTurnOf (n : Nat) : Move τ α δ → Bool
  | .turn k => k == n
  | _ => false

variable (b : Behaviour τ α δ ρ ο)

/-- Let one thing happen; a turn puts something out. -/
def step (move : Move τ α δ) (pool : State τ ρ) : Option (Nat × ο) × State τ ρ :=
  match move with
  | .spawn task => (none, { pool with tasks := pool.tasks ++ [task] })
  | .arrive n arrival => (none, { pool with tasks := pool.tasks.modify n (b.arrive arrival) })
  | .turn n =>
      match pool.tasks[n]? with
      | some task =>
          let (out, task, shared) := b.turn task pool.shared
          (some (n, out), ⟨pool.tasks.set n task, shared⟩)
      | none => (none, pool)
  | .disturb disturbance => (none, { pool with shared := b.disturb disturbance pool.shared })

/-- A task on its own. -/
def ownStep (own : Own α ρ) (task : τ) : Option ο × τ :=
  match own with
  | .arrive arrival => (none, b.arrive arrival task)
  | .turn found => (some (b.turn task found).1, (b.turn task found).2.1)

/-- What a move is to a task. -/
def own (n : Nat) (move : Move τ α δ) (pool : State τ ρ) : Option (Own α ρ) :=
  match move with
  | .arrive k arrival => if k = n then some (.arrive arrival) else none
  | .turn k => if k = n then some (.turn pool.shared) else none
  | _ => none

/-- What a run is to a task. -/
def owns (n : Nat) : List (Move τ α δ) → State τ ρ → List (Own α ρ)
  | [], _ => []
  | move :: moves, pool => (own n move pool).toList ++ owns n moves (step b move pool).2

/-- What the turns of a task find in a run. -/
def founds (n : Nat) (moves : List (Move τ α δ)) (pool : State τ ρ) : List ρ :=
  (owns b n moves pool).filterMap Own.found

/-- What a task puts out in a run. -/
def putOut (n : Nat) (outs : List (Option (Nat × ο))) : List ο :=
  outs.filterMap fun out => out.bind fun out => if out.1 = n then some out.2 else none

section Task

variable {b} {n : Nat} {pool : State τ ρ} {task : τ}

theorem putOut_append (outs outs' : List (Option (Nat × ο))) :
    putOut n (outs ++ outs') = putOut n outs ++ putOut n outs' :=
  List.filterMap_append

/-- A move is to a task what it would be if the task were alone. -/
theorem step_task (move : Move τ α δ) (htask : pool.tasks[n]? = some task) :
    (step b move pool).2.tasks[n]? =
        some (Mealy.run (ownStep b) (own n move pool).toList task).2 ∧
      putOut n [(step b move pool).1] =
        (Mealy.run (ownStep b) (own n move pool).toList task).1.filterMap id := by
  have hlt : n < pool.tasks.length := (List.getElem?_eq_some_iff.mp htask).1
  cases move with
  | spawn other =>
      refine ⟨?_, rfl⟩
      simp only [step, own, Option.toList_none, Mealy.run_nil]
      rw [List.getElem?_append_left hlt, htask]
  | arrive k arrival =>
      by_cases hk : k = n
      · subst hk
        simp [step, own, putOut, ownStep, htask]
      · simp [step, own, putOut, hk, htask]
  | disturb disturbance =>
      exact ⟨htask, rfl⟩
  | turn k =>
      by_cases hk : k = n
      · subst hk
        simp only [step, own, if_true, htask, List.getElem?_set_self hlt]
        exact ⟨rfl, by simp [putOut, ownStep]⟩
      · simp only [own, if_neg hk, Option.toList_none, Mealy.run_nil, step]
        cases hother : pool.tasks[k]? with
        | none =>
            exact ⟨htask, rfl⟩
        | some other =>
            refine ⟨?_, by simp [putOut, hk]⟩
            rw [List.getElem?_set_ne hk, htask]

/-- In every run a task behaves as it does alone. -/
theorem run_task (moves : List (Move τ α δ)) (htask : pool.tasks[n]? = some task) :
    (Mealy.run (step b) moves pool).2.tasks[n]? =
        some (Mealy.run (ownStep b) (owns b n moves pool) task).2 ∧
      putOut n (Mealy.run (step b) moves pool).1 =
        (Mealy.run (ownStep b) (owns b n moves pool) task).1.filterMap id := by
  induction moves generalizing pool task with
  | nil =>
      exact ⟨htask, rfl⟩
  | cons move moves ih =>
      obtain ⟨hstep, hout⟩ := step_task (b := b) move htask
      obtain ⟨hrun, houts⟩ := ih hstep
      simp only [owns, Mealy.run_cons_snd, Mealy.run_append_snd, Mealy.run_append_fst,
        Mealy.run_cons_fst, List.filterMap_append]
      refine ⟨hrun, ?_⟩
      rw [← hout, ← houts, ← putOut_append]
      rfl

theorem owns_append (moves moves' : List (Move τ α δ)) (pool : State τ ρ) :
    owns b n (moves ++ moves') pool =
      owns b n moves pool ++ owns b n moves' (Mealy.run (step b) moves pool).2 := by
  induction moves generalizing pool with
  | nil =>
      rfl
  | cons move moves ih =>
      rw [List.cons_append, owns, owns, ih, List.append_assoc, Mealy.run_cons_snd]

/-- What arrives for a task is what the moves make arrive. -/
theorem arrivals_owns (moves : List (Move τ α δ)) (pool : State τ ρ) :
    (owns b n moves pool).filterMap Own.arrival = moves.filterMap (Move.arrivalFor n) := by
  induction moves generalizing pool with
  | nil =>
      rfl
  | cons move moves ih =>
      rw [owns, List.filterMap_append, ih, List.filterMap_cons]
      cases move with
      | arrive k arrival =>
          by_cases hk : k = n
          · simp [own, Own.arrival, Move.arrivalFor, hk]
          · simp [own, Move.arrivalFor, hk]
      | turn k =>
          by_cases hk : k = n
          · simp [own, Own.arrival, Move.arrivalFor, hk]
          · simp [own, Move.arrivalFor, hk]
      | _ =>
          rfl

/-- A task takes the turns that the moves give it. -/
theorem length_founds (moves : List (Move τ α δ)) (pool : State τ ρ) :
    (founds b n moves pool).length = moves.countP (Move.isTurnOf n) := by
  induction moves generalizing pool with
  | nil =>
      rfl
  | cons move moves ih =>
      simp only [founds] at ih ⊢
      rw [owns, List.filterMap_append, List.length_append, ih, List.countP_cons]
      cases move with
      | arrive k arrival =>
          by_cases hk : k = n
          · simp [own, Own.found, Move.isTurnOf, hk]
          · simp [own, Move.isTurnOf, hk]
      | turn k =>
          by_cases hk : k = n
          · simp [own, Own.found, Move.isTurnOf, hk, Nat.add_comm]
          · simp [own, Move.isTurnOf, hk]
      | _ =>
          simp [own, Move.isTurnOf]

end Task

section Spawned

variable {b} {n : Nat} {pool : State τ ρ}

theorem length_step (move : Move τ α δ) (pool : State τ ρ) :
    (step b move pool).2.tasks.length =
      pool.tasks.length + match move with
        | .spawn _ => 1
        | _ => 0 := by
  cases move with
  | spawn task =>
      simp [step]
  | arrive k arrival =>
      simp [step]
  | disturb disturbance =>
      rfl
  | turn k =>
      simp only [step]
      cases pool.tasks[k]? with
      | none =>
          rfl
      | some task =>
          simp

theorem length_le_run (moves : List (Move τ α δ)) (pool : State τ ρ) :
    pool.tasks.length ≤ (Mealy.run (step b) moves pool).2.tasks.length := by
  refine Mealy.run_invariant (step b) (fun pool' => pool.tasks.length ≤ pool'.tasks.length)
    (fun move pool' hle => ?_) moves (Nat.le_refl _)
  rw [length_step]
  exact Nat.le_trans hle (Nat.le_add_right _ _)

/-- A task that is not there puts nothing out. -/
theorem putOut_step (move : Move τ α δ) (hn : pool.tasks.length ≤ n) :
    putOut n [(step b move pool).1] = [] := by
  cases move with
  | turn k =>
      simp only [step]
      cases hother : pool.tasks[k]? with
      | none =>
          rfl
      | some other =>
          have hlt : k < pool.tasks.length := (List.getElem?_eq_some_iff.mp hother).1
          have hk : k ≠ n := by
            omega
          simp [putOut, hk]
  | _ =>
      rfl

theorem putOut_run (moves : List (Move τ α δ))
    (hn : (Mealy.run (step b) moves pool).2.tasks.length ≤ n) :
    putOut n (Mealy.run (step b) moves pool).1 = [] := by
  induction moves generalizing pool with
  | nil =>
      rfl
  | cons move moves ih =>
      have hle := length_le_run (b := b) (move :: moves) pool
      rw [Mealy.run_cons_snd] at hn
      rw [Mealy.run_cons_fst, ← List.singleton_append, putOut_append, ih hn,
        putOut_step move (Nat.le_trans hle hn)]
      rfl

/-- From when it is spawned a task behaves as it does alone. -/
theorem run_spawn (before after : List (Move τ α δ)) (task : τ) (pool : State τ ρ) :
    let n := (Mealy.run (step b) before pool).2.tasks.length
    let spawned := (Mealy.run (step b) (before ++ [.spawn task]) pool).2
    (Mealy.run (step b) (before ++ .spawn task :: after) pool).2.tasks[n]? =
        some (Mealy.run (ownStep b) (owns b n after spawned) task).2 ∧
      putOut n (Mealy.run (step b) (before ++ .spawn task :: after) pool).1 =
        (Mealy.run (ownStep b) (owns b n after spawned) task).1.filterMap id := by
  intro n spawned
  have hspawned : spawned.tasks[n]? = some task := by
    simp only [spawned, Mealy.run_append_snd]
    exact List.getElem?_concat_length
  obtain ⟨hrun, houts⟩ := run_task (b := b) after hspawned
  have hsplit : before ++ Move.spawn task :: after = (before ++ [.spawn task]) ++ after := by
    simp
  rw [hsplit, Mealy.run_append_snd, Mealy.run_append_fst, putOut_append]
  refine ⟨hrun, ?_⟩
  have hquiet : putOut n (Mealy.run (step b) (before ++ [.spawn task]) pool).1 = [] := by
    rw [Mealy.run_append_fst, putOut_append, putOut_run before (Nat.le_refl _)]
    rfl
  rw [hquiet, List.nil_append]
  exact houts

/-- A task that a run brings about was spawned by one of its moves. -/
theorem exists_spawn (moves : List (Move τ α δ)) (hn : pool.tasks.length ≤ n)
    (hlt : n < (Mealy.run (step b) moves pool).2.tasks.length) :
    ∃ before task after, moves = before ++ .spawn task :: after ∧
      (Mealy.run (step b) before pool).2.tasks.length = n := by
  induction moves generalizing pool with
  | nil =>
      exact absurd hlt (Nat.not_lt.mpr hn)
  | cons move moves ih =>
      have hlength := length_step (b := b) move pool
      by_cases hlater : (step b move pool).2.tasks.length ≤ n
      · obtain ⟨before, task, after, rfl, hbefore⟩ := ih hlater hlt
        exact ⟨move :: before, task, after, rfl, hbefore⟩
      · cases move with
        | spawn task =>
            refine ⟨[], task, moves, rfl, ?_⟩
            simp only [Mealy.run_nil] at hlength ⊢
            omega
        | _ =>
            simp only at hlength
            omega

end Spawned

section Isolation

variable {b : Behaviour τ α δ ρ ο} {n : Nat}

/-- What a move is to a task that does not mind what is shared: something that arrives, or
a turn. -/
def Move.happensTo (n : Nat) : Move τ α δ → Option (Option α)
  | .arrive k arrival => if k = n then some (some arrival) else none
  | .turn k => if k = n then some none else none
  | _ => none

theorem happensTo_owns (moves : List (Move τ α δ)) (pool : State τ ρ) :
    (owns b n moves pool).map Own.arrival = moves.filterMap (Move.happensTo n) := by
  induction moves generalizing pool with
  | nil =>
      rfl
  | cons move moves ih =>
      rw [owns, List.map_append, ih, List.filterMap_cons]
      cases move with
      | arrive k arrival =>
          by_cases hk : k = n
          · simp [own, Own.arrival, Move.happensTo, hk]
          · simp [own, Move.happensTo, hk]
      | turn k =>
          by_cases hk : k = n
          · simp [own, Own.arrival, Move.happensTo, hk]
          · simp [own, Move.happensTo, hk]
      | _ =>
          rfl

/-- What a task does and becomes in its turns does not depend on what is shared. -/
def Behaviour.Isolates (b : Behaviour τ α δ ρ ο) : Prop :=
  ∀ task shared shared', (b.turn task shared).1 = (b.turn task shared').1 ∧
    (b.turn task shared).2.1 = (b.turn task shared').2.1

/-- A task on its own, where only what arrives matters. -/
def aloneStep (b : Behaviour τ α δ ρ ο) (shared : ρ) (happening : Option α) (task : τ) :
    Option ο × τ :=
  match happening with
  | some arrival => (none, b.arrive arrival task)
  | none => (some (b.turn task shared).1, (b.turn task shared).2.1)

theorem Behaviour.Isolates.run_ownStep (h : b.Isolates) (shared : ρ) (life : List (Own α ρ))
    (task : τ) :
    Mealy.run (ownStep b) life task =
      Mealy.run (aloneStep b shared) (life.map Own.arrival) task := by
  refine Mealy.run_map (ownStep b) (aloneStep b shared) Own.arrival (fun own task => ?_) life task
  cases own with
  | arrive arrival =>
      rfl
  | turn found =>
      obtain ⟨hout, htask⟩ := h task found shared
      simp only [ownStep, aloneStep, Own.arrival, hout, htask]

/-- Tasks that are spawned alike, and to which the same happens in two runs, end alike. -/
theorem Behaviour.Isolates.run_spawn (h : b.Isolates)
    (before after before' after' : List (Move τ α δ)) (task : τ) (pool pool' : State τ ρ) :
    let n := (Mealy.run (step b) before pool).2.tasks.length
    let n' := (Mealy.run (step b) before' pool').2.tasks.length
    let run := Mealy.run (step b) (before ++ .spawn task :: after) pool
    let run' := Mealy.run (step b) (before' ++ .spawn task :: after') pool'
    after.filterMap (Move.happensTo n) = after'.filterMap (Move.happensTo n') →
      run.2.tasks[n]? = run'.2.tasks[n']? ∧ putOut n run.1 = putOut n' run'.1 := by
  intro n n' run run' hsame
  obtain ⟨hrun, hout⟩ := Pool.run_spawn (b := b) before after task pool
  obtain ⟨hrun', hout'⟩ := Pool.run_spawn (b := b) before' after' task pool'
  rw [h.run_ownStep pool.shared, happensTo_owns] at hrun hout hrun' hout'
  rw [← hsame] at hrun' hout'
  exact ⟨hrun.trans hrun'.symm, hout.trans hout'.symm⟩

end Isolation

section Log

variable {κ : Type z} {b : Behaviour τ α δ ρ ο}

/-- A log that is shared, and that every turn adds to what it puts out and nothing else
does, holds what the turns put out, in order. -/
theorem run_log (log : ρ → List κ) (events : Option (Nat × ο) → List κ)
    (hnone : events none = [])
    (hturn : ∀ n task shared, log (b.turn task shared).2.2 =
      log shared ++ events (some (n, (b.turn task shared).1)))
    (hdisturb : ∀ disturbance shared, log (b.disturb disturbance shared) = log shared)
    (moves : List (Move τ α δ)) (pool : State τ ρ) :
    log (Mealy.run (step b) moves pool).2.shared =
      log pool.shared ++ (Mealy.run (step b) moves pool).1.flatMap events := by
  refine Mealy.run_log (step b) (fun pool => log pool.shared) events (fun move pool => ?_) moves
    pool
  cases move with
  | turn n =>
      simp only [step]
      cases pool.tasks[n]? with
      | none =>
          rw [hnone, List.append_nil]
      | some task =>
          exact hturn n task pool.shared
  | disturb disturbance =>
      simp only [step, hdisturb, hnone, List.append_nil]
  | _ =>
      rw [step, hnone, List.append_nil]

end Log

section Tally

variable {κ : Type z} {b : Behaviour τ α δ ρ ο} (log : ρ → List κ) (tally : τ → List κ)

/-- A task that changes in its place changes what all tasks have together by what it has. -/
theorem flatMap_set {tasks : List τ} {n : Nat} {task : τ} (h : tasks[n]? = some task)
    (task' : τ) :
    List.Perm ((tasks.set n task').flatMap tally ++ tally task)
      (tasks.flatMap tally ++ tally task') := by
  obtain ⟨hlt, rfl⟩ := List.getElem?_eq_some_iff.mp h
  have hset := (List.set_perm_cons_eraseIdx hlt task').flatMap_right tally
  have hget := (List.getElem_cons_eraseIdx_perm hlt).symm.flatMap_right tally
  rw [List.flatMap_cons] at hset hget
  refine (hset.append_right _).trans (.trans ?_ (hget.append_right _).symm)
  refine List.perm_append_comm.trans ?_
  rw [List.append_assoc]
  exact List.perm_append_comm.append_left _

theorem flatMap_modify {change : τ → τ} (h : ∀ task, tally (change task) = tally task)
    (tasks : List τ) (n : Nat) :
    (tasks.modify n change).flatMap tally = tasks.flatMap tally := by
  induction tasks generalizing n with
  | nil =>
      rw [List.modify_nil]
  | cons task tasks ih =>
      cases n with
      | zero =>
          rw [List.modify_zero_cons, List.flatMap_cons, h, List.flatMap_cons]
      | succ n =>
          rw [List.modify_succ_cons, List.flatMap_cons, ih, List.flatMap_cons]

/-- A move logs what the tasks get by it. -/
theorem tally_step
    (harrive : ∀ arrival task, tally (b.arrive arrival task) = tally task)
    (hturn : ∀ task shared, log (b.turn task shared).2.2 ++ tally task =
      log shared ++ tally (b.turn task shared).2.1)
    (hdisturb : ∀ disturbance shared, log (b.disturb disturbance shared) = log shared)
    {move : Move τ α δ} (hspawn : ∀ task, move = .spawn task → tally task = [])
    {before : List κ} {pool : State τ ρ}
    (h : List.Perm (log pool.shared) (before ++ pool.tasks.flatMap tally)) :
    List.Perm (log (step b move pool).2.shared)
      (before ++ (step b move pool).2.tasks.flatMap tally) := by
  cases move with
  | spawn task =>
      simp only [step, List.flatMap_append, List.flatMap_singleton, hspawn task rfl,
        List.append_nil]
      exact h
  | arrive n arrival =>
      simp only [step, flatMap_modify tally (harrive arrival)]
      exact h
  | turn n =>
      simp only [step]
      cases htask : pool.tasks[n]? with
      | none =>
          exact h
      | some task =>
          refine (List.perm_append_right_iff (tally task)).mp ?_
          rw [hturn, List.append_assoc]
          have hset := flatMap_set tally htask (b.turn task pool.shared).2.1
          refine (h.append_right _).trans ?_
          rw [List.append_assoc]
          exact hset.symm.append_left _
  | disturb disturbance =>
      simp only [step, hdisturb]
      exact h

/-- The tasks together have what was logged, if every turn of a task logs what the task
gets, and nothing else does. -/
theorem run_tally
    (harrive : ∀ arrival task, tally (b.arrive arrival task) = tally task)
    (hturn : ∀ task shared, log (b.turn task shared).2.2 ++ tally task =
      log shared ++ tally (b.turn task shared).2.1)
    (hdisturb : ∀ disturbance shared, log (b.disturb disturbance shared) = log shared)
    {moves : List (Move τ α δ)} (hspawn : ∀ task, .spawn task ∈ moves → tally task = [])
    {before : List κ} {pool : State τ ρ}
    (h : List.Perm (log pool.shared) (before ++ pool.tasks.flatMap tally)) :
    List.Perm (log (Mealy.run (step b) moves pool).2.shared)
      (before ++ (Mealy.run (step b) moves pool).2.tasks.flatMap tally) := by
  induction moves generalizing pool with
  | nil =>
      exact h
  | cons move moves ih =>
      refine ih (fun task hmem => hspawn task (.tail _ hmem)) ?_
      exact tally_step log tally harrive hturn hdisturb
        (fun task hmove => hspawn task (hmove ▸ .head _)) h

end Tally

end Pool
end McpCore
