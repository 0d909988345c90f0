import McpCore.Auth
import McpCore.Library.Mealy
import Mathlib.Logic.Function.Basic

/-!
# The verifier that connections share

`get_verifier` hands out the verifier in a shared cell and fills the cell on first
use.  It reads the cell under one lock and stores under another, so what a call does
are steps between which other calls take theirs.  A schedule says which call takes
the next step.

`oneShared_iff`: a schedule keeps to one verifier exactly when of the calls that
read the cell before anything was stored no two go as far as storing.
-/

namespace McpCore
namespace Auth

section Steps

/-- `JWKS_CACHE_DURATION`, in seconds. -/
def jwksCacheDuration : Nat := 300

/-- A remote verifier with its keys and their cooldown.  Clones of one `Arc` are one
verifier; every `Arc::new` makes another. -/
structure RemoteJwksVerifier where
  identity : Nat
  jwksUrl : String
  cacheDuration : Nat
deriving DecidableEq

/-- How far a call of `get_verifier` is. -/
inductive CallPhase where
  | start
  | found (verifier : RemoteJwksVerifier)
  | empty
  | built (verifier : RemoteJwksVerifier)
  | stored (verifier : RemoteJwksVerifier)
  | returned

/-- The cell, how many verifiers were built, and the calls. -/
structure Shared (ι : Type) where
  cell : Option RemoteJwksVerifier
  built : Nat
  calls : ι → CallPhase

/-- Nothing is stored, and no call has taken a step. -/
def Shared.fresh (ι : Type) : Shared ι :=
  ⟨none, 0, fun _ => .start⟩

variable {ι : Type} [DecidableEq ι]

def Shared.moveTo (shared : Shared ι) (call : ι) (phase : CallPhase) : Shared ι :=
  { shared with calls := Function.update shared.calls call phase }

/-- `get_verifier`: the next step of a call, and what it returns if it does. -/
def getVerifier (jwks : JwksVerifier) (call : ι) (shared : Shared ι) :
    Option RemoteJwksVerifier × Shared ι :=
  match shared.calls call with
  | .start =>
      -- `self.verifier.read().await`
      match shared.cell with
      | some verifier => (none, shared.moveTo call (.found verifier))
      | none => (none, shared.moveTo call .empty)
  | .found verifier => (some verifier, shared.moveTo call .returned)
  | .empty =>
      let verifier := ⟨shared.built, jwks.jwksUrl, jwksCacheDuration⟩
      (none, { shared.moveTo call (.built verifier) with built := shared.built + 1 })
  | .built verifier =>
      -- `*self.verifier.write().await = Some(..)`, whatever the cell holds by now
      (none, { shared.moveTo call (.stored verifier) with cell := some verifier })
  | .stored verifier => (some verifier, shared.moveTo call .returned)
  | .returned => (none, shared)

variable (jwks : JwksVerifier)

/-- What is shared after a schedule. -/
def sharedAfter (schedule : List ι) : Shared ι :=
  (Mealy.run (getVerifier jwks) schedule (.fresh ι)).2

/-- The verifiers that calls have returned. -/
def returnedBy (schedule : List ι) : List RemoteJwksVerifier :=
  (Mealy.run (getVerifier jwks) schedule (.fresh ι)).1.filterMap id

/-- Once a verifier is stored it stays, and every call returns it. -/
def OneShared (schedule : List ι) : Prop :=
  (∀ earlier later verifier, earlier <+: later → later <+: schedule →
    (sharedAfter jwks earlier).cell = some verifier →
      (sharedAfter jwks later).cell = some verifier) ∧
  (∀ taken verifier, taken <+: schedule → verifier ∈ returnedBy jwks taken →
    (sharedAfter jwks taken).cell = some verifier)

/-- The call takes its first step, in which it reads the cell, before any call takes
its third, in which it may store. -/
def ReadsEarly (call : ι) (schedule : List ι) : Prop :=
  call ∈ schedule ∧ ∀ other, (schedule.takeWhile fun c => c ≠ call).count other < 3

/-- Of two calls that read early one at most gets to its third step. -/
def StoresOnce (schedule : List ι) : Prop :=
  ∀ call other, call ≠ other → ReadsEarly call schedule → ReadsEarly other schedule →
    schedule.count call < 3 ∨ schedule.count other < 3

end Steps

section Schedules

variable {ι : Type} [DecidableEq ι] {call other : ι}

theorem count_concat_of_ne (schedule : List ι) (hne : other ≠ call) :
    (schedule ++ [call]).count other = schedule.count other := by
  rw [List.count_append, List.count_singleton, if_neg (by simpa using hne.symm), Nat.add_zero]

theorem count_concat_self (schedule : List ι) (call : ι) :
    (schedule ++ [call]).count call = schedule.count call + 1 := by
  rw [List.count_append, List.count_singleton_self]

theorem takeWhile_concat_of_mem {schedule : List ι} (hmem : call ∈ schedule) (last : ι) :
    ((schedule ++ [last]).takeWhile fun c => c ≠ call) =
      schedule.takeWhile fun c => c ≠ call := by
  induction schedule with
  | nil =>
      cases hmem
  | cons first schedule ih =>
      by_cases heq : first = call
      · simp [heq]
      · have hrest : call ∈ schedule := by
          simpa [Ne.symm heq] using hmem
        simp only [List.cons_append, List.takeWhile_cons, ne_eq, heq, not_false_eq_true,
          decide_true, if_true]
        exact congrArg _ (ih hrest)

theorem takeWhile_concat_of_not_mem {schedule : List ι} (hmem : call ∉ schedule) :
    ((schedule ++ [call]).takeWhile fun c => c ≠ call) = schedule := by
  rw [List.takeWhile_append_of_pos]
  · simp
  · intro c hc
    simp only [ne_eq, decide_not, Bool.not_eq_true', decide_eq_false_iff_not]
    exact fun heq => hmem (heq ▸ hc)

theorem readsEarly_concat_of_mem
    {schedule : List ι} (hmem : call ∈ schedule) (last : ι) :
    ReadsEarly call (schedule ++ [last]) ↔ ReadsEarly call schedule := by
  simp only [ReadsEarly, takeWhile_concat_of_mem hmem, hmem, List.mem_append, true_or]

theorem readsEarly_concat_of_ne (schedule : List ι) (hne : other ≠ call) :
    ReadsEarly other (schedule ++ [call]) ↔ ReadsEarly other schedule := by
  by_cases hmem : other ∈ schedule
  · exact readsEarly_concat_of_mem hmem call
  · simp [ReadsEarly, hmem, hne]

theorem readsEarly_concat_of_not_mem {schedule : List ι} (hmem : call ∉ schedule) :
    ReadsEarly call (schedule ++ [call]) ↔ ∀ other, schedule.count other < 3 := by
  simp only [ReadsEarly, takeWhile_concat_of_not_mem hmem, List.mem_append, List.mem_singleton,
    or_true, true_and]

/-- A call that reads late reads after a third step. -/
theorem exists_count_of_not_readsEarly
    {schedule : List ι} (hmem : call ∈ schedule) (hlate : ¬ ReadsEarly call schedule) :
    ∃ other, 3 ≤ schedule.count other := by
  obtain ⟨other, hcount⟩ : ∃ other, ¬ (schedule.takeWhile fun c => c ≠ call).count other < 3 := by
    simpa [ReadsEarly, hmem] using hlate
  exact ⟨other, (not_lt.mp hcount).trans
    (List.Sublist.count_le other (List.takeWhile_sublist _))⟩

end Schedules

section Phases

variable {ι : Type} [DecidableEq ι] (jwks : JwksVerifier)

@[simp] theorem sharedAfter_nil :
    sharedAfter jwks ([] : List ι) = .fresh ι := by
  rfl

theorem sharedAfter_concat (schedule : List ι) (call : ι) :
    sharedAfter jwks (schedule ++ [call]) =
      (getVerifier jwks call (sharedAfter jwks schedule)).2 := by
  rw [sharedAfter, Mealy.run_concat]
  rfl

@[simp] theorem moveTo_cell (shared : Shared ι) (call : ι) (phase : CallPhase) :
    (shared.moveTo call phase).cell = shared.cell := by
  rfl

@[simp] theorem moveTo_built (shared : Shared ι) (call : ι) (phase : CallPhase) :
    (shared.moveTo call phase).built = shared.built := by
  rfl

@[simp] theorem moveTo_calls_self (shared : Shared ι) (call : ι) (phase : CallPhase) :
    (shared.moveTo call phase).calls call = phase := by
  simp [Shared.moveTo]

/-- A step of one call leaves the others where they are. -/
theorem getVerifier_calls_of_ne {call other : ι} (hne : other ≠ call) (shared : Shared ι) :
    (getVerifier jwks call shared).2.calls other = shared.calls other := by
  unfold getVerifier
  split
  · split
    · simp [Shared.moveTo, hne]
    · simp [Shared.moveTo, hne]
  · simp [Shared.moveTo, hne]
  · simp [Shared.moveTo, hne]
  · simp [Shared.moveTo, hne]
  · simp [Shared.moveTo, hne]
  · rfl

/-- Where a call is after this many steps, given whether it read early. -/
inductive PhaseAt (early : Prop) : Nat → CallPhase → Prop
  | start : PhaseAt early 0 .start
  | found (hlate : ¬ early) (verifier : RemoteJwksVerifier) : PhaseAt early 1 (.found verifier)
  | empty (hearly : early) : PhaseAt early 1 .empty
  | built (hearly : early) (verifier : RemoteJwksVerifier) : PhaseAt early 2 (.built verifier)
  | stored (hearly : early) (verifier : RemoteJwksVerifier) : PhaseAt early 3 (.stored verifier)
  | returned {taken : Nat} (htaken : 2 ≤ taken) (hearly : early → 4 ≤ taken) :
      PhaseAt early taken .returned

/-- The next step takes a call to its next phase, and stores when it is the third of a
call that read early. -/
theorem getVerifier_spec
    {schedule : List ι} {call : ι} {shared : Shared ι}
    (hphase : PhaseAt (ReadsEarly call schedule) (schedule.count call) (shared.calls call))
    (hcell : shared.cell.isSome = true ↔ ∃ other, 3 ≤ schedule.count other) :
    PhaseAt (ReadsEarly call (schedule ++ [call])) (schedule.count call + 1)
      ((getVerifier jwks call shared).2.calls call) ∧
    ((getVerifier jwks call shared).2.cell.isSome = true ↔
      (∃ other, 3 ≤ schedule.count other) ∨ schedule.count call = 2) := by
  have hsame : 0 < schedule.count call →
      (ReadsEarly call (schedule ++ [call]) ↔ ReadsEarly call schedule) := by
    intro hpos
    exact readsEarly_concat_of_mem (List.count_pos_iff.mp hpos) call
  generalize hcalls : shared.calls call = phase at hphase
  generalize hcount : schedule.count call = taken at hphase hsame ⊢
  cases hphase with
  | start =>
      have hearly := readsEarly_concat_of_not_mem (List.count_eq_zero.mp hcount)
      cases hread : shared.cell with
      | none =>
          simp only [getVerifier, hcalls, hread, moveTo_calls_self, moveTo_cell]
          simp only [hread, Option.isSome_none, Bool.false_eq_true, false_iff, not_exists,
            not_le] at hcell
          exact ⟨.empty (hearly.mpr hcell), by simpa using hcell⟩
      | some verifier =>
          simp only [getVerifier, hcalls, hread, moveTo_calls_self, moveTo_cell]
          simp only [hread, Option.isSome_some, true_iff] at hcell
          refine ⟨.found (fun h => ?_) verifier, by simpa using hcell⟩
          obtain ⟨other, hthird⟩ := hcell
          exact absurd (hearly.mp h other) (not_lt.mpr hthird)
  | found hlate verifier =>
      simp only [getVerifier, hcalls, moveTo_calls_self, moveTo_cell]
      refine ⟨.returned (by omega) fun h => absurd ((hsame (by omega)).mp h) hlate, ?_⟩
      simpa using hcell
  | empty hearly =>
      simp only [getVerifier, hcalls, moveTo_calls_self, moveTo_cell]
      exact ⟨.built ((hsame (by omega)).mpr hearly) _, by simpa using hcell⟩
  | built hearly verifier =>
      simp only [getVerifier, hcalls, moveTo_calls_self]
      exact ⟨.stored ((hsame (by omega)).mpr hearly) verifier, by simp⟩
  | stored hearly verifier =>
      simp only [getVerifier, hcalls, moveTo_calls_self, moveTo_cell]
      exact ⟨.returned (by omega) fun _ => by omega, by simpa using hcell⟩
  | returned htaken hfour =>
      simp only [getVerifier, hcalls]
      refine ⟨.returned (by omega) fun h => ?_, ?_⟩
      · have := hfour ((hsame (by omega)).mp h)
        omega
      · -- a call that has returned after two steps found a verifier
        rw [hcell, or_iff_left_of_imp]
        intro htwo
        have hlate : ¬ ReadsEarly call schedule := fun h => by
          have := hfour h
          omega
        exact exists_count_of_not_readsEarly (List.count_pos_iff.mp (by omega)) hlate

/-- Where the calls are, and whether anything is stored, is decided by the schedule. -/
theorem sharedAfter_spec (schedule : List ι) :
    (∀ call, PhaseAt (ReadsEarly call schedule) (schedule.count call)
      ((sharedAfter jwks schedule).calls call)) ∧
    ((sharedAfter jwks schedule).cell.isSome = true ↔ ∃ call, 3 ≤ schedule.count call) := by
  induction schedule using List.reverseRecOn with
  | nil =>
      refine ⟨fun call => .start, ?_⟩
      simp [Shared.fresh]
  | append_singleton schedule call ih =>
      obtain ⟨hphases, hcell⟩ := ih
      -- the other calls are where they were; this one moves on as its phase says
      suffices hstep :
          PhaseAt (ReadsEarly call (schedule ++ [call])) (schedule.count call + 1)
            ((sharedAfter jwks (schedule ++ [call])).calls call) ∧
          ((sharedAfter jwks (schedule ++ [call])).cell.isSome = true ↔
            (∃ other, 3 ≤ schedule.count other) ∨ schedule.count call = 2) by
        refine ⟨fun other => ?_, hstep.2.trans ?_⟩
        · by_cases hne : other = call
          · subst hne
            rw [count_concat_self]
            exact hstep.1
          · rw [count_concat_of_ne schedule hne, sharedAfter_concat,
              getVerifier_calls_of_ne jwks hne]
            simp only [readsEarly_concat_of_ne schedule hne]
            exact hphases other
        · constructor
          · rintro (⟨other, hcount⟩ | hcount)
            · refine ⟨other, hcount.trans (List.Sublist.count_le other ?_)⟩
              exact List.sublist_append_left _ _
            · exact ⟨call, by rw [count_concat_self]; omega⟩
          · rintro ⟨other, hcount⟩
            by_cases hne : other = call
            · subst hne
              rw [count_concat_self] at hcount
              by_cases htwo : schedule.count other = 2
              · exact Or.inr htwo
              · exact Or.inl ⟨other, by omega⟩
            · rw [count_concat_of_ne schedule hne] at hcount
              exact Or.inl ⟨other, hcount⟩
      rw [sharedAfter_concat]
      exact getVerifier_spec jwks (hphases call) hcell

/-- Whoever takes the first third step reads early. -/
theorem exists_readsEarly_of_count
    {schedule : List ι} (hthird : ∃ call, 3 ≤ schedule.count call) :
    ∃ call, ReadsEarly call schedule ∧ 3 ≤ schedule.count call := by
  induction schedule using List.reverseRecOn with
  | nil =>
      obtain ⟨call, hcount⟩ := hthird
      simp at hcount
  | append_singleton schedule last ih =>
      by_cases hbefore : ∃ call, 3 ≤ schedule.count call
      · obtain ⟨call, hearly, hcount⟩ := ih hbefore
        refine ⟨call, (readsEarly_concat_of_mem hearly.1 last).mpr hearly, ?_⟩
        exact hcount.trans (List.Sublist.count_le call (List.sublist_append_left _ _))
      · obtain ⟨call, hcount⟩ := hthird
        obtain rfl : call = last := by
          by_contra hne
          rw [count_concat_of_ne schedule hne] at hcount
          exact hbefore ⟨call, hcount⟩
        have htwo : 2 ≤ schedule.count call := by
          rw [count_concat_self] at hcount
          omega
        have hmem : call ∈ schedule := List.count_pos_iff.mp (by omega)
        refine ⟨call, (readsEarly_concat_of_mem hmem call).mpr ?_, hcount⟩
        by_contra hlate
        exact hbefore (exists_count_of_not_readsEarly hmem hlate)

end Phases

section OneStore

variable {ι : Type} [DecidableEq ι] (jwks : JwksVerifier) {schedule : List ι} {call : ι}

theorem StoresOnce.of_concat (h : StoresOnce (schedule ++ [call])) :
    StoresOnce schedule := by
  intro one two hne hone htwo
  have hle : ∀ c, schedule.count c ≤ (schedule ++ [call]).count c := fun c =>
    List.Sublist.count_le c (List.sublist_append_left _ _)
  rcases h one two hne ((readsEarly_concat_of_mem hone.1 call).mpr hone)
    ((readsEarly_concat_of_mem htwo.1 call).mpr htwo) with hcount | hcount
  · exact Or.inl ((hle one).trans_lt hcount)
  · exact Or.inr ((hle two).trans_lt hcount)

/-- A call that is about to store has read early and taken two steps. -/
theorem built_spec {verifier : RemoteJwksVerifier}
    (hbuilt : (sharedAfter jwks schedule).calls call = .built verifier) :
    ReadsEarly call schedule ∧ schedule.count call = 2 := by
  have hphase := (sharedAfter_spec jwks schedule).1 call
  rw [hbuilt] at hphase
  generalize hcount : schedule.count call = taken at hphase
  cases hphase with
  | built hearly => exact ⟨hearly, rfl⟩

/-- Where one call at most stores, what is stored stays. -/
theorem StoresOnce.cell_concat
    (h : StoresOnce (schedule ++ [call])) {verifier : RemoteJwksVerifier}
    (hcell : (sharedAfter jwks schedule).cell = some verifier) :
    (sharedAfter jwks (schedule ++ [call])).cell = some verifier := by
  rw [sharedAfter_concat]
  cases hcalls : (sharedAfter jwks schedule).calls call with
  | built other =>
      obtain ⟨hearly, htwo⟩ := built_spec jwks hcalls
      obtain ⟨first, hfirst, hthird⟩ := exists_readsEarly_of_count
        ((sharedAfter_spec jwks schedule).2.mp (by rw [hcell]; rfl))
      have hne : call ≠ first := by
        rintro rfl
        omega
      have hcounts := h call first hne ((readsEarly_concat_of_mem hearly.1 call).mpr hearly)
        ((readsEarly_concat_of_mem hfirst.1 call).mpr hfirst)
      rw [count_concat_self, count_concat_of_ne schedule hne.symm] at hcounts
      omega
  | _ =>
      simp [getVerifier, hcalls, hcell]

/-- What a call is about to return. -/
def Holds (shared : Shared ι) (call : ι) (verifier : RemoteJwksVerifier) : Prop :=
  shared.calls call = .found verifier ∨ shared.calls call = .stored verifier

/-- What a step returns the call held. -/
theorem holds_of_getVerifier {shared : Shared ι} {verifier : RemoteJwksVerifier}
    (hreturn : (getVerifier jwks call shared).1 = some verifier) :
    Holds shared call verifier := by
  cases hcalls : shared.calls call with
  | start =>
      cases hread : shared.cell with
      | none => simp [getVerifier, hcalls, hread] at hreturn
      | some found => simp [getVerifier, hcalls, hread] at hreturn
  | found found =>
      simp only [getVerifier, hcalls, Option.some.injEq] at hreturn
      exact Or.inl (hreturn ▸ hcalls)
  | stored stored =>
      simp only [getVerifier, hcalls, Option.some.injEq] at hreturn
      exact Or.inr (hreturn ▸ hcalls)
  | _ =>
      simp [getVerifier, hcalls] at hreturn

/-- A call comes to hold what the cell holds then. -/
theorem cell_of_holds_getVerifier {shared : Shared ι} {verifier : RemoteJwksVerifier}
    (hholds : Holds (getVerifier jwks call shared).2 call verifier) :
    (getVerifier jwks call shared).2.cell = some verifier := by
  cases hcalls : shared.calls call with
  | start =>
      cases hread : shared.cell with
      | none => simp [Holds, getVerifier, hcalls, hread] at hholds
      | some found => simpa [Holds, getVerifier, hcalls, hread] using hholds
  | built built =>
      simpa [Holds, getVerifier, hcalls] using hholds
  | returned =>
      simp [Holds, getVerifier, hcalls] at hholds
  | _ =>
      simp [Holds, getVerifier, hcalls] at hholds

/-- Where one call at most stores, every call holds what is stored. -/
theorem StoresOnce.cell_of_holds
    (h : StoresOnce schedule) {verifier : RemoteJwksVerifier}
    (hholds : Holds (sharedAfter jwks schedule) call verifier) :
    (sharedAfter jwks schedule).cell = some verifier := by
  induction schedule using List.reverseRecOn with
  | nil =>
      simp [Holds, Shared.fresh] at hholds
  | append_singleton schedule last ih =>
      by_cases hlast : call = last
      · subst hlast
        rw [sharedAfter_concat] at hholds ⊢
        exact cell_of_holds_getVerifier jwks hholds
      · refine h.cell_concat jwks (ih h.of_concat ?_)
        rw [sharedAfter_concat] at hholds
        simpa only [Holds, getVerifier_calls_of_ne jwks hlast] using hholds

theorem returnedBy_concat (schedule : List ι) (call : ι) :
    returnedBy jwks (schedule ++ [call]) =
      returnedBy jwks schedule ++
        (getVerifier jwks call (sharedAfter jwks schedule)).1.toList := by
  rw [returnedBy, Mealy.run_append_fst, List.filterMap_append, Mealy.run_cons_fst, Mealy.run_nil]
  change _ ++ List.filterMap id [(getVerifier jwks call (sharedAfter jwks schedule)).1] = _
  cases (getVerifier jwks call (sharedAfter jwks schedule)).1 with
  | none => rfl
  | some verifier => rfl

/-- Where one call at most stores there is one verifier. -/
theorem StoresOnce.oneShared (h : StoresOnce schedule) :
    OneShared jwks schedule := by
  induction schedule using List.reverseRecOn with
  | nil =>
      refine ⟨?_, ?_⟩
      · intro earlier later verifier hearlier hlater hcell
        rw [List.prefix_nil.mp hlater] at hearlier ⊢
        rwa [List.prefix_nil.mp hearlier] at hcell
      · intro taken verifier htaken hmem
        rw [List.prefix_nil.mp htaken] at hmem
        simp [returnedBy] at hmem
  | append_singleton schedule last ih =>
      obtain ⟨hkept, hreturned⟩ := ih h.of_concat
      refine ⟨?_, ?_⟩
      · intro earlier later verifier hearlier hlater hcell
        rcases List.prefix_concat_iff.mp hlater with rfl | hlater
        · rcases List.prefix_concat_iff.mp hearlier with rfl | hearlier
          · exact hcell
          · exact h.cell_concat jwks
              (hkept earlier schedule verifier hearlier List.prefix_rfl hcell)
        · exact hkept earlier later verifier hearlier hlater hcell
      · intro taken verifier htaken hmem
        rcases List.prefix_concat_iff.mp htaken with rfl | htaken
        · rw [returnedBy_concat, List.mem_append] at hmem
          rcases hmem with hmem | hmem
          · exact h.cell_concat jwks
              (hreturned schedule verifier List.prefix_rfl hmem)
          · have hholds := holds_of_getVerifier jwks (Option.mem_toList.mp hmem)
            exact h.cell_concat jwks (h.of_concat.cell_of_holds jwks hholds)
        · exact hreturned taken verifier htaken hmem

end OneStore

section TwoStores

variable {ι : Type} [DecidableEq ι] (jwks : JwksVerifier) {schedule : List ι} {call : ι}

/-- What was built and is not stored yet is in no other hands and not in the cell. -/
structure BuiltApart (shared : Shared ι) : Prop where
  cell_lt : ∀ verifier, shared.cell = some verifier → verifier.identity < shared.built
  built_lt : ∀ call verifier, shared.calls call = .built verifier →
    verifier.identity < shared.built
  not_stored : ∀ call verifier, shared.calls call = .built verifier →
    shared.cell ≠ some verifier
  distinct : ∀ call other verifier, shared.calls call = .built verifier →
    shared.calls other = .built verifier → call = other

/-- Moving a call to a phase in which it has built nothing keeps what others built
apart. -/
theorem BuiltApart.moveTo
    {shared : Shared ι} (h : BuiltApart shared) {phase : CallPhase}
    (hphase : ∀ verifier, phase ≠ .built verifier) :
    BuiltApart (shared.moveTo call phase) := by
  have hbefore : ∀ other verifier, (shared.moveTo call phase).calls other = .built verifier →
      shared.calls other = .built verifier := by
    intro other verifier hbuilt
    by_cases hother : other = call
    · subst hother
      rw [moveTo_calls_self] at hbuilt
      exact absurd hbuilt (hphase verifier)
    · simpa [Shared.moveTo, hother] using hbuilt
  constructor
  · exact h.cell_lt
  · exact fun other verifier hbuilt => h.built_lt other verifier (hbefore other verifier hbuilt)
  · exact fun other verifier hbuilt => h.not_stored other verifier (hbefore other verifier hbuilt)
  · exact fun one two verifier hone htwo =>
      h.distinct one two verifier (hbefore one verifier hone) (hbefore two verifier htwo)

theorem BuiltApart.getVerifier
    {shared : Shared ι} (h : BuiltApart shared) (call : ι) :
    BuiltApart (Auth.getVerifier jwks call shared).2 := by
  cases hcalls : shared.calls call with
  | start =>
      cases hread : shared.cell with
      | none =>
          simp only [Auth.getVerifier, hcalls, hread]
          exact h.moveTo (by simp)
      | some found =>
          simp only [Auth.getVerifier, hcalls, hread]
          exact h.moveTo (by simp)
  | found found =>
      simp only [Auth.getVerifier, hcalls]
      exact h.moveTo (by simp)
  | empty =>
      simp only [Auth.getVerifier, hcalls]
      -- the number of the new verifier is above all that are about
      have hcases : ∀ other verifier,
          (shared.moveTo call (.built ⟨shared.built, jwks.jwksUrl, jwksCacheDuration⟩)).calls
              other = .built verifier →
            (other = call ∧ verifier.identity = shared.built) ∨
              (other ≠ call ∧ shared.calls other = .built verifier) := by
        intro other verifier hbuilt
        by_cases hother : other = call
        · subst hother
          rw [moveTo_calls_self] at hbuilt
          cases hbuilt
          exact Or.inl ⟨rfl, rfl⟩
        · exact Or.inr ⟨hother, by simpa [Shared.moveTo, hother] using hbuilt⟩
      constructor
      · exact fun verifier hcell => Nat.lt_succ_of_lt (h.cell_lt verifier hcell)
      · intro other verifier hbuilt
        rcases hcases other verifier hbuilt with ⟨-, hnew⟩ | ⟨-, hold⟩
        · exact hnew ▸ Nat.lt_succ_self _
        · exact Nat.lt_succ_of_lt (h.built_lt other verifier hold)
      · intro other verifier hbuilt hcell
        rcases hcases other verifier hbuilt with ⟨-, hnew⟩ | ⟨-, hold⟩
        · exact absurd (h.cell_lt verifier hcell) (by omega)
        · exact h.not_stored other verifier hold hcell
      · intro one two verifier hone htwo
        rcases hcases one verifier hone with ⟨rfl, hnew⟩ | ⟨-, hold⟩
        · rcases hcases two verifier htwo with ⟨rfl, -⟩ | ⟨-, hold'⟩
          · rfl
          · exact absurd (h.built_lt two verifier hold') (by omega)
        · rcases hcases two verifier htwo with ⟨rfl, hnew⟩ | ⟨-, hold'⟩
          · exact absurd (h.built_lt one verifier hold) (by omega)
          · exact h.distinct one two verifier hold hold'
  | built built =>
      simp only [Auth.getVerifier, hcalls]
      have hmoved : BuiltApart (shared.moveTo call (.stored built)) := h.moveTo (by simp)
      have hother : ∀ other verifier,
          (shared.moveTo call (.stored built)).calls other = .built verifier →
            other ≠ call ∧ shared.calls other = .built verifier := by
        intro other verifier hbuilt
        by_cases heq : other = call
        · subst heq
          rw [moveTo_calls_self] at hbuilt
          cases hbuilt
        · exact ⟨heq, by simpa [Shared.moveTo, heq] using hbuilt⟩
      refine ⟨?_, hmoved.built_lt, ?_, hmoved.distinct⟩
      · intro verifier hcell
        cases hcell
        exact h.built_lt call built hcalls
      · intro other verifier hbuilt hcell
        cases hcell
        obtain ⟨hne, hold⟩ := hother other built hbuilt
        exact hne (h.distinct other call built hold hcalls)
  | stored stored =>
      simp only [Auth.getVerifier, hcalls]
      exact h.moveTo (by simp)
  | returned =>
      simpa only [Auth.getVerifier, hcalls] using h

theorem builtApart_sharedAfter (schedule : List ι) :
    BuiltApart (sharedAfter jwks schedule) := by
  refine Mealy.run_invariant (getVerifier jwks) BuiltApart
    (fun call shared h => h.getVerifier jwks call) schedule ?_
  constructor
  all_goals simp [Shared.fresh]

theorem OneShared.of_concat (h : OneShared jwks (schedule ++ [call])) :
    OneShared jwks schedule := by
  refine ⟨fun earlier later verifier hearlier hlater => ?_, fun taken verifier htaken => ?_⟩
  · exact h.1 earlier later verifier hearlier (hlater.trans (List.prefix_append _ _))
  · exact h.2 taken verifier (htaken.trans (List.prefix_append _ _))

/-- One verifier is stored by one call at most: of two calls that read early and get
to their third step, the later one replaces what is stored. -/
theorem OneShared.storesOnce (h : OneShared jwks schedule) :
    StoresOnce schedule := by
  induction schedule using List.reverseRecOn with
  | nil =>
      intro call other hne hcall
      exact absurd hcall.1 List.not_mem_nil
  | append_singleton schedule last ih =>
      have hbefore := ih h.of_concat
      -- whoever takes its third step last finds a verifier in the cell
      have hreplaced : ∀ one two, one ≠ two → one = last →
          ReadsEarly one (schedule ++ [last]) → ReadsEarly two (schedule ++ [last]) →
            3 ≤ (schedule ++ [last]).count one → 3 ≤ (schedule ++ [last]).count two → False := by
        rintro one two hne rfl hone htwo hcount hcount'
        rw [count_concat_self] at hcount
        rw [count_concat_of_ne schedule hne.symm] at hcount'
        have hmem : one ∈ schedule := List.count_pos_iff.mp (by omega)
        have hmem' : two ∈ schedule := List.count_pos_iff.mp (by omega)
        rw [readsEarly_concat_of_mem hmem] at hone
        rw [readsEarly_concat_of_mem hmem'] at htwo
        obtain ⟨hphases, hcell⟩ := sharedAfter_spec jwks schedule
        have hlt := hbefore one two hne hone htwo
        have hphase := hphases one
        rw [show schedule.count one = 2 by omega] at hphase
        generalize hcalls : (sharedAfter jwks schedule).calls one = phase at hphase
        cases hphase with
        | built hearly verifier =>
            obtain ⟨stored, hstored⟩ := Option.isSome_iff_exists.mp (hcell.mpr ⟨two, hcount'⟩)
            have hkept := h.1 schedule (schedule ++ [one]) stored (List.prefix_append _ _)
              List.prefix_rfl hstored
            rw [sharedAfter_concat] at hkept
            simp only [getVerifier, hcalls, Option.some.injEq] at hkept
            exact (builtApart_sharedAfter jwks schedule).not_stored one verifier hcalls
              (hkept ▸ hstored)
        | returned htaken hfour =>
            exact absurd (hfour hone) (by omega)
      intro one two hne hone htwo
      by_contra hcounts
      rw [not_or, not_lt, not_lt] at hcounts
      obtain ⟨hcount, hcount'⟩ := hcounts
      by_cases hlast : one = last
      · exact hreplaced one two hne hlast hone htwo hcount hcount'
      · by_cases hlast' : two = last
        · exact hreplaced two one hne.symm hlast' htwo hone hcount' hcount
        · -- neither took the last step, so both were there before
          rw [count_concat_of_ne schedule hlast] at hcount
          rw [count_concat_of_ne schedule hlast'] at hcount'
          rcases hbefore one two hne ((readsEarly_concat_of_ne schedule hlast).mp hone)
            ((readsEarly_concat_of_ne schedule hlast').mp htwo) with hlt | hlt
          · exact absurd hcount (not_le.mpr hlt)
          · exact absurd hcount' (not_le.mpr hlt)

/--
One shared verifier: whichever calls there are and however their steps interleave, a
stored verifier stays and is what every call returns exactly when of the calls that
read the cell before anything was stored no two take their third step.
-/
theorem oneShared_iff (schedule : List ι) :
    OneShared jwks schedule ↔ StoresOnce schedule :=
  ⟨fun h => h.storesOnce jwks, fun h => h.oneShared jwks⟩

/-- Two first connections, each reading before the other stores: they return two
verifiers, and the second replaces the first in the cell. -/
theorem not_oneShared_of_interleaved :
    let jwks := JwksVerifier.fromJwksUrl "https://id.example/jwks" ⟨none, none⟩
    let schedule := ["a", "b", "a", "b", "a", "b", "a", "b"]
    (returnedBy jwks schedule).map RemoteJwksVerifier.identity = [0, 1] ∧
    ¬ OneShared jwks schedule := by
  intro jwks schedule
  refine ⟨by decide, fun h => ?_⟩
  have hkept := h.1 ["a", "b", "a", "b", "a"] schedule ⟨0, jwks.jwksUrl, jwksCacheDuration⟩
    ⟨_, rfl⟩ List.prefix_rfl (by decide)
  revert hkept
  decide

end TwoStores

end Auth
end McpCore
