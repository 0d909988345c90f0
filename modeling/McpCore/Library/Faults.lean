import Mathlib.Data.List.Infix

/-!
# Schedules of faults

Operations that may fail take the entries of a schedule in turn: `none` lets the one that
takes it succeed, `some fault` makes it fail.  What is left of a schedule says how far they
have come, and `Fired` that one of those between two points failed.
-/

namespace McpCore
namespace Faults

universe u

variable {ε : Type u} {first second third : List (Option ε)} {fault : ε}

/-- Among the entries taken since `before` was left, until `after` was, is this fault. -/
def Fired (before after : List (Option ε)) (fault : ε) : Prop :=
  ∃ taken, taken ++ after = before ∧ some fault ∈ taken

theorem fired_cons :
    Fired (some fault :: first) first fault :=
  ⟨[some fault], rfl, List.mem_singleton_self _⟩

/-- Where there are no faults none fires. -/
theorem not_fired_nil :
    ¬ Fired [] second fault := by
  rintro ⟨taken, hsplit, hmem⟩
  rw [(List.append_eq_nil_iff.mp hsplit).1] at hmem
  exact List.not_mem_nil hmem

/-- A fault fired since any earlier point. -/
theorem Fired.earlier (h : Fired second third fault) (hsuffix : second <:+ first) :
    Fired first third fault := by
  obtain ⟨taken, rfl, hmem⟩ := h
  obtain ⟨earlier, rfl⟩ := hsuffix
  exact ⟨earlier ++ taken, List.append_assoc _ _ _, List.mem_append_right _ hmem⟩

/-- A fault fired by any later point. -/
theorem Fired.later (h : Fired first second fault) (hsuffix : third <:+ second) :
    Fired first third fault := by
  obtain ⟨taken, rfl, hmem⟩ := h
  obtain ⟨later, rfl⟩ := hsuffix
  exact ⟨taken ++ later, List.append_assoc _ _ _, List.mem_append_left _ hmem⟩

end Faults
end McpCore
