import Mathlib.Data.List.Lex
import Mathlib.Order.Lattice
import Mathlib.Algebra.Group.Nat.Hom
import Mathlib.Data.Char

/-!
# Dates in text

Numbers of a fixed width, and dates written `YYYY-MM-DD`: the order of the texts is
the order of what they say.

`write` puts the digits of a number in any linearly ordered alphabet, the most
significant first.  `Date.text_le_iff` is what a program relies on that compares
dates as strings.
-/

namespace McpCore
namespace Library

section FixedWidth

variable {α : Type} (digit : Nat → α) (base : Nat)

/-- A number in `width` digits. -/
def write : Nat → Nat → List α
  | 0, _ => []
  | width + 1, n => digit (n / base ^ width) :: write width (n % base ^ width)

@[simp] theorem length_write (width n : Nat) :
    (write digit base width n).length = width := by
  induction width generalizing n with
  | zero =>
      rfl
  | succ width ih =>
      simp [write, ih]

variable [LinearOrder α]

/-- Texts whose heads have one length are compared by their heads first. -/
theorem append_lt_append_iff {l l' r r' : List α} (hlength : l.length = l'.length) :
    l ++ r < l' ++ r' ↔ l < l' ∨ l = l' ∧ r < r' := by
  induction l generalizing l' with
  | nil =>
      obtain rfl : l' = [] := List.length_eq_zero_iff.mp hlength.symm
      simp
  | cons a l ih =>
      obtain ⟨b, l', rfl⟩ := List.exists_cons_of_length_eq_add_one hlength.symm
      have hlength : l.length = l'.length := by
        simpa using hlength
      simp only [List.cons_append, List.cons_lt_cons_iff, ih hlength, List.cons.injEq]
      tauto

variable {digit base} (hdigit : ∀ d e, d < base → e < base → (digit d < digit e ↔ d < e))

include hdigit

/-- Numbers of one width are in the order of their texts. -/
theorem write_lt_write_iff {width n m : Nat} (hn : n < base ^ width) (hm : m < base ^ width) :
    write digit base width n < write digit base width m ↔ n < m := by
  induction width generalizing n m with
  | zero =>
      have hzero : n = 0 ∧ m = 0 := by
        simp at hn hm
        exact ⟨hn, hm⟩
      simp [write, hzero.1, hzero.2]
  | succ width ih =>
      have hpos : 0 < base ^ width := by
        rcases Nat.eq_zero_or_pos (base ^ width) with h | h
        · simp [Nat.pow_succ, h] at hn
        · exact h
      have hhead : ∀ {n}, n < base ^ (width + 1) → n / base ^ width < base := by
        intro n hn
        rw [Nat.div_lt_iff_lt_mul hpos, Nat.mul_comm]
        exact hn
      have hheads := hdigit _ _ (hhead hn) (hhead hm)
      have hheads' := hdigit _ _ (hhead hm) (hhead hn)
      have htails := ih (Nat.mod_lt n hpos) (Nat.mod_lt m hpos)
      have hsame : digit (n / base ^ width) = digit (m / base ^ width) ↔
          n / base ^ width = m / base ^ width := by
        constructor
        · intro heq
          rw [heq] at hheads hheads'
          simp only [lt_self_iff_false, false_iff] at hheads hheads'
          omega
        · intro heq
          rw [heq]
      rw [write, write, List.cons_lt_cons_iff, hheads, hsame, htails]
      have hn' := Nat.div_add_mod n (base ^ width)
      have hm' := Nat.div_add_mod m (base ^ width)
      constructor
      · rintro (hlt | ⟨heq, hlt⟩)
        · exact Nat.lt_of_div_lt_div hlt
        · rw [heq] at hn'
          omega
      · intro hlt
        rcases Nat.lt_or_ge (n / base ^ width) (m / base ^ width) with h | h
        · exact .inl h
        · have heq : n / base ^ width = m / base ^ width :=
            Nat.le_antisymm (Nat.div_le_div_right hlt.le) h
          rw [heq] at hn'
          exact .inr ⟨heq, by omega⟩

end FixedWidth

section Dates

/-- A date as it is written: four, two and two digits. -/
structure Date where
  year : Nat
  month : Nat
  day : Nat
  year_lt : year < 10 ^ 4
  month_lt : month < 10 ^ 2
  day_lt : day < 10 ^ 2
deriving DecidableEq

namespace Date

/-- In the calendar: the year decides first, then the month, then the day. -/
instance : LE Date where
  le a b := a.year < b.year ∨
    a.year = b.year ∧ (a.month < b.month ∨ a.month = b.month ∧ a.day ≤ b.day)

theorem le_def (a b : Date) :
    a ≤ b ↔ a.year < b.year ∨
      a.year = b.year ∧ (a.month < b.month ∨ a.month = b.month ∧ a.day ≤ b.day) :=
  Iff.rfl

instance (a b : Date) : Decidable (a ≤ b) :=
  decidable_of_iff _ (le_def a b).symm

/-- `YYYY-MM-DD`. -/
def text (date : Date) : String :=
  String.ofList (write Nat.digitChar 10 4 date.year ++ '-' ::
    (write Nat.digitChar 10 2 date.month ++ '-' :: write Nat.digitChar 10 2 date.day))

theorem digitChar_lt_digitChar_iff :
    ∀ d e, d < 10 → e < 10 → (Nat.digitChar d < Nat.digitChar e ↔ d < e) := by
  have hall : ∀ d < 10, ∀ e < 10, (Nat.digitChar d < Nat.digitChar e ↔ d < e) := by
    decide
  exact fun d e hd he => hall d hd e he

theorem write_eq_write_iff {width n m : Nat} (hn : n < 10 ^ width) (hm : m < 10 ^ width) :
    write Nat.digitChar 10 width n = write Nat.digitChar 10 width m ↔ n = m := by
  constructor
  · intro heq
    have hlt := write_lt_write_iff digitChar_lt_digitChar_iff hn hm
    have hgt := write_lt_write_iff digitChar_lt_digitChar_iff hm hn
    rw [heq] at hlt hgt
    simp only [lt_self_iff_false, false_iff] at hlt hgt
    omega
  · intro heq
    rw [heq]

/-- Dates as strings are in calendar order. -/
theorem text_le_iff (a b : Date) :
    a.text ≤ b.text ↔ a ≤ b := by
  have hlt : b.text < a.text ↔ b.year < a.year ∨
      b.year = a.year ∧ (b.month < a.month ∨ b.month = a.month ∧ b.day < a.day) := by
    change b.text.toList < a.text.toList ↔ _
    rw [text, text, String.toList_ofList, String.toList_ofList, append_lt_append_iff (by simp),
      List.cons_lt_cons_iff, append_lt_append_iff (by simp), List.cons_lt_cons_iff,
      write_eq_write_iff b.year_lt a.year_lt, write_eq_write_iff b.month_lt a.month_lt,
      write_lt_write_iff digitChar_lt_digitChar_iff b.year_lt a.year_lt,
      write_lt_write_iff digitChar_lt_digitChar_iff b.month_lt a.month_lt,
      write_lt_write_iff digitChar_lt_digitChar_iff b.day_lt a.day_lt]
    simp
  change ¬ b.text < a.text ↔ _
  rw [hlt, le_def]
  omega

end Date

end Dates

end Library
end McpCore
