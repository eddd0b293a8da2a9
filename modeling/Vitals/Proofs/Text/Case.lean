/-
  Texts in letters of any case.

  * `AnyCase s name`: the letters of a name, each in either case.
  * `map_toLower_eq_iff`: this is what a text shows by its lower case.
-/
import Mathlib.Data.List.Forall2

namespace Vitals.Text

theorem val_toLower (c : Char) :
    c.toLower.val = if 65 ≤ c.val ∧ c.val ≤ 90 then c.val + 32 else c.val := by
  unfold Char.toLower
  split
  case isTrue h => exact (if_pos h).symm
  case isFalse h => exact (if_neg h).symm

/-- The difference of the cases is a negative one, so the sum wraps around. -/
theorem val_toUpper (c : Char) :
    c.toUpper.val = if 97 ≤ c.val ∧ c.val ≤ 122 then c.val + (65 - 97) else c.val := by
  unfold Char.toUpper
  split
  case isTrue h => exact (if_pos h).symm
  case isFalse h => exact (if_neg h).symm

/-- Only a lower letter and its upper one have it as their lower case. -/
theorem toLower_eq_iff {c l : Char} (hl : l.isLower = true) :
    c.toLower = l ↔ c = l ∨ c = l.toUpper := by
  have hrange : 97 ≤ l.val ∧ l.val ≤ 122 :=
    ((Bool.and_eq_true _ _).mp hl).imp of_decide_eq_true of_decide_eq_true
  rw [Char.ext_iff, Char.ext_iff, Char.ext_iff, val_toLower, val_toUpper, if_pos hrange]
  split <;> grind

/-- The letters of a name, each in either case. -/
def AnyCase (s name : List Char) : Prop := List.Forall₂ (fun c l => c = l ∨ c = l.toUpper) s name

/-- **A text is a name in any case if the name is its lower case.** -/
theorem map_toLower_eq_iff {s name : List Char} (hname : ∀ l ∈ name, l.isLower = true) :
    s.map Char.toLower = name ↔ AnyCase s name := by
  unfold AnyCase
  induction name generalizing s with
  | nil => rw [List.map_eq_nil_iff, List.forall₂_nil_right_iff]
  | cons l name ih =>
    rw [List.forall_mem_cons] at hname
    cases s with
    | nil => simp
    | cons c s =>
      rw [List.map_cons, List.cons.injEq, toLower_eq_iff hname.1, ih hname.2, List.forall₂_cons]

end Vitals.Text
