/-
  Texts without the blanks at their ends.

  * `trimChars_eq_self_iff`: a text is left as it is if it neither begins nor ends with a blank.
    `trim_trim`: so trimming twice is trimming once.
  * `trimChars_append`: between two characters that are not blank nothing is lost, so of a text that
    begins with one only the end is trimmed.
-/
import Mathlib.Data.List.DropRight
import Vitals.Text.Blank

namespace Vitals.Text

variable {c : Char} {cs front tail : List Char}

theorem trimChars_eq (cs : List Char) :
    trimChars cs = (cs.dropWhile isBlank).rdropWhile isBlank := rfl

theorem head?_dropWhile_isBlank (h : (cs.dropWhile isBlank).head? = some c) : isBlank c = false := by
  have hnot := List.head?_dropWhile_not isBlank cs
  rw [h] at hnot
  exact hnot

/-- What is trimmed does not begin with a blank. -/
theorem head?_trimChars (h : (trimChars cs).head? = some c) : isBlank c = false := by
  rw [trimChars_eq] at h
  obtain ⟨cut, hcut⟩ := List.rdropWhile_prefix isBlank (cs.dropWhile isBlank)
  have hfront : (cs.dropWhile isBlank).head? = some c := by
    rw [← hcut, List.head?_append, h]
    rfl
  exact head?_dropWhile_isBlank hfront

/-- What is trimmed does not end with a blank. -/
theorem getLast?_trimChars (h : (trimChars cs).getLast? = some c) : isBlank c = false := by
  rw [trimChars_eq] at h
  obtain ⟨hne, rfl⟩ := List.mem_getLast?_eq_getLast h
  exact eq_false_of_ne_true (List.rdropWhile_last_not isBlank _ hne)

/-- **A text is left as it is if it neither begins nor ends with a blank.** -/
theorem trimChars_eq_self_iff : trimChars cs = cs ↔
    (∀ c, cs.head? = some c → isBlank c = false) ∧ ∀ c, cs.getLast? = some c → isBlank c = false := by
  constructor
  · intro h
    rw [← h]
    exact ⟨fun _ => head?_trimChars, fun _ => getLast?_trimChars⟩
  · rintro ⟨hhead, hlast⟩
    have hfront : cs.dropWhile isBlank = cs := by
      cases cs with
      | nil => rfl
      | cons c cs => rw [List.dropWhile_cons_of_neg (by simp [hhead c rfl])]
    rw [trimChars_eq, hfront, List.rdropWhile_eq_self_iff]
    intro hne
    rw [hlast _ (List.getLast?_eq_some_getLast hne)]
    exact Bool.false_ne_true

theorem trimChars_trimChars (cs : List Char) : trimChars (trimChars cs) = trimChars cs :=
  trimChars_eq_self_iff.2 ⟨fun _ => head?_trimChars, fun _ => getLast?_trimChars⟩

theorem toList_trim (s : String) : (trim s).toList = trimChars s.toList := String.toList_ofList

theorem trim_trim (s : String) : trim (trim s) = trim s := by
  rw [trim, toList_trim, trimChars_trimChars]
  rfl

theorem mem_rdropWhile {p : Char → Bool} (hc : c ∈ cs) (hp : p c = false) :
    c ∈ cs.rdropWhile p := by
  have hcut : cs.rdropWhile p ++ cs.rtakeWhile p = cs := List.rdropWhile_append_rtakeWhile
  rw [← hcut] at hc
  refine (List.mem_append.1 hc).resolve_right fun hc => ?_
  exact absurd (hp.symm.trans (List.mem_rtakeWhile_imp hc)) Bool.false_ne_true

theorem rdropWhile_append_of_mem {p : Char → Bool} (hc : c ∈ tail) (hp : p c = false) :
    (front ++ tail).rdropWhile p = front ++ tail.rdropWhile p := by
  have hne : (tail.reverse.dropWhile p).isEmpty = false := by
    refine eq_false_of_ne_true fun hempty => ?_
    have hall := List.dropWhile_eq_nil_iff.1 (List.isEmpty_iff.1 hempty)
    exact absurd (hp.symm.trans (hall c (List.mem_reverse.2 hc))) Bool.false_ne_true
  rw [List.rdropWhile, List.reverse_append, List.dropWhile_append, hne]
  simp [List.rdropWhile]

/-- **Between two characters that are not blank nothing is lost.** -/
theorem trimChars_append {first : Char} (hfirst : isBlank first = false) (hc : c ∈ tail)
    (hblank : isBlank c = false) :
    trimChars (first :: front ++ tail) = first :: front ++ tail.rdropWhile isBlank := by
  rw [trimChars_eq, List.cons_append, List.dropWhile_cons_of_neg (by simp [hfirst]),
    ← List.cons_append, rdropWhile_append_of_mem hc hblank]

end Vitals.Text
