/-
  What a cursor lets through.

  * `Cursor.highs`: the records whose key lies above a floor and above all keys before it.
  * `Cursor.fresh_eq_highs`: a cursor lets through exactly the highs above its position.
  * `Cursor.fresh_append`: it does not matter how the records are cut into batches.
  * `Cursor.position_advanceAll`: afterwards the cursor stands at the last record let through.
  * `Cursor.fresh_eq_filter`: of records in ascending order a cursor lets through those above it.
  * `Cursor.append_newer_prefix`: a part of a log is caught up with a later one.
  * `Cursor.length_le_of_ascending`: there are no more keys than words.
-/
import Mathlib.Algebra.Group.Nat.Defs
import Mathlib.Data.List.Induction
import Vitals.Telemetry.Cursor

namespace Vitals

/-- Of two words `max` is the one that is not below the other. -/
instance lawfulMaxWord64 : Std.LawfulOrderLeftLeaningMax UInt64 where
  max_eq_left a b h := by
    show (if a ≤ b then b else a) = a
    split
    · exact UInt64.le_antisymm h ‹_›
    · rfl
  max_eq_right a b h := by
    show (if a ≤ b then b else a) = b
    rw [if_pos (UInt64.le_of_lt (UInt64.not_le.1 h))]

/-- The greatest of some words, zero if there are none, lies below a word iff zero and all of them
do. -/
theorem max?_getD_lt {ks : List UInt64} {l : UInt64} :
    ks.max?.getD 0 < l ↔ 0 < l ∧ ∀ k ∈ ks, k < l := by
  cases hm : ks.max? with
  | none => simp [List.max?_eq_none_iff.1 hm]
  | some k =>
    obtain ⟨hmem, hle⟩ := List.max?_eq_some_iff.1 hm
    constructor
    · intro hk
      exact ⟨UInt64.lt_of_le_of_lt UInt64.zero_le hk, fun l hl =>
        UInt64.lt_of_le_of_lt (hle l hl) hk⟩
    · rintro ⟨-, hall⟩
      exact hall k hmem

namespace Cursor

variable {α : Type} {key : α → UInt64}

/-- The records whose key lies above a floor and above the keys of all records before them. -/
def highs (key : α → UInt64) (floor : UInt64) (xs : List α) : List α :=
  (xs.zipIdx.filter fun (x, i) =>
    decide (floor < key x ∧ ∀ y ∈ xs.take i, key y < key x)).map (·.1)

/-! ## One key after the other -/

@[simp] theorem advanceAll_nil (c : Cursor) : c.advanceAll [] = c := rfl

@[simp] theorem advanceAll_cons (c : Cursor) (k : UInt64) (ks : List UInt64) :
    c.advanceAll (k :: ks) = (c.advance k).advanceAll ks := rfl

theorem advanceAll_append (c : Cursor) (ks ls : List UInt64) :
    c.advanceAll (ks ++ ls) = (c.advanceAll ks).advanceAll ls := by
  simp [advanceAll]

theorem position_advance_lt {c : Cursor} {k l : UInt64} :
    (c.advance k).position < l ↔ c.position < l ∧ k < l := by
  by_cases h : c.position < k
  · simp only [advance, accepts, h, decide_true, if_true]
    exact ⟨fun hl => ⟨UInt64.lt_trans h hl, hl⟩, And.right⟩
  · simp only [advance, accepts, h, decide_false, Bool.false_eq_true, if_false]
    exact ⟨fun hl => ⟨hl, UInt64.lt_of_le_of_lt (UInt64.not_lt.1 h) hl⟩, And.left⟩

/-- A key lies above the cursor moved over some keys iff it lies above the cursor and those keys. -/
theorem position_advanceAll_lt {c : Cursor} {ks : List UInt64} {l : UInt64} :
    (c.advanceAll ks).position < l ↔ c.position < l ∧ ∀ k ∈ ks, k < l := by
  induction ks generalizing c with
  | nil => simp
  | cons k ks ih => simp [ih, position_advance_lt, and_assoc]

theorem position_le_advanceAll (c : Cursor) (ks : List UInt64) :
    c.position ≤ (c.advanceAll ks).position := by
  rw [← UInt64.not_lt, position_advanceAll_lt]
  exact fun h => UInt64.lt_irrefl _ h.1

theorem le_position_advanceAll (c : Cursor) {k : UInt64} {ks : List UInt64} (hk : k ∈ ks) :
    k ≤ (c.advanceAll ks).position := by
  rw [← UInt64.not_lt, position_advanceAll_lt]
  exact fun h => UInt64.lt_irrefl _ (h.2 k hk)

@[simp] theorem fresh_nil (c : Cursor) : c.fresh key ([] : List α) = [] := rfl

theorem fresh_cons (c : Cursor) (x : α) (xs : List α) :
    c.fresh key (x :: xs) =
      (if c.position < key x then [x] else []) ++ (c.advance (key x)).fresh key xs := by
  by_cases h : c.position < key x <;> simp [fresh, advance, accepts, h]

/-- **Batches do not matter to what is let through.** -/
theorem fresh_append (c : Cursor) (xs ys : List α) :
    c.fresh key (xs ++ ys) = c.fresh key xs ++ (c.advanceAll (xs.map key)).fresh key ys := by
  induction xs generalizing c with
  | nil => simp
  | cons x xs ih => simp [fresh_cons, ih]

/-- **The cursor ends at the last record let through**, or stays. -/
theorem position_advanceAll (c : Cursor) (xs : List α) :
    (c.advanceAll (xs.map key)).position =
      ((c.fresh key xs).getLast?.map key).getD c.position := by
  induction xs generalizing c with
  | nil => simp
  | cons x xs ih =>
    rw [List.map_cons, advanceAll_cons, ih, fresh_cons]
    by_cases h : c.position < key x
    · simp only [advance, accepts, h, decide_true, if_true, List.getLast?_append]
      cases ((⟨key x⟩ : Cursor).fresh key xs).getLast? <;> simp
    · simp [advance, accepts, h]

/-! ## The records let through -/

theorem highs_append_singleton (floor : UInt64) (xs : List α) (x : α) :
    highs key floor (xs ++ [x]) =
      highs key floor xs ++ if floor < key x ∧ ∀ y ∈ xs, key y < key x then [x] else [] := by
  have hold : ∀ p ∈ xs.zipIdx, (xs ++ [x]).take p.2 = xs.take p.2 := by
    intro p hp
    have := List.snd_lt_of_mem_zipIdx hp
    rw [List.take_append_of_le_length (by omega)]
  simp only [highs, List.zipIdx_append, List.filter_append, List.map_append]
  congr 1
  · congr 1
    exact List.filter_congr fun p hp => by rw [hold p hp]
  · simp only [List.zipIdx_singleton, Nat.zero_add, List.filter_cons, List.filter_nil,
      List.take_left, decide_eq_true_eq]
    split <;> rfl

/-- **A cursor lets through the highs above its position.** -/
theorem fresh_eq_highs (c : Cursor) (xs : List α) : c.fresh key xs = highs key c.position xs := by
  -- From the end, because a record is weighed against all before it.
  induction xs using List.reverseRecOn with
  | nil => rfl
  | append_singleton xs x ih =>
    rw [fresh_append, highs_append_singleton, ih, fresh_cons]
    simp only [position_advanceAll_lt, List.forall_mem_map, fresh_nil, List.append_nil]

theorem position_lt_of_mem_fresh {c : Cursor} {xs : List α} {x : α} (h : x ∈ c.fresh key xs) :
    c.position < key x := by
  induction xs generalizing c with
  | nil => cases h
  | cons y ys ih =>
    rw [fresh_cons, List.mem_append] at h
    rcases h with h | h
    · split at h
      · obtain rfl := List.mem_singleton.1 h
        assumption
      · cases h
    · exact (position_advance_lt.1 (ih h)).1

/-- Nothing is let through iff nothing lies above the cursor. -/
theorem fresh_eq_nil_iff {c : Cursor} {xs : List α} :
    c.fresh key xs = [] ↔ ∀ x ∈ xs, key x ≤ c.position := by
  constructor
  · intro h x hx
    have hend : (c.advanceAll (xs.map key)).position = c.position := by
      rw [position_advanceAll, h]
      rfl
    exact hend ▸ c.le_position_advanceAll (List.mem_map_of_mem hx)
  · intro h
    rw [fresh_eq_highs]
    refine List.map_eq_nil_iff.2 (List.filter_eq_nil_iff.2 fun p hp => ?_)
    have hle := h p.1 (List.fst_mem_of_mem_zipIdx hp)
    simp [UInt64.not_lt.2 hle]

/-- A key lies above the cursor moved over some records iff it lies above the cursor and those let
through. -/
theorem position_advanceAll_lt_iff_fresh {c : Cursor} {xs : List α} {l : UInt64} :
    (c.advanceAll (xs.map key)).position < l ↔
      c.position < l ∧ ∀ x ∈ c.fresh key xs, key x < l := by
  induction xs generalizing c with
  | nil => simp
  | cons x xs ih =>
    rw [List.map_cons, advanceAll_cons, ih, position_advance_lt, fresh_cons]
    by_cases h : c.position < key x
    · simp [h, and_assoc]
    · have hx : c.position < l → key x < l := fun hl =>
        UInt64.lt_of_le_of_lt (UInt64.not_lt.1 h) hl
      simp only [h, if_false, List.nil_append]
      exact ⟨fun ⟨h1, h2⟩ => ⟨h1.1, h2⟩, fun ⟨h1, h2⟩ => ⟨⟨h1, hx h1⟩, h2⟩⟩

theorem pairwise_fresh (c : Cursor) (xs : List α) :
    (c.fresh key xs).Pairwise (key · < key ·) := by
  induction xs generalizing c with
  | nil => exact .nil
  | cons x xs ih =>
    rw [fresh_cons]
    split
    · refine .cons (fun y hy => ?_) (ih _)
      exact (position_advance_lt.1 (position_lt_of_mem_fresh hy)).2
    · exact ih _

/-- **Of records in ascending order those above the cursor are let through.** -/
theorem fresh_eq_filter (c : Cursor) {xs : List α} (h : xs.Pairwise (key · < key ·)) :
    c.fresh key xs = xs.filter (c.position < key ·) := by
  induction xs generalizing c with
  | nil => rfl
  | cons x xs ih =>
    obtain ⟨hx, hxs⟩ := List.pairwise_cons.1 h
    rw [fresh_cons, ih _ hxs, List.filter_cons]
    by_cases hc : c.position < key x
    · have hall : ∀ y ∈ xs, ((c.advance (key x)).position < key y ↔ c.position < key y) := by
        intro y hy
        rw [position_advance_lt]
        exact ⟨And.left, fun hy' => ⟨hy', hx y hy⟩⟩
      simp only [hc, decide_true, if_true, List.singleton_append, List.cons.injEq, true_and]
      exact List.filter_congr fun y hy => decide_eq_decide.2 (hall y hy)
    · simp [advance, accepts, hc]

/-! ## Logs in ascending order -/

section Logs

variable {log taken seen : List α} {tail : UInt64}

/-- The records of a longer front part of a log that lie above a shorter one complete it. -/
theorem append_newer (h : log.Pairwise (key · < key ·)) (ht : taken <+: seen) (hs : seen <+: log)
    (htail : ∀ x ∈ log, tail < key x ↔ ∀ y ∈ taken, key y < key x) :
    taken ++ seen.filter (tail < key ·) = seen := by
  obtain ⟨newer, rfl⟩ := ht
  have hold : ∀ x ∈ taken, ¬ tail < key x := fun x hx hlt =>
    UInt64.lt_irrefl _ ((htail x (hs.subset (List.mem_append_left _ hx))).1 hlt x hx)
  have hnewer : ∀ x ∈ newer, tail < key x := by
    intro x hx
    have hall := List.pairwise_append.1 (h.sublist hs.sublist)
    exact (htail x (hs.subset (List.mem_append_right _ hx))).2 fun y hy => hall.2.2 y hy x hx
  have hnone : taken.filter (tail < key ·) = [] :=
    List.filter_eq_nil_iff.2 fun x hx => by simpa using hold x hx
  have hall : newer.filter (tail < key ·) = newer :=
    List.filter_eq_self.2 fun x hx => by simpa using hnewer x hx
  rw [List.filter_append, hnone, hall, List.nil_append]

theorem append_stale (ht : taken <+: log) (hs : seen <+: taken)
    (htail : ∀ x ∈ log, tail < key x ↔ ∀ y ∈ taken, key y < key x) :
    taken ++ seen.filter (tail < key ·) = taken := by
  have hold : ∀ x ∈ seen, ¬ tail < key x := fun x hx hlt =>
    UInt64.lt_irrefl _ ((htail x (ht.subset (hs.subset hx))).1 hlt x (hs.subset hx))
  have hnone : seen.filter (tail < key ·) = [] :=
    List.filter_eq_nil_iff.2 fun x hx => by simpa using hold x hx
  rw [hnone, List.append_nil]

/-- **A front part of a log is caught up with any other one.** -/
theorem append_newer_prefix (h : log.Pairwise (key · < key ·)) (ht : taken <+: log)
    (hs : seen <+: log) (htail : ∀ x ∈ log, tail < key x ↔ ∀ y ∈ taken, key y < key x) :
    taken ++ seen.filter (tail < key ·) <+: log := by
  rcases List.prefix_or_prefix_of_prefix ht hs with hsub | hsub
  · rw [append_newer h hsub hs htail]
    exact hs
  · rw [append_stale ht hsub htail]
    exact ht

end Logs

/-- There are no more ascending keys than words from the least one on. -/
theorem length_le_of_ascending {xs : List α} (h : xs.Pairwise (key · < key ·)) {least : Nat}
    (hleast : least ≤ 2 ^ 64) (hall : ∀ x ∈ xs, least ≤ (key x).toNat) :
    least + xs.length ≤ 2 ^ 64 := by
  induction xs generalizing least with
  | nil => exact hleast
  | cons x xs ih =>
    obtain ⟨hx, hxs⟩ := List.pairwise_cons.1 h
    have hle := hall x List.mem_cons_self
    have := ih hxs (key x).toNat_lt fun y hy => UInt64.lt_iff_toNat_lt.1 (hx y hy)
    rw [List.length_cons]
    omega

end Cursor

end Vitals
