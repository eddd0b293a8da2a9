/-
  The table of intervals, and its column of timeouts.

  * `ServerMessage.decodes_stats_iff`: which lists of intervals are accepted from the wire. Nothing
    but their instants is judged.
  * `timeouts_eq_ok_iff`: a sum is exact or overflows.
  * `exists_statTable_iff`: a table is drawn unless a sum in it overflows.
  * `getElem?_lines_statTable`: each interval is one line of the table.
  * `flagged`: a number in red unless it is zero. `flagged_injective`: it can be read off the cell.
  * `timeouts_column`: the column shows the sums of both kinds of timeouts, if there is a table.
    `timeouts_column_overflow`: for intervals that are accepted there may be none.
-/
import Mathlib
import Vitals.Proofs.Reencoding
import Vitals.Proofs.Text.Table
import Vitals.Report.Tables

namespace Vitals

open Text

namespace ServerMessage

/-- **Which intervals are accepted**, in a response or in a pong: all whose instants are in order. -/
theorem decodes_stats_iff {stats : List Stat} :
    (∃ bytes clock, decode bytes = .ok (.stats ⟨clock, stats⟩) ∨
      decode bytes = .ok (.pong ⟨clock, stats⟩)) ↔
    stats.length < 2 ^ 64 ∧ ∀ s ∈ stats, s.Ordered := by
  have hfault : ∀ clock, (ServerMessage.stats ⟨clock, stats⟩).fault? = none ↔
      ∀ s ∈ stats, s.Ordered := by
    intro clock
    simp [fault?, List.find?_eq_none]
  constructor
  · rintro ⟨bytes, clock, h | h⟩
    all_goals
      have hread := read_of_decode h
      refine ⟨hread.bounded fun r hr => ?_, (hfault clock).1 hread.fault⟩
      cases hr
  · rintro ⟨hlength, hordered⟩
    refine ⟨(ServerMessage.stats ⟨0, stats⟩).encode, 0, .inl ?_⟩
    have hencode := decode_encode (m := .stats ⟨0, stats⟩) hlength
    rw [(hfault 0).2 hordered] at hencode
    exact hencode

end ServerMessage

namespace Report

variable {color : Bool} {s : Stat} {stats : List Stat} {t : Table} {n m : Nat}

/-! ## Cells of one line -/

theorem oneLine_padded (width n : Nat) : OneLine (Decimal.padded width n) := by
  refine OneLine.ofList fun h => ?_
  rcases List.mem_append.1 h with h | h
  · exact absurd (List.eq_of_mem_replicate h) (by decide)
  · exact newline_notMem_toDigits n h

theorem oneLine_dateText (t : CivilTime) : OneLine t.dateText := by
  have hyear : OneLine t.yearText := by
    unfold CivilTime.yearText
    split
    · exact oneLine_padded _ _
    · exact .append (by decide) (.ofNat _)
  have hmonth := (hyear.append (by decide : OneLine "-")).append (oneLine_padded 2 t.month)
  exact (hmonth.append (by decide : OneLine "-")).append (oneLine_padded 2 t.day)

theorem oneLine_clockText (t : CivilTime) : OneLine t.clockText := by
  have hminute := ((oneLine_padded 2 t.hour).append (by decide : OneLine ":")).append
    (oneLine_padded 2 t.minute)
  exact (hminute.append (by decide : OneLine ":")).append (oneLine_padded 2 t.second)

theorem oneLine_instant (millis : UInt64) : OneLine (instant millis) := by
  unfold instant
  split
  · exact ((oneLine_dateText _).append (by decide : OneLine " ")).append (oneLine_clockText _)
  · exact .ofNat _

theorem oneLine_fixed (places : Nat) (x : Binary64) : OneLine (Decimal.fixed places x) := by
  unfold Decimal.fixed
  dsimp only
  split
  · exact .ofNat _
  · exact (OneLine.append (.ofNat _) (by decide)).append (oneLine_padded _ _)

theorem oneLine_byteSize (bytes : UInt64) : OneLine (byteSize bytes) := by
  have hunit : ∀ u : SizeUnit, OneLine u.symbol := by
    intro u
    cases u <;> decide
  unfold byteSize
  dsimp only
  split
  · exact (OneLine.append (.ofNat _) (by decide)).append (hunit _)
  · exact (OneLine.append (oneLine_fixed _ _) (by decide)).append (hunit _)

theorem oneLine_micros (n : UInt64) : OneLine (micros n) := .append (.ofNat _) (by decide)

theorem paint_true (style : Style) (text : String) : style.paint true text =
    s!"{Style.escape}[{style.code}m" ++ text ++ s!"{Style.escape}[0m" :=
  String.append_assoc

theorem oneLine_paint (color : Bool) (style : Style) {text : String} (h : OneLine text) :
    OneLine (style.paint color text) := by
  cases color with
  | false => exact h
  | true =>
    have hset : OneLine s!"{Style.escape}[{style.code}m" := by cases style <;> decide
    have hreset : OneLine s!"{Style.escape}[0m" := by decide
    rw [paint_true]
    exact (hset.append h).append hreset

theorem oneLine_timeoutCell (color : Bool) (timeouts : UInt64) :
    OneLine (timeoutCell color timeouts) := by
  unfold timeoutCell
  dsimp only
  split
  · exact oneLine_paint color .red (.ofNat _)
  · exact .ofNat _

/-! ## Sums of timeouts -/

/-- The timeouts of an interval, of both kinds, as a number. -/
def timeoutSum (s : Stat) : Nat := s.connectTimeouts.toNat + s.readTimeouts.toNat

/-- **A sum is exact or overflows.** -/
theorem timeouts_eq_ok_iff {timeouts : UInt64} :
    Report.timeouts s = .ok timeouts ↔ timeouts.toNat = timeoutSum s := by
  unfold Report.timeouts timeoutSum
  dsimp only
  split
  · next hsum =>
    rw [Except.ok.injEq, ← UInt64.toNat_inj, UInt64.toNat_ofNat_of_lt' hsum]
    exact eq_comm
  · next hsum =>
    have := timeouts.toNat_lt_size
    exact iff_of_false nofun (by omega)

theorem timeouts_of_lt (h : timeoutSum s < 2 ^ 64) :
    Report.timeouts s = .ok (UInt64.ofNat (timeoutSum s)) :=
  timeouts_eq_ok_iff.2 (UInt64.toNat_ofNat_of_lt' h)

/-- A number in red, unless it is zero. -/
def flagged (color : Bool) (n : Nat) : String :=
  if n = 0 then toString n else Style.red.paint color (toString n)

theorem timeoutCell_eq (color : Bool) (timeouts : UInt64) :
    timeoutCell color timeouts = flagged color timeouts.toNat := by
  have hpos : 0 < timeouts ↔ ¬ timeouts.toNat = 0 := by
    rw [UInt64.lt_iff_toNat_lt]
    exact Nat.pos_iff_ne_zero
  unfold timeoutCell flagged
  by_cases h : timeouts.toNat = 0 <;> simp [hpos, h]

/-! ## Rows -/

/-- What the row of an interval is, if there is one. -/
structure IsRow (color : Bool) (s : Stat) (row : List String) : Prop where
  sum : timeoutSum s < 2 ^ 64
  cell : row[6]? = some (flagged color (timeoutSum s))
  cells : row ≠ [] ∧ ∀ cell ∈ row, OneLine cell

theorem isRow_of_statRow {row : List String} (h : statRow color s = .ok row) :
    IsRow color s row := by
  unfold statRow at h
  cases hsum : Report.timeouts s with
  | error e =>
    rw [hsum] at h
    cases h
  | ok timeouts =>
    rw [hsum] at h
    obtain rfl := Except.ok.inj h
    have hexact := timeouts_eq_ok_iff.1 hsum
    refine ⟨hexact ▸ timeouts.toNat_lt, ?_, List.cons_ne_nil _ _, ?_⟩
    · rw [← hexact, ← timeoutCell_eq]
      rfl
    · simp only [List.forall_mem_cons]
      exact ⟨oneLine_instant _, .ofNat _, oneLine_micros _, .ofNat _, .ofNat _, .ofNat _,
        oneLine_timeoutCell color timeouts, .ofNat _, oneLine_byteSize _, by simp⟩

theorem exists_statRow (color : Bool) (h : timeoutSum s < 2 ^ 64) :
    ∃ row, statRow color s = .ok row := by
  unfold statRow
  rw [timeouts_of_lt h]
  exact ⟨_, rfl⟩

/-- Rows that are all there are made one by one. -/
theorem forall₂_of_mapM {rows : List (List String)} (h : stats.mapM (statRow color) = .ok rows) :
    List.Forall₂ (fun s row => statRow color s = .ok row) stats rows := by
  induction stats generalizing rows with
  | nil =>
    cases h
    exact .nil
  | cons s stats ih =>
    rw [List.mapM_cons] at h
    cases hrow : statRow color s with
    | error e =>
      rw [hrow] at h
      cases h
    | ok row =>
      rw [hrow] at h
      cases hrest : stats.mapM (statRow color) with
      | error e =>
        rw [hrest] at h
        cases h
      | ok rest =>
        rw [hrest] at h
        obtain rfl := Except.ok.inj h
        exact .cons hrow (ih hrest)

theorem exists_mapM (color : Bool) (h : ∀ s ∈ stats, timeoutSum s < 2 ^ 64) :
    ∃ rows, stats.mapM (statRow color) = .ok rows := by
  induction stats with
  | nil => exact ⟨[], rfl⟩
  | cons s stats ih =>
    obtain ⟨hs, hstats⟩ := List.forall_mem_cons.1 h
    obtain ⟨row, hrow⟩ := exists_statRow color hs
    obtain ⟨rest, hrest⟩ := ih hstats
    rw [List.mapM_cons, hrow, hrest]
    exact ⟨row :: rest, rfl⟩

/-! ## The table -/

/-- The rows of a table of intervals. -/
theorem rows_of_statTable (h : statTable color stats = .ok t) :
    t.header = statHeader ∧
      List.Forall₂ (fun s row => statRow color s = .ok row) stats t.rows := by
  unfold statTable at h
  cases hrows : stats.mapM (statRow color) with
  | error e =>
    rw [hrows] at h
    cases h
  | ok rows =>
    rw [hrows] at h
    obtain rfl := Except.ok.inj h
    exact ⟨rfl, forall₂_of_mapM hrows⟩

/-- **A table is drawn unless a sum in it overflows.** -/
theorem exists_statTable_iff (color : Bool) :
    (∃ t, statTable color stats = .ok t) ↔ ∀ s ∈ stats, timeoutSum s < 2 ^ 64 := by
  constructor
  · rintro ⟨t, h⟩ s hs
    obtain ⟨-, hrows⟩ := rows_of_statTable h
    obtain ⟨i, hi, rfl⟩ := List.getElem_of_mem hs
    exact (isRow_of_statRow (hrows.get hi (hrows.length_eq ▸ hi))).sum
  · intro h
    obtain ⟨rows, hrows⟩ := exists_mapM color h
    unfold statTable
    rw [hrows]
    exact ⟨_, rfl⟩

theorem statTable_eq_error_iff (color : Bool) :
    statTable color stats = .error .timeouts ↔ ∃ s ∈ stats, 2 ^ 64 ≤ timeoutSum s := by
  have hsome : (∃ t, statTable color stats = .ok t) ↔ _ := exists_statTable_iff color
  constructor
  · intro h
    by_contra hno
    simp only [not_exists, not_and, Nat.not_le] at hno
    obtain ⟨t, ht⟩ := hsome.2 hno
    cases h.symm.trans ht
  · rintro ⟨s, hs, hsum⟩
    cases h : statTable color stats with
    | ok t => exact absurd (hsome.1 ⟨t, h⟩ s hs) (Nat.not_lt.2 hsum)
    | error e =>
      cases e
      rfl

/-- **Each interval is one line of the table.** -/
theorem getElem?_lines_statTable (h : statTable color stats = .ok t) {i : Nat}
    (hs : stats[i]? = some s) : ∃ row, t.rows[i]? = some row ∧ IsRow color s row ∧
      t.lines[2 * i + 3]? = some (Table.drawLine t.columnWidths row) := by
  obtain ⟨hheader, hrows⟩ := rows_of_statTable h
  obtain ⟨hi, rfl⟩ := List.getElem?_eq_some_iff.1 hs
  have hi' : i < t.rows.length := hrows.length_eq ▸ hi
  have hrow : t.rows[i]? = some t.rows[i] := List.getElem?_eq_getElem hi'
  have honeLine : ∀ cell ∈ t.header, OneLine cell := by
    rw [hheader]
    decide
  refine ⟨_, hrow, isRow_of_statRow (hrows.get hi hi'), Table.getElem?_lines ⟨?_, honeLine⟩
    (fun row hmem => ?_) hrow⟩
  · rw [hheader]
    exact List.cons_ne_nil _ _
  · obtain ⟨j, hj, rfl⟩ := List.getElem_of_mem hmem
    exact (isRow_of_statRow (hrows.get (hrows.length_eq ▸ hj) hj)).cells

/-! ## Numbers read off a cell -/

theorem paint_ne_zero (style : Style) (n : Nat) : style.paint true (toString n) ≠ toString 0 := by
  intro h
  have hlength := congrArg String.length h
  rw [paint_true, String.length_append, String.length_append] at hlength
  have : (toString 0).length = 1 := rfl
  have : s!"{Style.escape}[0m".length = 4 := rfl
  omega

theorem flagged_injective (h : flagged color n = flagged color m) : n = m := by
  cases color with
  | false =>
    simp only [flagged, Style.paint, Bool.false_eq_true, if_false, ite_self] at h
    exact Nat.repr_inj.1 h
  | true =>
    unfold flagged at h
    split at h <;> split at h
    · next hn hm => exact hn.trans hm.symm
    · next hn hm => exact absurd (hn ▸ h.symm) (paint_ne_zero _ _)
    · next hn hm => exact absurd (hm ▸ h) (paint_ne_zero _ _)
    · rw [paint_true, paint_true] at h
      exact Nat.repr_inj.1 (String.append_right_inj _ |>.1 (String.append_left_inj _ |>.1 h))

end Report

open Report

/-- **The column of timeouts shows their sums, if there is a table at all.** Nothing about the
numbers of timeouts is judged when intervals are accepted. Their table is drawn exactly if every sum
of timeouts of both kinds is less than `2 ^ 64`, and overflows otherwise. Then each interval has a
line of its own in the table, whose seventh cell is that sum, in red unless it is zero. -/
theorem timeouts_column (color : Bool) (stats : List Stat) :
    ((∃ bytes clock, ServerMessage.decode bytes = .ok (.stats ⟨clock, stats⟩) ∨
        ServerMessage.decode bytes = .ok (.pong ⟨clock, stats⟩)) ↔
      stats.length < 2 ^ 64 ∧ ∀ s ∈ stats, s.Ordered) ∧
    ((∃ t, statTable color stats = .ok t) ↔
      ∀ s ∈ stats, s.connectTimeouts.toNat + s.readTimeouts.toNat < 2 ^ 64) ∧
    (statTable color stats = .error .timeouts ↔
      ∃ s ∈ stats, 2 ^ 64 ≤ s.connectTimeouts.toNat + s.readTimeouts.toNat) ∧
    ∀ t, statTable color stats = .ok t →
      t.header[6]? = some "Timeouts" ∧ t.rows.length = stats.length ∧
      ∀ (i : Nat) (s : Stat), stats[i]? = some s → ∃ row, t.rows[i]? = some row ∧
        t.lines[2 * i + 3]? = some (Table.drawLine t.columnWidths row) ∧
        row[6]? = some (flagged color (s.connectTimeouts.toNat + s.readTimeouts.toNat)) ∧
        ∀ n, row[6]? = some (flagged color n) →
          n = s.connectTimeouts.toNat + s.readTimeouts.toNat := by
  refine ⟨ServerMessage.decodes_stats_iff, exists_statTable_iff color,
    statTable_eq_error_iff color, fun t ht => ?_⟩
  obtain ⟨hheader, hrows⟩ := rows_of_statTable ht
  refine ⟨by rw [hheader]; rfl, hrows.length_eq.symm, fun i s hs => ?_⟩
  obtain ⟨row, hrow, hrowOf, hline⟩ := getElem?_lines_statTable ht hs
  refine ⟨row, hrow, hline, hrowOf.cell, fun n hn => ?_⟩
  exact flagged_injective (Option.some.inj (hn.symm.trans hrowOf.cell))

/-- The line of the second of two intervals, with five timeouts in all. -/
theorem timeouts_column_red :
    let s : Stat := { (default : Stat) with connectTimeouts := 2, readTimeouts := 3 }
    ∃ t, statTable true [default, s] = .ok t ∧
      ∃ row, t.lines[5]? = some (Table.drawLine t.columnWidths row) ∧
        row[6]? = some "\x1b[31m5\x1b[0m" := by
  intro s
  obtain ⟨-, hdrawn, -, hshown⟩ := timeouts_column true [default, s]
  obtain ⟨t, ht⟩ := hdrawn.2 (by decide)
  obtain ⟨-, -, hlines⟩ := hshown t ht
  obtain ⟨row, -, hline, hcell, -⟩ := hlines 1 s rfl
  exact ⟨t, ht, row, hline, hcell.trans (by decide)⟩

/-- An interval that is accepted, whose timeouts are one more than a word can hold. There is no
table of it. -/
theorem timeouts_column_overflow :
    let s : Stat :=
      { (default : Stat) with connectTimeouts := 18446744073709551615, readTimeouts := 1 }
    ServerMessage.decode (ServerMessage.stats ⟨0, [s]⟩).encode = .ok (.stats ⟨0, [s]⟩) ∧
      s.connectTimeouts.toNat + s.readTimeouts.toNat = 18446744073709551616 ∧
      ∀ color, statTable color [s] = .error .timeouts := by
  intro s
  have hbounded : (ServerMessage.stats ⟨0, [s]⟩).Bounded := show 1 < 2 ^ 64 by decide
  have hfault : (ServerMessage.stats ⟨0, [s]⟩).fault? = none := by decide
  have hdecode := ServerMessage.decode_encode hbounded
  rw [hfault] at hdecode
  have hsum : timeoutSum s = 18446744073709551616 := rfl
  refine ⟨hdecode, hsum, fun color => (statTable_eq_error_iff color).2 ⟨s, ?_, ?_⟩⟩
  · exact List.mem_singleton_self s
  · exact hsum.ge

end Vitals
