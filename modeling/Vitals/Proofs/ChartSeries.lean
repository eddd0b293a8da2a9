/-
  Charts, series by series and point by point.

  * `ChartSeries.Aligned`: every series has one entry for each point, made of that point alone, the
    last point first.
  * `ChartSeries.ofPoints_append`: the points behind come in front, in every series.
  * `ChartPoint.Measured`: the entries of a point. No division is by zero, and each comes to the
    exact quotient up to the roundings on the way to it.
  * `chart_alignment`: so it is for all points.
-/
import Vitals.ChartSeries
import Vitals.Proofs.Decimal.Binary64

namespace Vitals

/-! ## The entries of a point -/

namespace ChartPoint

open Binary64

/-- The seconds from the start of a bucket to its end. -/
def span (p : ChartPoint) : ℚ := ((p.stop.toNat : ℚ) - p.start.toNat) / 1000

/-- What the entries of a point are. `Divided` says that a division is made and not by zero, and
`Close` how many roundings away from the exact quotient its result is at most. -/
structure Measured (p : ChartPoint) : Prop where
  dated : p.stop.toNat ≤ Calendar.lastMillis → p.label = p.stop
  undated : Calendar.lastMillis < p.stop.toNat → p.label = 0
  seconds : p.seconds.Divided (ofNat p.millis) (ofNat 1000)
  idle : p.stop ≤ p.start → ∀ count, p.rate count = zero
  rate : p.start < p.stop → ∀ count, (p.rate count).Divided (ofNat count.toNat) p.seconds ∧
    (p.rate count).Close 6 (count.toNat / p.span)
  unasked : p.requests = 0 → p.avgLatency = zero
  latency : p.requests ≠ 0 →
    p.avgLatency.Divided (ofNat p.latencySumMicros.toNat) (ofNat p.requests.toNat) ∧
      p.avgLatency.Close 4 (p.latencySumMicros.toNat / p.requests.toNat)
  memory : p.memoryMib.Divided (ofNat p.memoryBytes.toNat) (ofNat (2 ^ 20)) ∧
    p.memoryMib.Close 1 (p.memoryBytes.toNat / 2 ^ 20)

variable {p : ChartPoint}

theorem ofNat_pos {n : Nat} (h : 0 < n) : 0 < (Binary64.ofNat n).toRat :=
  (rounds_ofNat n).pos (Nat.cast_pos.2 h)

theorem ofNat_close (n : Nat) : (Binary64.ofNat n).Close 1 n :=
  (rounds_ofNat n).close (Nat.cast_nonneg n)

theorem millis_eq_zero_iff : p.millis = 0 ↔ p.stop ≤ p.start := by
  rw [millis, UInt64.le_iff_toNat_le]
  omega

theorem millis_eq_span (h : p.start < p.stop) : (p.millis : ℚ) / 1000 = p.span := by
  have hle : p.start.toNat ≤ p.stop.toNat := (UInt64.lt_iff_toNat_lt.1 h).le
  rw [millis, span, Nat.cast_sub hle]

/-- The seconds of a bucket are above zero iff it lasts any time: rounding does not lose the
shortest one. -/
theorem seconds_pos_iff : 0 < p.seconds.toRat ↔ p.start < p.stop := by
  have hrounds := rounds_div (Binary64.ofNat p.millis) (ofNat_pos (n := 1000) (by omega))
  rw [← UInt64.not_le, ← millis_eq_zero_iff]
  constructor
  · intro hpos hzero
    have hnone : (Binary64.ofNat p.millis).toRat = 0 := by
      rw [hzero, toRat_ofNat (by norm_num), Nat.cast_zero]
    rw [hnone, zero_div] at hrounds
    have := hrounds.exact ⟨zero, Or.inl rfl, toRat_zero⟩
    rw [seconds] at hpos
    exact hpos.ne' this
  · intro hne
    exact hrounds.pos (div_pos (ofNat_pos (Nat.pos_of_ne_zero hne)) (ofNat_pos (by omega)))

theorem seconds_close (h : p.start < p.stop) : p.seconds.Close 3 p.span := by
  have hthousand : (Binary64.ofNat 1000).Close 0 1000 :=
    close_of_eq (by rw [toRat_ofNat (by norm_num), Nat.cast_ofNat])
  have hclose := (ofNat_close p.millis).div hthousand (Nat.cast_nonneg _) (by norm_num)
    (by norm_num)
  rwa [millis_eq_span h] at hclose

theorem rate_of_idle (h : p.stop ≤ p.start) (count : UInt64) : p.rate count = .zero := by
  have : ¬ p.seconds.positive = true := by
    rw [positive_iff, seconds_pos_iff, UInt64.not_lt]
    exact h
  rw [rate, if_neg this]

theorem rate_of_lt (h : p.start < p.stop) (count : UInt64) :
    p.rate count = (Binary64.ofNat count.toNat).div p.seconds := by
  have : p.seconds.positive = true := positive_iff.2 (seconds_pos_iff.2 h)
  rw [rate, if_pos this]

theorem span_pos (h : p.start < p.stop) : 0 < p.span := by
  have : p.millis ≠ 0 := by
    rw [Ne, millis_eq_zero_iff, UInt64.not_le]
    exact h
  rw [← millis_eq_span h]
  positivity

theorem rate_close (h : p.start < p.stop) (count : UInt64) :
    (p.rate count).Close 6 (count.toNat / p.span) := by
  have hclose := (ofNat_close count.toNat).div (seconds_close h) (Nat.cast_nonneg _) (span_pos h)
    (by norm_num)
  rwa [rate_of_lt h]

theorem requests_toNat_pos (h : p.requests ≠ 0) : 0 < p.requests.toNat :=
  Nat.pos_of_ne_zero fun hzero => h (UInt64.toNat_inj.1 hzero)

theorem avgLatency_close (h : p.requests ≠ 0) :
    p.avgLatency.Close 4 (p.latencySumMicros.toNat / p.requests.toNat) := by
  have hclose := (ofNat_close p.latencySumMicros.toNat).div (ofNat_close p.requests.toNat)
    (Nat.cast_nonneg _) (Nat.cast_pos.2 (requests_toNat_pos h)) (by norm_num)
  rwa [avgLatency, if_neg h]

/-- Division by a power of two brings no rounding of its own. -/
theorem memoryMib_close (p : ChartPoint) : p.memoryMib.Close 1 (p.memoryBytes.toNat / 2 ^ 20) := by
  have hbytes := ofNat_close p.memoryBytes.toNat
  unfold Close at hbytes ⊢
  rw [memoryMib, natPow_eq, toRat_div_two_pow (rounds_ofNat _).normal (by norm_num), ← sub_div,
    abs_div, abs_of_pos (by norm_num : (0 : ℚ) < 2 ^ 20), div_le_iff₀ (by norm_num)]
  linarith

theorem measured (p : ChartPoint) : p.Measured where
  dated h := if_pos (decide_eq_true h)
  undated h := if_neg fun hdate => absurd (of_decide_eq_true hdate) (Nat.not_le.2 h)
  seconds := ⟨ofNat_pos (by norm_num), rfl⟩
  idle h := rate_of_idle h
  rate h count := ⟨⟨seconds_pos_iff.2 h, rate_of_lt h count⟩, rate_close h count⟩
  unasked h := if_pos h
  latency h := ⟨⟨ofNat_pos (requests_toNat_pos h), if_neg h⟩, avgLatency_close h⟩
  memory := ⟨⟨ofNat_pos (by norm_num), rfl⟩, p.memoryMib_close⟩

end ChartPoint

/-! ## The series of some points -/

namespace ChartSeries

/-- A series has one entry for each point, made of that point alone, the last point first. -/
def InStep {α : Type} (series : List α) (points : List ChartPoint) (entry : ChartPoint → α) :
    Prop :=
  series.length = points.length ∧ ∀ i (hi : i < points.length),
    series[i]? = some (entry points[points.length - 1 - i])

/-- All five series are in step with some points. -/
structure Aligned (s : ChartSeries) (points : List ChartPoint) : Prop where
  labels : InStep s.labels points ChartPoint.label
  requestsPerSec : InStep s.requestsPerSec points fun p => p.rate p.requests
  connectsPerSec : InStep s.connectsPerSec points fun p => p.rate p.connects
  avgLatencyMicros : InStep s.avgLatencyMicros points ChartPoint.avgLatency
  memoryMib : InStep s.memoryMib points ChartPoint.memoryMib

/-- One chart in front of another, in every series. -/
instance : Append ChartSeries where
  append s t :=
    { labels := s.labels ++ t.labels
      requestsPerSec := s.requestsPerSec ++ t.requestsPerSec
      connectsPerSec := s.connectsPerSec ++ t.connectsPerSec
      avgLatencyMicros := s.avgLatencyMicros ++ t.avgLatencyMicros
      memoryMib := s.memoryMib ++ t.memoryMib }

theorem inStep_reverse {α : Type} (points : List ChartPoint) (entry : ChartPoint → α) :
    InStep (points.reverse.map entry) points entry := by
  refine ⟨by simp, fun i hi => ?_⟩
  have hlast : points.length - 1 - i < points.length := by omega
  rw [List.getElem?_map, List.getElem?_reverse hi, List.getElem?_eq_getElem hlast, Option.map_some]

theorem aligned_ofPoints (points : List ChartPoint) : (ofPoints points).Aligned points where
  labels := inStep_reverse points _
  requestsPerSec := inStep_reverse points _
  connectsPerSec := inStep_reverse points _
  avgLatencyMicros := inStep_reverse points _
  memoryMib := inStep_reverse points _

/-- The points behind come in front. -/
theorem ofPoints_append (xs ys : List ChartPoint) :
    ofPoints (xs ++ ys) = ofPoints ys ++ ofPoints xs := by
  show _ = ChartSeries.mk _ _ _ _ _
  simp [ofPoints]

end ChartSeries

/-- **The series of a chart stay in step, and nothing in them is divided by zero.** All five have
one entry for each point, made of that point alone, the last point first; so the points behind come
in front. A rate is zero for a bucket that does not last any time, and otherwise the count divided
by the seconds that it lasts; the mean latency is zero without requests; a bucket that ends beyond
all dates is labelled with the start of 1970. -/
theorem chart_alignment :
    (∀ points, (ChartSeries.ofPoints points).Aligned points) ∧
    (∀ xs ys, ChartSeries.ofPoints (xs ++ ys) =
      ChartSeries.ofPoints ys ++ ChartSeries.ofPoints xs) ∧
    ∀ p : ChartPoint, p.Measured :=
  ⟨ChartSeries.aligned_ofPoints, ChartSeries.ofPoints_append, ChartPoint.measured⟩

end Vitals
