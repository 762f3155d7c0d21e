/-
# `Waybeam.Telemetry.Trend` — the trend features, on the air unit and in training

A tree is trained on eleven numbers a record, six of which look back over the last ten records.  In
training they come from a bounded deque, on the air unit from a ring of as many slots:

    sums              rssi, lost, uniq, fec, dropouts, oldest first
    slope             least squares over 0 .. n-1; 0 where there is no spread
    since the loss    counts up to 200

Ring and deque hold the same records, oldest first, and so the features agree, record by record and
without end (`trend_agrees`).
-/
import Waybeam.Machine
import Waybeam.Ring
import Mathlib.Algebra.BigOperators.Group.List.Basic
import Mathlib.Algebra.Order.BigOperators.Group.List
import Mathlib.Algebra.Order.Field.Rat
import Mathlib.Tactic.Linarith

namespace Waybeam.Telemetry

/-- `reduced_features` of a record. -/
structure Reduced where
  rssi : ℚ
  pktAll : ℚ
  pktLost : ℚ
  pktFecRecovered : ℚ
  pktUniq : ℚ
  all_nonneg : 0 ≤ pktAll
  lost_nonneg : 0 ≤ pktLost
  fec_nonneg : 0 ≤ pktFecRecovered
  uniq_nonneg : 0 ≤ pktUniq

/-- What is kept of a record. -/
structure Slot where
  rssi : ℚ
  lost : ℚ
  uniq : ℚ
  fec : ℚ
  drop : ℚ

/-- `FULL_FEATURES` -/
inductive Feature where
  | rssi
  | pktAll
  | pktLost
  | pktFecRecovered
  | pktUniq
  | rssiSlope
  | rssiMean
  | lossRate
  | fecRate
  | timeSinceLoss
  | dropoutFrac
  deriving DecidableEq

def FULL_FEATURES : List Feature :=
  [.rssi, .pktAll, .pktLost, .pktFecRecovered, .pktUniq,
    .rssiSlope, .rssiMean, .lossRate, .fecRate, .timeSinceLoss, .dropoutFrac]

/-! ## The ring of the air unit -/

/-- `TIER1_TREND_WINDOW` -/
def trendWindow : ℕ := 10

/-- `TIER1_TREND_SINCE_CAP` -/
def trendSinceCap : ℚ := 200

/-- `t1_trend`, its five arrays as one. -/
structure T1Trend where
  ring : Ring trendWindow Slot
  sinceLoss : ℚ

/-- `t1_trend_init` -/
def T1Trend.init : T1Trend where
  ring := Ring.empty trendWindow (by decide) ⟨0, 0, 0, 0, 0⟩
  sinceLoss := trendSinceCap

/-- A loop over the ring, oldest to newest. -/
def T1Trend.loop (t : T1Trend) (term : ℕ → Slot → ℚ) : ℚ :=
  (List.range t.ring.count).foldl (fun acc k => acc + term k (t.ring.oldest k)) 0

/-- `t1_trend_push`: the new state, and `out`. -/
def t1TrendPush (t : T1Trend) (r : Reduced) : T1Trend × List ℚ :=
  let dropout : ℚ := if r.pktAll = 0 then 1 else 0
  let sinceLoss :=
    if 0 < r.pktLost ∨ dropout ≠ 0 then 0
    else if t.sinceLoss + 1 < trendSinceCap then t.sinceLoss + 1
    else trendSinceCap
  let ring := t.ring.push ⟨r.rssi, r.pktLost, r.pktUniq, r.pktFecRecovered, dropout⟩
  let t : T1Trend := { ring, sinceLoss }
  let n : ℚ := t.ring.count
  let rsum := t.loop fun _ x => x.rssi
  let lsum := t.loop fun _ x => x.lost
  let usum := t.loop fun _ x => x.uniq
  let fsum := t.loop fun _ x => x.fec
  let dsum := t.loop fun _ x => x.drop
  let ybar := rsum / n
  let xbar := (n - 1) / 2
  let num := t.loop fun k x => (k - xbar) * (x.rssi - ybar)
  let den := t.loop fun k _ => (k - xbar) * (k - xbar)
  let slope := if den ≠ 0 then num / den else 0
  (t, [r.rssi, r.pktAll, r.pktLost, r.pktFecRecovered, r.pktUniq, slope, rsum / n,
    if 0 < lsum + usum then lsum / (lsum + usum) else 0, fsum / (usum + 1), t.sinceLoss, dsum / n])

/-! ## The deque of the trainer -/

/-- `_slope` -/
def leastSquaresSlope (ys : List ℚ) : ℚ :=
  let n := ys.length
  if n < 2 then 0
  else
    let xbar : ℚ := ((n : ℚ) - 1) / 2
    let ybar := ys.sum / n
    let num := (ys.zipIdx.map fun (y, i) => ((i : ℚ) - xbar) * (y - ybar)).sum
    let den := ((List.range n).map fun i : ℕ => ((i : ℚ) - xbar) ^ 2).sum
    if den ≠ 0 then num / den else 0

/-- `TrendState` -/
structure TrendState where
  window : ℕ := 20
  sinceCap : ℚ := 200
  buf : List Slot := []
  sinceLoss : ℚ := sinceCap

/-- `deque.append` under `maxlen`: the oldest make room. -/
def dequeAppend {α : Type} (maxlen : ℕ) (buf : List α) (x : α) : List α :=
  (buf ++ [x]).drop ((buf ++ [x]).length - maxlen)

/-- `TrendState.push`: the new state, and the features by name. -/
def TrendState.push (t : TrendState) (r : Reduced) : TrendState × (Feature → ℚ) :=
  let dropout : ℚ := if r.pktAll = 0 then 1 else 0
  let sinceLoss := if 0 < r.pktLost ∨ dropout ≠ 0 then 0 else min t.sinceCap (t.sinceLoss + 1)
  let buf := dequeAppend t.window t.buf ⟨r.rssi, r.pktLost, r.pktUniq, r.pktFecRecovered, dropout⟩
  let rssis := buf.map (·.rssi)
  let lostSum := (buf.map (·.lost)).sum
  let uniqSum := (buf.map (·.uniq)).sum
  let fecSum := (buf.map (·.fec)).sum
  let dropSum := (buf.map (·.drop)).sum
  let n : ℚ := buf.length
  ({ t with buf, sinceLoss }, fun
    | .rssi => r.rssi
    | .pktAll => r.pktAll
    | .pktLost => r.pktLost
    | .pktFecRecovered => r.pktFecRecovered
    | .pktUniq => r.pktUniq
    | .rssiSlope => leastSquaresSlope rssis
    | .rssiMean => rssis.sum / n
    | .lossRate => if lostSum + uniqSum ≠ 0 then lostSum / (lostSum + uniqSum) else 0
    | .fecRate => fecSum / (uniqSum + 1)
    | .timeSinceLoss => sinceLoss
    | .dropoutFrac => dropSum / n)

/-! ## They agree -/

/-- The vectors of the air unit. -/
def t1Machine : Machine T1Trend Reduced (List ℚ) where
  step t r := ((t1TrendPush t r).1, [(t1TrendPush t r).2])

/-- The vectors of the trainer. -/
def trendMachine : Machine TrendState Reduced (List ℚ) where
  step t r := ((t.push r).1, [FULL_FEATURES.map (t.push r).2])

/-- The ring holds what the deque does, and counts as it does. -/
structure Mirrors (t : T1Trend) (p : TrendState) : Prop where
  window : p.window = trendWindow
  sinceCap : p.sinceCap = trendSinceCap
  buf : t.ring.toList.reverse = p.buf
  sinceLoss : t.sinceLoss = p.sinceLoss
  lost_nonneg : ∀ x ∈ p.buf, 0 ≤ x.lost
  uniq_nonneg : ∀ x ∈ p.buf, 0 ≤ x.uniq

theorem mirrors_init : Mirrors T1Trend.init { window := trendWindow } where
  window := rfl
  sinceCap := rfl
  buf := rfl
  sinceLoss := rfl
  lost_nonneg := by intro x hx; cases hx
  uniq_nonneg := by intro x hx; cases hx

theorem foldl_add (l : List ℕ) (g : ℕ → ℚ) (acc : ℚ) :
    l.foldl (fun acc k => acc + g k) acc = acc + (l.map g).sum := by
  induction l generalizing acc with
  | nil => simp
  | cons k l ih => rw [List.foldl_cons, ih, List.map_cons, List.sum_cons, add_assoc]

/-- A loop over the ring is a sum over the entries, by their place. -/
theorem loop_eq {t : T1Trend} {buf : List Slot} (h : t.ring.toList.reverse = buf)
    (term : ℕ → Slot → ℚ) : t.loop term = (buf.zipIdx.map fun (x, k) => term k x).sum := by
  have hbuf : buf = (List.range t.ring.count).map t.ring.oldest := h.symm.trans t.ring.map_oldest.symm
  have hpairs : buf.zipIdx.map (fun (x, k) => term k x) =
      (List.range t.ring.count).map fun k => term k (t.ring.oldest k) := by
    rw [hbuf]
    refine List.ext_getElem ?_ ?_
    · simp
    · intro k hk hk'
      simp
  rw [T1Trend.loop, foldl_add, zero_add, hpairs]

theorem loop_sum {t : T1Trend} {buf : List Slot} (h : t.ring.toList.reverse = buf) (f : Slot → ℚ) :
    t.loop (fun _ x => f x) = (buf.map f).sum := by
  have hfst : buf.zipIdx.map (fun (x, _) => f x) = (buf.zipIdx.map Prod.fst).map f := by
    rw [List.map_map]
    rfl
  rw [loop_eq h, hfst, List.zipIdx_map_fst]

/-- The slope, whether or not the short windows are told apart. -/
theorem slope_eq {t : T1Trend} {buf : List Slot} (h : t.ring.toList.reverse = buf)
    (hpos : 0 < t.ring.count) :
    (let n : ℚ := t.ring.count
      let xbar := (n - 1) / 2
      let num := t.loop fun k x => (k - xbar) * (x.rssi - (buf.map (·.rssi)).sum / n)
      let den := t.loop fun k _ => (k - xbar) * (k - xbar)
      if den ≠ 0 then num / den else 0) = leastSquaresSlope (buf.map (·.rssi)) := by
  have hlen : (buf.map (·.rssi)).length = t.ring.count := by
    rw [List.length_map, ← h, ← t.ring.map_oldest]
    simp
  have hden : ∀ xbar : ℚ, t.loop (fun k _ => (k - xbar) * (k - xbar)) =
      ((List.range t.ring.count).map fun i : ℕ => ((i : ℚ) - xbar) ^ 2).sum := by
    intro xbar
    rw [T1Trend.loop, foldl_add, zero_add]
    simp only [pow_two]
  have hnum : ∀ xbar ybar : ℚ, t.loop (fun k x => (k - xbar) * (x.rssi - ybar)) =
      ((buf.map (·.rssi)).zipIdx.map fun (y, i) => ((i : ℚ) - xbar) * (y - ybar)).sum := by
    intro xbar ybar
    rw [loop_eq h, List.zipIdx_map, List.map_map]
    rfl
  simp only [leastSquaresSlope, hlen, hden, hnum]
  by_cases hshort : t.ring.count < 2
  · have hone : t.ring.count = 1 := by omega
    rw [if_pos hshort, hone]
    norm_num
  · rw [if_neg hshort]

variable {t : T1Trend} {p : TrendState}

theorem push_sinceLoss (h : Mirrors t p) (r : Reduced) :
    (t1TrendPush t r).1.sinceLoss = (p.push r).1.sinceLoss := by
  simp only [t1TrendPush, TrendState.push, h.sinceCap, h.sinceLoss]
  generalize (if r.pktAll = 0 then (1 : ℚ) else 0) = dropout
  split
  · rfl
  · split
    · next hlt => exact (min_eq_right hlt.le).symm
    · next hge => exact (min_eq_left (not_lt.mp hge)).symm

/-- A push overwrites the entry that the deque drops. -/
theorem push_buf (h : Mirrors t p) (r : Reduced) :
    (t1TrendPush t r).1.ring.toList.reverse = (p.push r).1.buf := by
  simp only [t1TrendPush, TrendState.push, dequeAppend, h.window, ← h.buf]
  rw [Ring.toList_push, List.reverse_take, List.reverse_cons, List.length_append, List.length_reverse]
  rfl

theorem push_mirrors (h : Mirrors t p) (r : Reduced) : Mirrors (t1TrendPush t r).1 (p.push r).1 := by
  have hmem : ∀ x ∈ (p.push r).1.buf, 0 ≤ x.lost ∧ 0 ≤ x.uniq := by
    intro x hx
    rcases List.mem_append.mp (List.mem_of_mem_drop hx) with hold | hnew
    · exact ⟨h.lost_nonneg x hold, h.uniq_nonneg x hold⟩
    · rw [List.mem_singleton.mp hnew]
      exact ⟨r.lost_nonneg, r.uniq_nonneg⟩
  exact ⟨h.window, h.sinceCap, push_buf h r, push_sinceLoss h r, fun x hx => (hmem x hx).1,
    fun x hx => (hmem x hx).2⟩

theorem push_count (t : T1Trend) (r : Reduced) : 0 < (t1TrendPush t r).1.ring.count := by
  show 0 < if t.ring.count < trendWindow then t.ring.count + 1 else t.ring.count
  split
  · exact Nat.succ_pos _
  · next hfull => exact Nat.lt_of_lt_of_le (by decide) (not_lt.mp hfull)

theorem sum_map_nonneg {buf : List Slot} {f : Slot → ℚ} (h : ∀ x ∈ buf, 0 ≤ f x) :
    0 ≤ (buf.map f).sum := by
  refine List.sum_nonneg fun v hv => ?_
  obtain ⟨x, hx, rfl⟩ := List.mem_map.mp hv
  exact h x hx

/-- Where nothing is negative, a sum is positive or zero. -/
theorem ratio_eq {a b : ℚ} (ha : 0 ≤ a) (hb : 0 ≤ b) :
    (if 0 < a + b then a / (a + b) else 0) = if a + b ≠ 0 then a / (a + b) else 0 := by
  by_cases hzero : a + b = 0
  · rw [if_neg (by rw [hzero]; exact lt_irrefl 0), if_neg (not_not.mpr hzero)]
  · rw [if_pos (lt_of_le_of_ne (add_nonneg ha hb) (Ne.symm hzero)), if_pos hzero]

/-- A push gives the same features. -/
theorem push_features (h : Mirrors t p) (r : Reduced) :
    (t1TrendPush t r).2 = FULL_FEATURES.map (p.push r).2 := by
  have hnext := push_mirrors h r
  have hslope := slope_eq hnext.buf (push_count t r)
  have hsum := fun f : Slot → ℚ => loop_sum hnext.buf f
  have hratio := ratio_eq (sum_map_nonneg hnext.lost_nonneg) (sum_map_nonneg hnext.uniq_nonneg)
  have hlen : ((t1TrendPush t r).1.ring.count : ℚ) = (p.push r).1.buf.length := by
    rw [← hnext.buf, ← Ring.map_oldest]
    simp
  have hsince := hnext.sinceLoss
  generalize hc : (t1TrendPush t r).1 = t' at hsince hlen hslope hsum
  have hout : (t1TrendPush t r).2 =
      (let n : ℚ := t'.ring.count
        let rsum := t'.loop fun _ x => x.rssi
        let lsum := t'.loop fun _ x => x.lost
        let usum := t'.loop fun _ x => x.uniq
        let xbar := (n - 1) / 2
        let num := t'.loop fun k x => (k - xbar) * (x.rssi - rsum / n)
        let den := t'.loop fun k _ => (k - xbar) * (k - xbar)
        [r.rssi, r.pktAll, r.pktLost, r.pktFecRecovered, r.pktUniq, if den ≠ 0 then num / den else 0,
          rsum / n, if 0 < lsum + usum then lsum / (lsum + usum) else 0,
          (t'.loop fun _ x => x.fec) / (usum + 1), t'.sinceLoss, (t'.loop fun _ x => x.drop) / n]) := by
    rw [← hc]
    rfl
  rw [hout]
  simp only [hsum, hratio] at hslope ⊢
  rw [hslope, hsince, hlen]
  rfl

/-- Record by record the air unit computes the features the trainer does. -/
theorem trend_agrees (rs : List Reduced) :
    t1Machine.trace T1Trend.init rs = trendMachine.trace { window := trendWindow } rs := by
  have hstep : ∀ t p r, Mirrors t p →
      (t1Machine.step t r).2 = (trendMachine.step p r).2 ∧
        Mirrors (t1Machine.step t r).1 (trendMachine.step p r).1 := by
    intro t p r h
    exact ⟨congrArg (fun v => [v]) (push_features h r), push_mirrors h r⟩
  exact Machine.trace_eq_of_related hstep mirrors_init rs

end Waybeam.Telemetry
