/-
# `Waybeam.Ground.Probe` — the windows of a probe tunnel

The stats of a probe tunnel are added up per received MCS, and one record per MCS is sent
when the window is over.  Nothing runs on a timer: the record that comes in decides.

    no window yet          it opens one
    older than 4 windows   what is pending is thrown away, a window opens
    then                   the counts go into the bucket of the MCS
    older than 1 window    every bucket with counts is reported, a window opens

`probe_win_start_us == 0` says that there is no window yet.
-/
import Mathlib.Algebra.Group.Prod
import Mathlib.Data.List.FinRange
import Mathlib.Logic.Function.Basic
import Waybeam.Machine
import Waybeam.Tally
import Waybeam.Text

namespace Waybeam.Ground.Probe

open Text

/-- `INT_MIN` -/
def intMin : ℤ := -2 ^ 31

/-- One `probe_bucket`. -/
structure Bucket where
  uniq : UInt32 := 0
  lost : UInt32 := 0
  rssi : ℤ := 0
  deriving DecidableEq, Repr

/-- What a bucket has received and lost. -/
def Bucket.count (b : Bucket) : ℕ × ℕ := (b.uniq.toNat, b.lost.toNat)

/-- The probe fields of a tunnel, as `cfg_parse_tunnel` leaves them. -/
structure Producer where
  radioPort : ℤ
  probeWindowMs : ℕ := 500
  statsFwdActive : Bool := true
  probeWinStartUs : ℕ := 0
  probeBucket : Fin 16 → Bucket := fun _ => {}
  probeEmitCount : UInt32 := 0
  probeDropCount : UInt32 := 0

/-! ## Records -/

/-- What is printed for one bucket. -/
structure ProbeRecord where
  tsMs : ℕ
  radioPort : ℤ
  mcs : Fin 16
  recv : UInt32
  lost : UInt32
  accounted : UInt32
  rssi : ℤ
  windowUs : ℕ

/-- A quotient to the nearest integer, ties to the even one. -/
def roundDiv (a b : ℕ) : ℕ :=
  if b < 2 * (a % b) ∨ 2 * (a % b) = b ∧ a / b % 2 = 1 then a / b + 1 else a / b

/-- `"%.<n>f"` of the quotient of two numbers. -/
def fixed (n a b : ℕ) : Bytes :=
  let scaled := roundDiv (a * 10 ^ n) b
  let digits := decimal (scaled % 10 ^ n)
  decimal (scaled / 10 ^ n) ++ '.' :: (List.replicate (n - digits.length) '0' ++ digits)

/-- The pieces of the format string in front of the arguments. -/
def probeFormat : List Bytes :=
  ["\x7b\"type\":\"probe\",\"ts_ms\":".toList, ",\"radio_port\":".toList, ",\"mcs\":".toList,
    ",\"per\":".toList, ",\"recv\":".toList, ",\"lost\":".toList, ",\"accounted\":".toList,
    ",\"rssi\":".toList, ",\"window_s\":".toList]

/-- The arguments. -/
def ProbeRecord.args (r : ProbeRecord) : List Bytes :=
  [decimal r.tsMs, signed r.radioPort, decimal r.mcs, fixed 4 r.lost.toNat r.accounted.toNat,
    decimal r.recv.toNat, decimal r.lost.toNat, decimal r.accounted.toNat,
    if r.rssi = intMin then "null".toList else signed r.rssi, fixed 3 r.windowUs 1000000]

/-- The datagram. -/
def ProbeRecord.text (r : ProbeRecord) : Bytes := printf (probeFormat.zip r.args) "\x7d\n".toList

/-- What a record says it has received and lost. -/
def ProbeRecord.count (r : ProbeRecord) : Fin 16 × ℕ × ℕ := (r.mcs, r.recv.toNat, r.lost.toNat)

/-- What the producer does, in order. -/
inductive Obs where
  /-- counts went into the bucket of their MCS -/
  | added (mcs : Fin 16) (uniq lost : UInt32)
  /-- a window of this length was reported; whether each record was sent, and what is left -/
  | flushed (windowUs : ℕ) (recs : List (ProbeRecord × Bool)) (left : Fin 16 → Bucket)
  /-- a window of this age was thrown away; what is left -/
  | discarded (ageUs : ℕ) (left : Fin 16 → Bucket)

/-- What `stats_drain` takes from a record of the tunnel. -/
structure Sample where
  uniq : UInt32
  lost : UInt32
  mcs : ℤ
  rssi : ℤ

/-- A bucket takes the counts of a record; the RSSI is the best one. -/
def Bucket.add (b : Bucket) (s : Sample) : Bucket where
  uniq := b.uniq + s.uniq
  lost := b.lost + s.lost
  rssi := if s.rssi ≠ intMin ∧ (b.rssi = intMin ∨ b.rssi < s.rssi) then s.rssi else b.rssi

/-! ## The producer -/

namespace Producer

variable (t : Producer)

/-- `probe_buckets_reset` -/
def probeBucketsReset (now : ℕ) : Producer :=
  { t with probeBucket := fun _ => { rssi := intMin }, probeWinStartUs := now }

/-- The record of a bucket; none is made for one without counts. -/
def probeRecord (now tsMs : ℕ) (m : Fin 16) : Option ProbeRecord :=
  let b := t.probeBucket m
  if b.uniq + b.lost = 0 then none
  else
    some {
      tsMs, radioPort := t.radioPort, mcs := m, recv := b.uniq, lost := b.lost
      accounted := b.uniq + b.lost, rssi := b.rssi, windowUs := now - t.probeWinStartUs }

/-- `probe_window_flush`; `tsMs` is the wall clock's. -/
def probeWindowFlush (now tsMs : ℕ) : Producer × List Obs :=
  let recs := (List.finRange 16).filterMap (t.probeRecord now tsMs)
  let sent : List (ProbeRecord × Bool) :=
    recs.map fun r => (r, decide (r.text.length < 256) && t.statsFwdActive)
  let t' := { t with probeEmitCount := t.probeEmitCount + UInt32.ofNat recs.length }
  let t' := t'.probeBucketsReset now
  (t', [.flushed (now - t.probeWinStartUs) sent t'.probeBucket])

/-- The window of `probe_accumulate`. -/
def winUs : ℕ := t.probeWindowMs * 1000

/-- The first record opens a window. -/
def probeOpen (now : ℕ) : Producer := if t.probeWinStartUs = 0 then t.probeBucketsReset now else t

/-- A stale window is thrown away. -/
def probeExpire (now : ℕ) : Producer × List Obs :=
  if 4 * t.winUs < now - t.probeWinStartUs then
    let t' := { t.probeBucketsReset now with probeDropCount := t.probeDropCount + 1 }
    (t', [.discarded (now - t.probeWinStartUs) t'.probeBucket])
  else (t, [])

/-- The counts of a record go into the bucket of its MCS. -/
def probeAdd (s : Sample) : Producer × List Obs :=
  if h : 0 ≤ s.mcs ∧ s.mcs < 16 then
    let m : Fin 16 := ⟨s.mcs.toNat, by omega⟩
    ({ t with probeBucket := Function.update t.probeBucket m ((t.probeBucket m).add s) },
      [.added m s.uniq s.lost])
  else (t, [])

/-- `probe_accumulate` -/
def probeAccumulate (s : Sample) (now tsMs : ℕ) : Producer × List Obs :=
  andThen ((t.probeOpen now).probeExpire now) fun t =>
    andThen (t.probeAdd s) fun t =>
      if t.winUs ≤ now - t.probeWinStartUs then t.probeWindowFlush now tsMs else (t, [])

end Producer

/-- The producer and the clock of its last record. -/
structure Tunnel where
  probe : Producer
  clock : ℕ

/-- A stats record, `dt` after the one before. -/
structure Event where
  dt : ℕ
  sample : Sample
  tsMs : ℕ

/-- The producer over the records of its tunnel. -/
def machine : Machine Tunnel Event Obs where
  step t e :=
    let (probe, os) := t.probe.probeAccumulate e.sample (t.clock + e.dt) e.tsMs
    ({ probe, clock := t.clock + e.dt }, os)

/-- The counts of the record do not wrap its bucket. -/
def Fits (t : Tunnel) (e : Event) : Prop :=
  let now := t.clock + e.dt
  ∀ m : Fin 16, (m : ℤ) = e.sample.mcs →
    let b := ((t.probe.probeOpen now).probeExpire now).1.probeBucket m
    b.uniq.toNat + e.sample.uniq.toNat + (b.lost.toNat + e.sample.lost.toNat) < 2 ^ 32

instance (t : Tunnel) (e : Event) : Decidable (Fits t e) :=
  inferInstanceAs (Decidable (∀ _ : Fin 16, _))

/-! ## The ledger -/

/-- Every count that was added, and what became of it. -/
structure Ledger where
  /-- in the window that is open -/
  pending : List (Fin 16 × ℕ × ℕ) := []
  /-- in the records -/
  reported : List (Fin 16 × ℕ × ℕ) := []
  /-- in windows that were thrown away -/
  dropped : List (Fin 16 × ℕ × ℕ) := []
  /-- all of them -/
  added : List (Fin 16 × ℕ × ℕ) := []

/-- A flush reports exactly the counts of its window, a record for each MCS that has some, and a
window is thrown away only when it is stale; either leaves empty buckets and nothing pending. -/
def ledger (winUs : ℕ) : Monitor Obs Ledger where
  upd
    | g, .added m uniq lost =>
        let c := (m, uniq.toNat, lost.toNat)
        { g with pending := g.pending ++ [c], added := g.added ++ [c] }
    | g, .flushed _ recs _ =>
        { g with pending := [], reported := g.reported ++ recs.map fun r => r.1.count }
    | g, .discarded _ _ => { g with pending := [], dropped := g.dropped ++ g.pending }
  ok
    | _, .added .. => true
    | g, .flushed windowUs recs left =>
        decide (windowUs ≤ 4 * winUs) &&
          decide (recs.map (fun r => r.1.count) = report (List.finRange 16) (tally g.pending)) &&
          recs.all (fun r => decide (r.1.accounted.toNat = r.1.recv.toNat + r.1.lost.toNat)) &&
          (List.finRange 16).all fun m => decide ((left m).count = 0)
    | _, .discarded ageUs left =>
        decide (4 * winUs < ageUs) && (List.finRange 16).all fun m => decide ((left m).count = 0)

/-- Per MCS, what was added was reported, thrown away, or is in the bucket. -/
def Ledger.Balanced (g : Ledger) (t : Producer) : Prop :=
  ∀ m, tally g.added m = tally g.reported m + tally g.dropped m + (t.probeBucket m).count

/-- The ledger is right about the buckets; before the first window there is nothing in them. -/
structure Holds (winUs : ℕ) (t : Producer) (g : Ledger) : Prop where
  window : t.winUs = winUs
  pending : ∀ m, tally g.pending m = (t.probeBucket m).count
  fits : ∀ m, (t.probeBucket m).uniq.toNat + (t.probeBucket m).lost.toNat < 2 ^ 32
  unopened : t.probeWinStartUs = 0 → g.pending = []
  settled : ∀ m, tally g.added m = tally g.reported m + tally g.dropped m + tally g.pending m

theorem reset_count (t : Producer) (now : ℕ) (m : Fin 16) :
    ((t.probeBucketsReset now).probeBucket m).count = 0 := rfl

namespace Holds

variable {w now : ℕ} {t : Producer} {g : Ledger}

theorem balanced (h : Holds w t g) : g.Balanced t := by
  intro m
  rw [h.settled, h.pending]

/-- A window that was just opened. -/
theorem of_reset (hw : t.winUs = w) (hstart : t.probeWinStartUs ≠ 0)
    (hreset : ∀ m, (t.probeBucket m).count = 0) (hnone : g.pending = [])
    (hsettled : ∀ m, tally g.added m = tally g.reported m + tally g.dropped m) : Holds w t g where
  window := hw
  pending m := by rw [hnone, hreset, tally_nil]
  fits m := by
    obtain ⟨huniq, hlost⟩ := Prod.mk.inj (hreset m)
    rw [huniq, hlost]
    decide
  unopened h0 := absurd h0 hstart
  settled m := by rw [hnone, tally_nil, add_zero, hsettled]

theorem opened (h : Holds w t g) (hpos : 0 < now) :
    Holds w (t.probeOpen now) g ∧ (t.probeOpen now).probeWinStartUs ≠ 0 := by
  rw [Producer.probeOpen]
  split
  · next h0 =>
      have hnone := h.unopened h0
      refine ⟨of_reset h.window (Nat.ne_of_gt hpos) (reset_count t now) hnone ?_, Nat.ne_of_gt hpos⟩
      intro m
      rw [h.settled, hnone, tally_nil, add_zero]
  · next h0 => exact ⟨h, h0⟩

/-- What is pending goes with a stale window. -/
theorem expired (h : Holds w t g) (hpos : 0 < now) (hopen : t.probeWinStartUs ≠ 0) :
    (ledger w).wp g (t.probeExpire now) fun t g =>
      Holds w t g ∧ t.probeWinStartUs ≠ 0 ∧ now - t.probeWinStartUs ≤ 4 * w := by
  rw [Producer.probeExpire]
  split
  · next hstale =>
      rw [h.window] at hstale
      refine wp_emit ?_ ⟨of_reset h.window (Nat.ne_of_gt hpos) (reset_count t now) rfl ?_,
        Nat.ne_of_gt hpos, ?_⟩
      · show (decide _ && List.all _ _) = true
        rw [decide_eq_true hstale, Bool.true_and, List.all_eq_true]
        intro m _
        exact decide_eq_true (reset_count t now m)
      · intro m
        show tally g.added m = tally g.reported m + tally (g.dropped ++ g.pending) m
        rw [tally_append, ← add_assoc]
        exact h.settled m
      · show now - now ≤ 4 * w
        omega
  · next hfresh =>
      rw [h.window, Nat.not_lt] at hfresh
      exact wp_pure ⟨h, hopen, hfresh⟩

/-- A count that fits is added to what is pending. -/
theorem added (h : Holds w t g) (hopen : t.probeWinStartUs ≠ 0)
    (hstart : now - t.probeWinStartUs ≤ 4 * w) {s : Sample}
    (hfits : ∀ m : Fin 16, (m : ℤ) = s.mcs → (t.probeBucket m).uniq.toNat + s.uniq.toNat +
      ((t.probeBucket m).lost.toNat + s.lost.toNat) < 2 ^ 32) :
    (ledger w).wp g (t.probeAdd s) fun t g =>
      Holds w t g ∧ now - t.probeWinStartUs ≤ 4 * w := by
  rw [Producer.probeAdd]
  split
  · next hmcs =>
      set m : Fin 16 := ⟨s.mcs.toNat, by omega⟩ with hm
      have hroom := hfits m (Int.toNat_of_nonneg hmcs.1)
      have huniq : ((t.probeBucket m).uniq + s.uniq).toNat
          = (t.probeBucket m).uniq.toNat + s.uniq.toNat := by
        rw [UInt32.toNat_add, Nat.mod_eq_of_lt (by omega)]
      have hlost : ((t.probeBucket m).lost + s.lost).toNat
          = (t.probeBucket m).lost.toNat + s.lost.toNat := by
        rw [UInt32.toNat_add, Nat.mod_eq_of_lt (by omega)]
      refine wp_emit rfl ⟨⟨h.window, ?_, ?_, fun h0 => absurd h0 hopen, ?_⟩, hstart⟩
      · intro k
        show tally (g.pending ++ [(m, s.uniq.toNat, s.lost.toNat)]) k = Bucket.count _
        rw [tally_append, tally_singleton, h.pending]
        by_cases hk : m = k
        · subst hk
          dsimp only
          rw [if_pos rfl, Function.update_self]
          exact Prod.ext huniq.symm hlost.symm
        · dsimp only
          rw [if_neg hk, add_zero, Function.update_of_ne (Ne.symm hk)]
      · intro k
        dsimp only
        by_cases hk : m = k
        · subst hk
          rw [Function.update_self]
          show ((t.probeBucket m).uniq + s.uniq).toNat + ((t.probeBucket m).lost + s.lost).toNat < _
          rw [huniq, hlost]
          exact hroom
        · rw [Function.update_of_ne (Ne.symm hk)]
          exact h.fits k
      · intro k
        show tally (g.added ++ _) k = tally g.reported k + tally g.dropped k + tally (g.pending ++ _) k
        rw [tally_append, tally_append, h.settled, add_assoc]
  · exact wp_pure ⟨h, hstart⟩

/-- A record is made for every bucket with counts, and says what is in it. -/
theorem records (h : Holds w t g) (tsMs : ℕ) :
    ((List.finRange 16).filterMap (t.probeRecord now tsMs)).map ProbeRecord.count
      = report (List.finRange 16) (tally g.pending) := by
  rw [List.map_filterMap, report]
  refine List.filterMap_congr ?_
  intro m _
  have hfits := h.fits m
  have hsum : ((t.probeBucket m).uniq + (t.probeBucket m).lost).toNat
      = (t.probeBucket m).uniq.toNat + (t.probeBucket m).lost.toNat := by
    rw [UInt32.toNat_add, Nat.mod_eq_of_lt hfits]
  have hzero : (t.probeBucket m).uniq + (t.probeBucket m).lost = 0 ↔
      (t.probeBucket m).count = 0 := by
    rw [← UInt32.toNat_inj, hsum, UInt32.toNat_zero, Nat.add_eq_zero_iff, Bucket.count]
    exact Prod.mk_eq_zero.symm
  rw [Producer.probeRecord, h.pending]
  by_cases h0 : (t.probeBucket m).count = 0
  · rw [if_pos (hzero.mpr h0), if_pos h0]
    rfl
  · rw [if_neg (fun hz => h0 (hzero.mp hz)), if_neg h0]
    rfl

theorem accounted (h : Holds w t g) {tsMs : ℕ} {m : Fin 16} {r : ProbeRecord}
    (hr : t.probeRecord now tsMs m = some r) :
    r.accounted.toNat = r.recv.toNat + r.lost.toNat := by
  rw [Producer.probeRecord] at hr
  obtain ⟨-, hr⟩ := Option.ite_none_left_eq_some.mp hr
  cases hr
  show ((t.probeBucket m).uniq + (t.probeBucket m).lost).toNat = _
  rw [UInt32.toNat_add, Nat.mod_eq_of_lt (h.fits m)]

theorem flushed (h : Holds w t g) (hpos : 0 < now) (hstart : now - t.probeWinStartUs ≤ 4 * w)
    (tsMs : ℕ) : (ledger w).wp g (t.probeWindowFlush now tsMs) (Holds w) := by
  have hcounts : ∀ b : ProbeRecord → Bool,
      (((List.finRange 16).filterMap (t.probeRecord now tsMs)).map fun r => (r, b r)).map
        (fun r => r.1.count) = report (List.finRange 16) (tally g.pending) := by
    intro b
    rw [List.map_map]
    exact h.records tsMs
  rw [Producer.probeWindowFlush]
  refine wp_emit ?_ (of_reset h.window (Nat.ne_of_gt hpos) (reset_count _ now) rfl ?_)
  · show (((decide _ && decide _) && List.all _ _) && List.all _ _) = true
    rw [decide_eq_true hstart, decide_eq_true (hcounts _), Bool.true_and, Bool.true_and,
      Bool.and_eq_true, List.all_eq_true, List.all_eq_true]
    constructor
    · intro r hr
      obtain ⟨q, hq, rfl⟩ := List.mem_map.mp hr
      obtain ⟨m, -, hm⟩ := List.mem_filterMap.mp hq
      exact decide_eq_true (h.accounted hm)
    · intro m _
      exact decide_eq_true (reset_count _ now m)
  · intro m
    show tally g.added m = tally (g.reported ++ _) m + tally g.dropped m
    rw [hcounts, tally_append, tally_report (List.nodup_finRange 16) (List.mem_finRange m), h.settled]
    exact add_right_comm ..

/-- One record of the tunnel, step by step. -/
theorem accumulated (h : Holds w t g) (hpos : 0 < now) {s : Sample} (tsMs : ℕ)
    (hfits : ∀ m : Fin 16, (m : ℤ) = s.mcs →
      let b := ((t.probeOpen now).probeExpire now).1.probeBucket m
      b.uniq.toNat + s.uniq.toNat + (b.lost.toNat + s.lost.toNat) < 2 ^ 32) :
    (ledger w).wp g (t.probeAccumulate s now tsMs) (Holds w) := by
  obtain ⟨hopened, hopen⟩ := h.opened hpos
  obtain ⟨hacc, hfresh, hopen, hstart⟩ := hopened.expired hpos hopen
  refine wp_andThen ⟨hacc, wp_andThen (wp_mono (hfresh.added hopen hstart hfits) ?_)⟩
  rintro t g ⟨h, hstart⟩
  split
  · exact h.flushed hpos hstart tsMs
  · exact wp_pure h

end Holds

/-! ## Runs -/

/-- A producer before its first record. -/
def boot (radioPort : ℤ) (probeWindowMs : ℕ) (statsFwdActive : Bool) (clock : ℕ) : Tunnel :=
  ⟨{ radioPort, probeWindowMs, statsFwdActive }, clock⟩

theorem boot_holds (radioPort : ℤ) (probeWindowMs : ℕ) (statsFwdActive : Bool) :
    Holds (probeWindowMs * 1000) { radioPort, probeWindowMs, statsFwdActive } {} where
  window := rfl
  pending _ := rfl
  fits _ := Nat.two_pow_pos 32
  unopened _ := rfl
  settled _ := rfl

/-- Every count is reported once, in the record of its MCS and of its window, or goes with a
window that was stale, or waits in its bucket; no window that is reported is longer than four. -/
theorem window_conserved (radioPort : ℤ) (probeWindowMs : ℕ) (statsFwdActive : Bool) {clock : ℕ}
    (hclock : 0 < clock) {es : List Event}
    (hfits : machine.Meets Fits (boot radioPort probeWindowMs statsFwdActive clock) es) :
    let t := boot radioPort probeWindowMs statsFwdActive clock
    let m := ledger (probeWindowMs * 1000)
    m.Accepts {} (machine.trace t es) ∧
      (m.after {} (machine.trace t es)).Balanced (machine.run t es).probe := by
  have hstep : ∀ (t : Tunnel) (g : Ledger) (e : Event),
      (Holds (probeWindowMs * 1000) t.probe g ∧ 0 < t.clock) → Fits t e →
      (ledger (probeWindowMs * 1000)).wp g (machine.step t e)
        fun t g => Holds (probeWindowMs * 1000) t.probe g ∧ 0 < t.clock := by
    rintro t g e ⟨h, hpos⟩ hfits
    have hnow : 0 < t.clock + e.dt := Nat.add_pos_left hpos e.dt
    obtain ⟨hacc, h⟩ := h.accumulated hnow e.tsMs hfits
    exact ⟨hacc, h, hnow⟩
  have hrun := Machine.run_wp hstep
    ⟨boot_holds radioPort probeWindowMs statsFwdActive, hclock⟩ hfits
  exact ⟨hrun.1, hrun.2.1.balanced⟩

/-- Two records of a window of half a second that straddles a retune. -/
def straddling : List Event :=
  [⟨0, ⟨10, 1, 3, -60⟩, 7⟩, ⟨500000, ⟨8, 2, 5, -61⟩, 507⟩]

theorem window_conserved_straddling :
    let t := boot 50 500 true 1
    (ledger (500 * 1000)).Accepts {} (machine.trace t straddling) ∧
      ((ledger (500 * 1000)).after {} (machine.trace t straddling)).Balanced
        (machine.run t straddling).probe :=
  window_conserved 50 500 true (Nat.zero_lt_one) (by decide)

/-- What a record at the clock's zero adds is gone with the next record. -/
theorem window_conserved_not_at_zero :
    ¬∀ (radioPort : ℤ) (probeWindowMs : ℕ) (statsFwdActive : Bool) (clock : ℕ) (es : List Event),
      let t := boot radioPort probeWindowMs statsFwdActive clock
      machine.Meets Fits t es →
        ((ledger (probeWindowMs * 1000)).after {} (machine.trace t es)).Balanced
          (machine.run t es).probe := by
  intro hall
  have hrun := hall 50 500 true 0 [⟨0, ⟨10, 1, 3, -60⟩, 7⟩, ⟨100000, ⟨8, 2, 3, -61⟩, 107⟩]
    (by decide) 3
  revert hrun
  decide

end Waybeam.Ground.Probe
