/-
# `Waybeam.Vehicle.Selector` — scoring rx_ant records and choosing the MCS

Every rx_ant record is scored (smoothed RSSI, its slope, smoothed loss) and the score is
put to the control law, first match wins:

    1    live video PER             demote          off under transport pressure
    2/3  RSSI floor, RSSI fade      demote
    3.5  pressure escape            climb one rung  only under pressure, RF clean
    4    probe at current + 2       fail: demote    clean: promote
    5    hold

Every move goes through `Selector.commit`, which clamps to `[mcs_min, mcs_max]` and keeps
the flap bookkeeping.  Without records the watchdog's `tickNoData` commits `mcs_min`.
-/
import Waybeam.Vehicle.Wire
import Waybeam.Vehicle.Config
import Waybeam.Ring

namespace Waybeam.Vehicle

/-! ## Scoring -/

/-- `Scorer`. -/
structure Scorer where
  smoothedRssi : ℚ := 0
  smoothedLost : ℚ := 0
  smoothedRecov : ℚ := 0
  smoothedDiversity : ℚ := 0
  haveRssi : Bool := false
  haveLoss : Bool := false
  slopeDbS : ℚ := 0
  slopePrevRssi : ℚ := 0
  slopePrevUs : ℕ := 0

/-- `Score`; `ants` lists one average per antenna id. -/
structure Score where
  rawRssi : ℚ
  smoothedRssi : ℚ
  lostRatio : ℚ
  smoothedLostRatio : ℚ
  recovRatio : ℚ
  smoothedRecovRatio : ℚ
  diversityRatio : ℚ
  smoothedDiversityRatio : ℚ
  adapterCount : ℤ
  rssiSlopeDbS : ℚ
  ants : List (String × ℤ)

/-- `ANT_MAX`. -/
def antMax : ℕ := 8

/-- Give an entry its slot: the one its id already has, keeping the best average, or a new
one while there is room.  An entry without an id never shares. -/
def antSlot (slots : List (String × ℤ)) (id : String) (avg : ℤ) : List (String × ℤ) :=
  if id ≠ "" ∧ slots.any (·.1 = id) then
    slots.map fun x => if x.1 = id then (x.1, max x.2 avg) else x
  else if slots.length < antMax then slots ++ [(id, avg)]
  else slots

/-- The entries read: the scan stops at the first one without an average. -/
def antsRead (ants : List AntEntry) : List (String × ℤ × ℤ) :=
  match ants with
  | [] => []
  | a :: rest =>
      match a.avg with
      | none => []
      | some avg => (a.id, avg, a.max.getD avg) :: antsRead rest

/-- The largest of the values read. -/
def best : List ℤ → ℤ
  | [] => -200
  | x :: xs => xs.foldl max x

/-- The raw RSSI of a record by the configured aggregator. -/
def rawRssi (agg : RssiAggregator) (ants : List (String × ℤ × ℤ)) : ℚ :=
  match agg with
  | .meanAvg => ((ants.map (·.2.1)).sum : ℤ) / (ants.length : ℚ)
  | .bestMax => best (ants.map (·.2.2))
  | .bestAvg => best (ants.map (·.2.1))

/-- `a·x + (1 − a)·y`. -/
def ewma (a x y : ℚ) : ℚ := a * x + (1 - a) * y

/-- The slope after a sample: skipped within 10 ms of the last, reset after 2 s. -/
def slopeUpdate (s : Scorer) (now : ℕ) : Scorer :=
  let rebase (s : Scorer) := { s with slopePrevRssi := s.smoothedRssi, slopePrevUs := now }
  if s.slopePrevUs ≠ 0 ∧ s.slopePrevUs < now then
    let dt := secsOf (now - s.slopePrevUs)
    if dt < 1 / 100 then s
    else if dt ≤ 2 then
      rebase { s with slopeDbS := ewma (3 / 10) ((s.smoothedRssi - s.slopePrevRssi) / dt) s.slopeDbS }
    else rebase { s with slopeDbS := 0 }
  else rebase s

/-- A packet count over the unique packets of the record. -/
def pktRatio (count uniq : ℤ) : ℚ :=
  if 0 < count then (count : ℚ) / (if 0 < uniq then uniq else 1 : ℤ) else 0

/-- `scorer_update`; `none` when the record names no antenna. -/
def scorerUpdate (s : Scorer) (cfg : McsConfig) (ants : List AntEntry)
    (uniq lost fecRecovered diversity adapters : ℤ) (now : ℕ) : Scorer × Option Score :=
  let read := antsRead ants
  if read.isEmpty then (s, none)
  else
    let raw := rawRssi cfg.rssiAggregator read
    let s := { s with
      smoothedRssi := if s.haveRssi then ewma cfg.rssiEwmaAlpha raw s.smoothedRssi else raw
      haveRssi := true }
    let s := slopeUpdate s now
    let lostR := min (pktRatio lost uniq) 1
    let recovR := min (pktRatio fecRecovered uniq) 1
    let divR := pktRatio diversity uniq
    let mix (x y : ℚ) : ℚ := if s.haveLoss then ewma cfg.lossEwmaAlpha x y else x
    let s := { s with
      smoothedLost := mix lostR s.smoothedLost
      smoothedRecov := mix recovR s.smoothedRecov
      smoothedDiversity := mix divR s.smoothedDiversity
      haveLoss := true }
    (s, some {
      rawRssi := raw, smoothedRssi := s.smoothedRssi
      lostRatio := lostR, smoothedLostRatio := s.smoothedLost
      recovRatio := recovR, smoothedRecovRatio := s.smoothedRecov
      diversityRatio := divR, smoothedDiversityRatio := s.smoothedDiversity
      adapterCount := adapters, rssiSlopeDbS := s.slopeDbS
      ants := read.foldl (fun slots a => antSlot slots a.1 a.2.1) [] })

/-! ## Probe records -/

/-- `PROBE_MCS_MAX`. -/
def probeMcsMax : ℤ := 16

/-- `ProbeRung`; `perMilli` is `-1` without traffic. -/
structure ProbeRung where
  accounted : ℤ := 0
  lost : ℤ := 0
  perMilli : ℤ := 0
  lastUs : ℕ := 0
  tsMs : ℕ := 0
  records : ℕ := 0
  valid : Bool := false

/-- `ProbeState`. -/
structure ProbeState where
  rung : ℤ → ProbeRung := fun _ => {}
  lastAnyUs : ℕ := 0
  totalRecords : ℕ := 0
  parseErrors : ℕ := 0
  gateUs : ℕ := 0

/-- Store a probe record under its MCS. -/
def ProbeState.ingest (p : ProbeState) (r : ProbeRec) (now : ℕ) : ProbeState :=
  let mcs := r.mcs.getD (-1)
  let acc := r.accounted.getD (-1)
  let lost := r.lost.getD 0
  let ts := r.tsMs.getD (-1)
  if 0 ≤ mcs ∧ mcs < probeMcsMax then
    let old := p.rung mcs
    { p with
      rung := Function.update p.rung mcs {
        accounted := acc, lost := lost
        perMilli := if 0 < acc then i32 ((lost * 1000 + acc.tdiv 2).tdiv acc) else -1
        lastUs := now, tsMs := ts.toNat
        records := old.records + 1, valid := true }
      lastAnyUs := now, totalRecords := p.totalRecords + 1 }
  else { p with parseErrors := p.parseErrors + 1 }

/-! ## Selector state -/

/-- `OSC_RING`. -/
def oscRing : ℕ := 16

/-- `Selector`; `currentMcs` is `-1` before the first commit. -/
structure Selector where
  currentMcs : ℤ := -1
  lastChangeUs : ℕ := 0
  lastDatagramUs : ℕ := 0
  inFailsafe : Bool := false
  changes : Ring oscRing ℕ := Ring.empty oscRing (by decide) 0
  commitCount : ℕ := 0
  rssiFloorActive : Bool := false
  rssiFadeActive : Bool := false
  fadeStreak : ℕ := 0
  flapGuardMcs : ℤ := -1
  flapGuardUs : ℕ := 0
  flapDemoteStreak : ℤ := 0
  flapLastDemoteUs : ℕ := 0
  flapFreezeMcs : ℤ := -1
  flapFreezeUntilUs : ℕ := 0
  pressureSinceUs : ℕ := 0
  pressureEscapeCount : ℕ := 0

namespace Selector

/-- `selector_expire_changes`. -/
def expireChanges (s : Selector) (cfg : McsConfig) (now : ℕ) : Selector :=
  let windowUs := usOf cfg.oscillationWindowS
  if windowUs = 0 then { s with changes := s.changes.clear }
  else if now < windowUs then s
  else { s with changes := s.changes.expire fun t => decide (now - windowUs ≤ t) }

/-- `selector_record_change`. -/
def recordChange (s : Selector) (cfg : McsConfig) (now : ℕ) : Selector :=
  expireChanges { s with changes := s.changes.push now } cfg now

/-- The flap bookkeeping of a demotion from `prev`: the soft guard keeps the highest rung
that failed while its window is live, the freeze counts fast demotions from one rung. -/
def noteDemote (s : Selector) (cfg : McsConfig) (prev : ℤ) (now : ℕ) : Selector :=
  let oldGuard := s.flapGuardMcs
  let s := { s with
    flapGuardMcs :=
      if s.flapGuardMcs < prev ∨ usOf cfg.reentryBackoffS < now - s.flapGuardUs then prev
      else s.flapGuardMcs
    flapGuardUs := now }
  if 0 < cfg.flapFreezeCount then
    let sameRungFast := prev = oldGuard ∧ s.flapLastDemoteUs ≠ 0 ∧
      now - s.flapLastDemoteUs ≤ usOf cfg.flapFreezeWindowS
    let streak := if sameRungFast then s.flapDemoteStreak + 1 else 1
    let s := { s with flapDemoteStreak := streak, flapLastDemoteUs := now }
    if cfg.flapFreezeCount ≤ streak then
      { s with flapFreezeMcs := prev, flapFreezeUntilUs := now + usOf cfg.flapFreezeS }
    else s
  else s

/-- `selector_commit`: the target is clamped, a change is recorded. -/
def commit (s : Selector) (cfg : McsConfig) (targetMcs : ℤ) (now : ℕ) : Selector :=
  let target := clampInt cfg.mcsMin cfg.mcsMax targetMcs
  let prev := s.currentMcs
  let s := { s with currentMcs := target }
  if prev = target then s
  else
    let s := recordChange { s with lastChangeUs := now } cfg now
    let s := { s with commitCount := s.commitCount + 1 }
    if 0 ≤ prev ∧ target < prev then s.noteDemote cfg prev now else s

/-- `selector_tick_no_data`. -/
def tickNoData (s : Selector) (cfg : McsConfig) (now : ℕ) : Selector × SelectDecision :=
  let s := s.expireChanges cfg now
  if s.lastDatagramUs = 0 then (s, .none)
  else if now - s.lastDatagramUs < usOf cfg.failsafeTimeoutS then (s, .none)
  else if s.inFailsafe ∧ s.currentMcs = cfg.mcsMin then (s, .none)
  else
    let s := { s with inFailsafe := true, rssiFloorActive := false, rssiFadeActive := false }
    (s.commit cfg cfg.mcsMin now, .failsafe)

/-! ## The control law -/

/-- A record arrived: the failsafe clears, an expired freeze lifts, the pressure run starts
or ends. -/
def intake (s : Selector) (inPressure : Bool) (now : ℕ) : Selector :=
  let s := { s with lastDatagramUs := now, inFailsafe := false }
  let s :=
    if 0 ≤ s.flapFreezeMcs ∧ s.flapFreezeUntilUs ≤ now then
      { s with flapFreezeMcs := -1, flapDemoteStreak := 0 }
    else s
  { s with
    pressureSinceUs :=
      if inPressure then (if s.pressureSinceUs = 0 then now else s.pressureSinceUs) else 0 }

end Selector

/-- Smoothed RSSI at or below the floor. -/
def floorHit (cfg : McsConfig) (score : Score) : Bool :=
  decide (score.smoothedRssi ≤ cfg.rssiFloorDbm)

/-- The instantaneous fade condition. -/
def fadeSample (cfg : McsConfig) (score : Score) : Bool :=
  decide (0 < cfg.rssiFadeDbPerS) && decide (score.smoothedRssi ≤ cfg.rssiFadeArmDbm) &&
    decide (score.rssiSlopeDbS ≤ -cfg.rssiFadeDbPerS)

/-- `FADE_PERSIST_SAMPLES`. -/
def fadePersistSamples : ℕ := 3

namespace Selector

/-- Refresh the RSSI guard flags and the fade streak. -/
def noteGuards (s : Selector) (cfg : McsConfig) (score : Score) : Selector :=
  let streak := if fadeSample cfg score then s.fadeStreak + 1 else 0
  { s with
    fadeStreak := streak
    rssiFloorActive := floorHit cfg score
    rssiFadeActive := decide (fadePersistSamples ≤ streak) }

/-- The hard freeze forbids the next rung up. -/
def freezeBlocks (s : Selector) (now : ℕ) : Bool :=
  decide (0 ≤ s.flapFreezeMcs) && decide (now < s.flapFreezeUntilUs) &&
    decide (s.flapFreezeMcs ≤ s.currentMcs + 1)

/-- A demotion is possible: above the floor and past the cooldown. -/
def canDemote (s : Selector) (cfg : McsConfig) (now : ℕ) : Bool :=
  decide (cfg.mcsMin < s.currentMcs) && decide (cfg.downCooldownS ≤ secsOf (now - s.lastChangeUs))

/-- Rule 3.5 fires. -/
def escapes (s : Selector) (cfg : McsConfig) (score : Score) (inPressure : Bool) (now : ℕ) :
    Bool :=
  inPressure && decide (0 < cfg.pressureEscapeS) && decide (s.pressureSinceUs ≠ 0) &&
    decide (s.currentMcs < cfg.mcsMax) &&
    (!floorHit cfg score && !fadeSample cfg score &&
      decide (cfg.rssiFloorDbm + cfg.rssiFloorHystDb < score.smoothedRssi) &&
      decide (cfg.rssiFadeArmDbm < score.smoothedRssi)) &&
    !s.freezeBlocks now &&
    decide (cfg.pressureEscapeS ≤ secsOf (now - s.pressureSinceUs)) &&
    decide (cfg.downCooldownS ≤ secsOf (now - s.lastChangeUs))

/-- The dwell a promotion needs: longer back into a rung that failed recently. -/
def needDwell (s : Selector) (cfg : McsConfig) (now : ℕ) : ℚ :=
  if 0 ≤ s.flapGuardMcs ∧ s.flapGuardMcs ≤ s.currentMcs + 1 ∧
      secsOf (now - s.flapGuardUs) < cfg.reentryBackoffS ∧ cfg.promoteDwellS < cfg.reentryDwellS
  then cfg.reentryDwellS else cfg.promoteDwellS

/-- A promotion on a clean probe is allowed. -/
def canPromote (s : Selector) (cfg : McsConfig) (score : Score) (now : ℕ) : Bool :=
  !(fadeSample cfg score || decide (score.smoothedRssi ≤ cfg.rssiFloorDbm + cfg.rssiFloorHystDb)) &&
    !s.freezeBlocks now && decide (s.currentMcs < cfg.mcsMax) &&
    decide (s.needDwell cfg now ≤ secsOf (now - s.lastChangeUs))

end Selector

/-- A rung's record may be acted on: measured, newer than the commit gate, fresh. -/
def probeUsable (probe : ProbeState) (cfg : McsConfig) (v2 : ℤ) (now : ℕ) : Bool :=
  decide (0 ≤ v2) && decide (v2 < probeMcsMax) && (probe.rung v2).valid &&
    decide (0 ≤ (probe.rung v2).perMilli) && decide (probe.gateUs ≤ (probe.rung v2).lastUs) &&
    decide (secsOf (now - (probe.rung v2).lastUs) ≤ cfg.probeStaleAgeS)

/-- What the law asks of the current rung. -/
inductive Verdict where
  | hold
  | demote
  | escape
  | promote
  deriving DecidableEq

namespace Selector

/-- The rules, first match wins. -/
def verdict (s : Selector) (cfg : McsConfig) (score : Score) (probe : ProbeState)
    (inPressure : Bool) (now : ℕ) : Verdict :=
  let pressureBlock := inPressure && cfg.pressureDemoteBlock
  let canDemote := s.canDemote cfg now
  if !pressureBlock && decide ((cfg.demotePerMilli : ℚ) ≤ score.smoothedLostRatio * 1000) then
    -- at the floor or cooling down the loss rule still shadows the rules below
    if canDemote then .demote else .hold
  else if (s.rssiFloorActive || s.rssiFadeActive) && canDemote then .demote
  else if s.escapes cfg score inPressure now then .escape
  else
    let v2 := s.currentMcs + 2
    if probeUsable probe cfg v2 now then
      let per := (probe.rung v2).perMilli
      if cfg.probeFailMilli ≤ per ∧ v2 ≤ cfg.mcsMax then
        if !pressureBlock && canDemote then .demote else .hold
      else if per ≤ cfg.probeCleanMilli then
        if s.canPromote cfg score now then .promote else .hold
      else .hold
    else .hold

/-- `selector_update`; the committed MCS is the new `currentMcs`. -/
def update (s : Selector) (cfg : McsConfig) (score : Score) (probe : ProbeState)
    (inPressure : Bool) (now : ℕ) : Selector × SelectDecision :=
  let s := s.intake inPressure now
  -- cold start: begin at the floor
  if s.currentMcs < 0 then (s.commit cfg cfg.mcsMin now, .init)
  else
    let s := s.noteGuards cfg score
    match s.verdict cfg score probe inPressure now with
    | .hold => (s, .none)
    | .demote => (s.commit cfg (s.currentMcs - 1) now, .down)
    | .escape =>
        ({ s with pressureEscapeCount := s.pressureEscapeCount + 1 }.commit cfg
          (s.currentMcs + 1) now, .up)
    | .promote => (s.commit cfg (s.currentMcs + 1) now, .up)

/-! ## What the operations do to the rung -/

@[simp] theorem expireChanges_currentMcs (s : Selector) (cfg : McsConfig) (now : ℕ) :
    (s.expireChanges cfg now).currentMcs = s.currentMcs := by
  unfold expireChanges
  dsimp only
  split_ifs <;> rfl

@[simp] theorem expireChanges_lastDatagramUs (s : Selector) (cfg : McsConfig) (now : ℕ) :
    (s.expireChanges cfg now).lastDatagramUs = s.lastDatagramUs := by
  unfold expireChanges
  dsimp only
  split_ifs <;> rfl

@[simp] theorem noteDemote_currentMcs (s : Selector) (cfg : McsConfig) (prev : ℤ) (now : ℕ) :
    (s.noteDemote cfg prev now).currentMcs = s.currentMcs := by
  rw [noteDemote]
  dsimp only
  split_ifs <;> rfl

@[simp] theorem noteDemote_lastDatagramUs (s : Selector) (cfg : McsConfig) (prev : ℤ) (now : ℕ) :
    (s.noteDemote cfg prev now).lastDatagramUs = s.lastDatagramUs := by
  rw [noteDemote]
  dsimp only
  split_ifs <;> rfl

/-- A commit lands on the clamped target. -/
@[simp] theorem commit_currentMcs (s : Selector) (cfg : McsConfig) (target : ℤ) (now : ℕ) :
    (s.commit cfg target now).currentMcs = clampInt cfg.mcsMin cfg.mcsMax target := by
  rw [commit]
  dsimp only
  split_ifs <;> simp [recordChange]

@[simp] theorem commit_lastDatagramUs (s : Selector) (cfg : McsConfig) (target : ℤ) (now : ℕ) :
    (s.commit cfg target now).lastDatagramUs = s.lastDatagramUs := by
  rw [commit]
  dsimp only
  split_ifs <;> simp [recordChange]

@[simp] theorem intake_currentMcs (s : Selector) (inPressure : Bool) (now : ℕ) :
    (s.intake inPressure now).currentMcs = s.currentMcs := by
  rw [intake]
  dsimp only
  split_ifs <;> rfl

@[simp] theorem intake_lastDatagramUs (s : Selector) (inPressure : Bool) (now : ℕ) :
    (s.intake inPressure now).lastDatagramUs = now := by
  rw [intake]
  dsimp only
  split_ifs <;> rfl

/-- A record always restarts the silence clock. -/
theorem update_lastDatagramUs (s : Selector) (cfg : McsConfig) (score : Score)
    (probe : ProbeState) (inPressure : Bool) (now : ℕ) :
    (s.update cfg score probe inPressure now).1.lastDatagramUs = now := by
  rw [update]
  dsimp only
  split_ifs
  · simp
  · cases Selector.verdict _ cfg score probe inPressure now <;> simp [noteGuards]

/-- Holding keeps a valid rung. -/
theorem update_none {s : Selector} {cfg : McsConfig} {score : Score} {probe : ProbeState}
    {inPressure : Bool} {now : ℕ}
    (h : (s.update cfg score probe inPressure now).2 = .none) :
    (s.update cfg score probe inPressure now).1.currentMcs = s.currentMcs ∧ 0 ≤ s.currentMcs := by
  rw [update] at h ⊢
  dsimp only at h ⊢
  split_ifs at h ⊢ with h0
  cases hv : Selector.verdict _ cfg score probe inPressure now <;> simp only [hv] at h ⊢
  case hold => exact ⟨by simp [noteGuards], by simpa using h0⟩
  all_goals cases h

/-- Any other decision lands on a clamped rung. -/
theorem update_some {s : Selector} {cfg : McsConfig} {score : Score} {probe : ProbeState}
    {inPressure : Bool} {now : ℕ}
    (h : (s.update cfg score probe inPressure now).2 ≠ .none) :
    ∃ x, (s.update cfg score probe inPressure now).1.currentMcs =
      clampInt cfg.mcsMin cfg.mcsMax x := by
  rw [update] at h ⊢
  dsimp only at h ⊢
  split_ifs at h ⊢
  · exact ⟨_, commit_currentMcs _ _ _ _⟩
  · cases hv : Selector.verdict _ cfg score probe inPressure now <;> simp only [hv] at h ⊢
    case hold => exact absurd rfl h
    all_goals exact ⟨_, commit_currentMcs _ _ _ _⟩

end Selector

end Waybeam.Vehicle
