/-
# `Waybeam.Vehicle.Fec` — block sizing and the FEC controller

A sidecar frame of the encoder drives one tick of the controller:

    intake       push the frame size into the headroom ring, drop what left the window,
                 move the size average
    candidate    size a block for the average (or, feed-forward, for the committed bitrate)
    judge        commit the candidate now, later, or not at all

`controllerUpdate` is the three in order and returns the committed parameters, if any.
-/
import Waybeam.Numeric
import Waybeam.Ring
import Waybeam.Vehicle.Config

namespace Waybeam.Vehicle

/-! ## Redundancy curve -/

/-- The curve `k ↦ r`. -/
def REDUNDANCY_CURVE : List (ℤ × ℚ) :=
  [(1, 50 / 100), (4, 33 / 100), (8, 33 / 100), (16, 30 / 100), (32, 27 / 100), (48, 25 / 100)]

/-- Linear interpolation on the first segment that holds `k`. -/
def interpolateOn (k : ℤ) : List (ℤ × ℚ) → Option ℚ
  | (k0, r0) :: (k1, r1) :: rest =>
      if k0 ≤ k ∧ k ≤ k1 then
        some (r0 + ((k - k0 : ℤ) : ℚ) / ((k1 - k0 : ℤ) : ℚ) * (r1 - r0))
      else interpolateOn k ((k1, r1) :: rest)
  | _ => none

/-- The redundancy asked for a block of `k` packets. -/
def interpolateRedundancy (k : ℤ) : ℚ :=
  if k ≤ 1 then 50 / 100
  else if 48 ≤ k then 25 / 100
  else (interpolateOn k REDUNDANCY_CURVE).getD (25 / 100)

/-! ## Headroom -/

/-- A frame size with the instant it was seen. -/
structure FrameSample where
  tsUs : ℕ
  size : ℕ

/-- `RING_MAX`. -/
def ringMax : ℕ := 512

/-- Rolling window of frame sizes. -/
abbrev HeadroomRing := Ring ringMax FrameSample

/-- The zero-initialised window. -/
def HeadroomRing.init : HeadroomRing := Ring.empty ringMax (by decide) ⟨0, 0⟩

/-- Peak over mean of the window, times the margin, clamped to `[lo, hi]`. -/
def computeHeadroom (r : HeadroomRing) (margin lo hi : ℚ) : ℚ :=
  let sizes := r.toList.map (·.size)
  if r.count < 2 then lo
  else
    let avg : ℚ := ((sizes.sum : ℕ) : ℚ) / r.count
    if avg ≤ 0 then lo
    else
      let ratio : ℚ := ((sizes.foldr max 0 : ℕ) : ℚ) / avg * margin
      let ratio := if ratio < lo then lo else ratio
      if ratio > hi then hi else ratio

/-! ## Sizing a block -/

/-- A block size with the figures it was derived from. -/
structure FecParams where
  k : ℤ
  n : ℤ
  redundancy : ℚ
  packetsPerFrame : ℤ
  avgFrameSize : ℚ
  headroom : ℚ
  deriving DecidableEq

/-- Packets per frame with the dead band around the current count. -/
def fecPacketsPerFrame (target : ℚ) (cfg : FecConfig) (currentPpf : ℤ) : ℤ :=
  let ppf := ⌈target / cfg.mtu⌉
  let ppf := if ppf < 1 then 1 else ppf
  if 0 < currentPpf ∧ 0 < cfg.ppfDeadbandFrac then
    let slack := (cfg.mtu : ℚ) * cfg.ppfDeadbandFrac
    let upEdge := ((currentPpf + 1 : ℤ) : ℚ) * cfg.mtu + slack
    let downEdge := ((currentPpf - 1 : ℤ) : ℚ) * cfg.mtu - slack
    if currentPpf < ppf ∧ target < upEdge then currentPpf
    else if ppf < currentPpf ∧ downEdge < target then currentPpf
    else ppf
  else ppf

/-- `fec_compute`. -/
def fecCompute (avgSize headroom : ℚ) (cfg : FecConfig) (currentPpf : ℤ) : FecParams :=
  let ppf := fecPacketsPerFrame (avgSize * headroom) cfg currentPpf
  let k := clampInt cfg.minK cfg.maxK ppf
  -- keep k below max_n, so that the "n = k + 1" floor cannot exceed it
  let k := if cfg.minK < cfg.maxN ∧ cfg.maxN ≤ k then cfg.maxN - 1 else k
  let r := interpolateRedundancy k
  let r := if r > 99 / 100 then 99 / 100 else r
  let n := clampInt cfg.minN cfg.maxN ⌈(k : ℚ) / (1 - r)⌉
  let n := if n ≤ k then k + 1 else n
  { k, n, redundancy := r, packetsPerFrame := ppf, avgFrameSize := avgSize, headroom }

/-! ## Controller state -/

/-- The FEC controller; `current` is `none` before the first commit. -/
structure Controller where
  avgFrameSize : ℚ := 0
  current : Option FecParams := none
  lastUpdateUs : ℕ := 0
  startUs : ℕ := 0
  updateCount : ℕ := 0
  bitrateGraceUntilUs : ℕ := 0
  wasInGrace : Bool := false
  kDownPendingSinceUs : ℕ := 0
  kDownPendingTarget : ℤ := 0
  kUpPendingSinceUs : ℕ := 0
  kUpPendingTarget : ℤ := 0
  bitrateUpLockUntilUs : ℕ := 0
  ffLastCommitUs : ℕ := 0
  lastCommittedKbps : ℤ := 0

namespace Controller

/-- Extend the settling window to `now + secs`, never shorten it. -/
def armSettle (c : Controller) (now : ℕ) (secs : ℚ) : Controller :=
  let newEnd := now + usOf secs
  if c.bitrateGraceUntilUs < newEnd then { c with bitrateGraceUntilUs := newEnd } else c

/-- Make `cand` the block in force and forget the pending moves. -/
def commit (c : Controller) (cand : FecParams) (now : ℕ) : Controller :=
  { c with
    current := some cand, lastUpdateUs := now, updateCount := c.updateCount + 1,
    kDownPendingSinceUs := 0, kDownPendingTarget := 0,
    kUpPendingSinceUs := 0, kUpPendingTarget := 0 }

/-- Whether the up-lock suppresses bitrate increases at `now`. -/
def upLocked (c : Controller) (now : ℕ) : Bool :=
  decide (c.bitrateUpLockUntilUs ≠ 0) && decide (now < c.bitrateUpLockUntilUs)

/-- Within `startup_grace_s` of the first tick. -/
def inStartupGrace (c : Controller) (cfg : FecConfig) (now : ℕ) : Bool :=
  decide (now - c.startUs < usOf cfg.startupGraceS)

/-- Within a settling window. -/
def inSettleGrace (c : Controller) (now : ℕ) : Bool :=
  decide (c.bitrateGraceUntilUs ≠ 0) && decide (now < c.bitrateGraceUntilUs)

/-- The committed bitrate moved past the tolerance since the last tick that knew one. -/
def opPointMoved (c : Controller) (cfg : FecConfig) (committedKbps : ℤ) : Bool :=
  decide (c.lastCommittedKbps ≤ 0) ||
    decide (cfg.bitrateTolerance * committedKbps < |((committedKbps - c.lastCommittedKbps : ℤ) : ℚ)|)

/-- Take in a frame: start the clock, push and expire the ring, move the average. -/
def intake (c : Controller) (cfg : FecConfig) (frameSize : ℕ) (ring : HeadroomRing) (now : ℕ) :
    Controller × HeadroomRing :=
  let ring := ring.push ⟨now, frameSize⟩
  let cutoff := sub64 now (usOf cfg.headroomWindowS)
  let ring := ring.expire fun x => decide (cutoff ≤ x.tsUs)
  let avg :=
    if c.avgFrameSize ≤ 0 then (frameSize : ℚ)
    else cfg.ewmaAlpha * frameSize + (1 - cfg.ewmaAlpha) * c.avgFrameSize
  ({ c with startUs := if c.startUs = 0 then now else c.startUs, avgFrameSize := avg }, ring)

/-- The block the inputs ask for, and whether it was sized feed-forward from the committed
bitrate. -/
def candidate (c : Controller) (cfg : FecConfig) (ring : HeadroomRing) (fps : ℚ)
    (committedKbps : ℤ) : FecParams × Bool :=
  let headroom := computeHeadroom ring cfg.headroomMargin cfg.headroomMin cfg.headroomMax
  let curPpf := (c.current.map (·.packetsPerFrame)).getD 0
  let ffBytes : ℚ := (committedKbps : ℚ) * 1000 / 8 / fps
  let ffActive := cfg.blocksizeFeedforward && decide (0 < committedKbps) &&
    decide (1 / 10 < fps) && decide (0 < ffBytes)
  let basis := if ffActive then ffBytes else c.avgFrameSize
  (fecCompute basis headroom cfg curPpf, ffActive)

/-- The dwell and hysteresis path, outside every grace window. -/
def hysteresis (c : Controller) (cfg : FecConfig) (now : ℕ) (cand cur : FecParams) :
    Controller × Option FecParams :=
  if cand.k < cur.k then
    let since := if c.kDownPendingSinceUs = 0 then now else c.kDownPendingSinceUs
    let c := { c with
      kUpPendingSinceUs := 0, kUpPendingTarget := 0,
      kDownPendingSinceUs := since, kDownPendingTarget := cand.k }
    if secsOf (now - since) < cfg.kDownDwellS then (c, none)
    else (c.commit cand now, some cand)
  else
    let c := { c with kDownPendingSinceUs := 0, kDownPendingTarget := 0 }
    if cand.k = cur.k then
      let c := { c with kUpPendingSinceUs := 0, kUpPendingTarget := 0 }
      if cand.n ≠ cur.n then (c.commit cand now, some cand) else (c, none)
    else
      let since := if c.kUpPendingSinceUs = 0 then now else c.kUpPendingSinceUs
      let c := { c with kUpPendingSinceUs := since, kUpPendingTarget := cand.k }
      if secsOf (now - since) < cfg.kUpDwellS then (c, none)
      else if cand.k - cur.k < cfg.kHystUp then (c, none)
      else if secsOf (now - c.lastUpdateUs) < cfg.cooldownUpS then (c, none)
      else (c.commit cand now, some cand)

/-- Commit `cand` or not. -/
def judge (c : Controller) (cfg : FecConfig) (now : ℕ) (cand : FecParams) (ffActive : Bool)
    (committedKbps : ℤ) : Controller × Option FecParams :=
  let inStartup := c.inStartupGrace cfg now
  let inSettle := c.inSettleGrace now
  let settleJustEnded := c.wasInGrace && !inSettle
  match c.current with
  | none =>
      let c := { c with wasInGrace := inSettle }
      if inStartup || inSettle then (c, none) else (c.commit cand now, some cand)
  | some cur =>
      let moved := c.opPointMoved cfg committedKbps
      -- the anchor follows every tick that knows the bitrate, whatever is committed below
      let c := { c with
        wasInGrace := inSettle
        lastCommittedKbps := if 0 < committedKbps then committedKbps else c.lastCommittedKbps }
      if ffActive && !inStartup && cand.k != cur.k && moved then
        let ffCd := usOf cfg.ffCooldownS
        if c.ffLastCommitUs = 0 ∨ ffCd = 0 ∨ ffCd ≤ now - c.ffLastCommitUs then
          ({ c with ffLastCommitUs := now }.commit cand now, some cand)
        else (c, none)
      else if inStartup || inSettle then (c, none)
      else if settleJustEnded then
        if cand.k = cur.k ∧ cand.n = cur.n then (c, none) else (c.commit cand now, some cand)
      else c.hysteresis cfg now cand cur

end Controller

/-- `controller_update`: the committed parameters, if this tick committed any. -/
def controllerUpdate (c : Controller) (cfg : FecConfig) (frameSize : ℕ) (ring : HeadroomRing)
    (now : ℕ) (fps : ℚ) (committedKbps : ℤ) : Controller × HeadroomRing × Option FecParams :=
  let (c, ring) := c.intake cfg frameSize ring now
  let (cand, ffActive) := c.candidate cfg ring fps committedKbps
  let (c, out) := c.judge cfg now cand ffActive committedKbps
  (c, ring, out)

/-! ## Frame-rate estimate -/

/-- `FpsEst`. -/
structure FpsEst where
  prevReadyUs : ℕ := 0
  ewmaPeriodUs : ℚ := 0
  havePrev : Bool := false

/-- `fps_feed`; a step back in time resets the reference like a gap over a second does. -/
def FpsEst.feed (f : FpsEst) (readyUs : ℕ) : FpsEst :=
  if !f.havePrev then { f with prevReadyUs := readyUs, havePrev := true }
  else
    let dt := readyUs - f.prevReadyUs
    if dt = 0 ∨ 1000000 < dt then { f with prevReadyUs := readyUs }
    else
      { f with
        prevReadyUs := readyUs
        ewmaPeriodUs :=
          if f.ewmaPeriodUs ≤ 0 then dt else 1 / 10 * dt + 9 / 10 * f.ewmaPeriodUs }

/-- `fps_get`. -/
def FpsEst.get (f : FpsEst) : ℚ := if f.ewmaPeriodUs ≤ 0 then 0 else 1000000 / f.ewmaPeriodUs

end Waybeam.Vehicle
