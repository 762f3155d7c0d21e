/-
# `Waybeam.Vehicle.Radio` — the observed radio and the bitrate budget

`RadioState` is what the FEC subsystem believes about wfb_tx.  From it and the block in
force `bitrateAssert` derives the bitrate the encoder may use, and writes it when it left
the tolerance band around the mirror of the last write:

    budget       phy · k/n · margin, then max, then min
    payload      tier table clamped to [payload_min, payload_max]; a clipped tier caps the budget
    airtime      on-air time of the coded stream stays under airtime_max_pct
    write        |mirror − target| > max(1, target · tolerance), except an increase under the up-lock
-/
import Waybeam.Vehicle.Wire
import Waybeam.Vehicle.Fec

namespace Waybeam.Vehicle

/-! ## Observed radio -/

/-- HT MCS 0..7 at 20 MHz, long guard interval (Mbps). -/
def HT_20L : List ℚ := [13 / 2, 13, 39 / 2, 26, 39, 52, 117 / 2, 65]

/-- The VHT extension of the same table. -/
def VHT_20L_EXT : List ℚ := HT_20L ++ [78, 867 / 10]

/-- `phy_mbps`. -/
def phyMbps (mcs bwMhz shortGi vhtMode vhtNss : ℤ) : ℚ :=
  let vht : Bool := vhtMode ≠ 0
  let mcs := clampInt 0 (if vht then 9 else 7) mcs
  let base := (if vht then VHT_20L_EXT else HT_20L).getD mcs.toNat 0
  let bwScale : ℚ :=
    if bwMhz = 40 then 21 / 10 else if bwMhz = 80 then 9 / 2 else if bwMhz = 160 then 9 else 1
  let giScale : ℚ := if shortGi ≠ 0 then 10 / 9 else 1
  let nss : ℤ := if vht ∧ 0 < vhtNss then vhtNss else 1
  base * bwScale * giScale * nss

/-- The radio parameters an observation carries. -/
structure RadioParams where
  mcs : ℤ
  bandwidth : ℤ
  shortGi : ℤ
  stbc : ℤ
  ldpc : ℤ
  vhtMode : ℤ
  vhtNss : ℤ

/-- A control body read as an observation. -/
def RadioBody.params (r : RadioBody) : RadioParams where
  mcs := r.mcs
  bandwidth := r.bandwidth.toNat
  shortGi := r.shortGi.toNat
  stbc := r.stbc.toNat
  ldpc := r.ldpc.toNat
  vhtMode := r.vhtMode.toNat
  vhtNss := r.vhtNss.toNat

/-- `RadioState`. -/
structure RadioState where
  valid : Bool := false
  shortGi : ℤ := 0
  bandwidth : ℤ := 0
  mcs : ℤ := 0
  vhtMode : ℤ := 0
  vhtNss : ℤ := 0
  stbc : ℤ := 0
  ldpc : ℤ := 0
  phyMbps : ℚ := 0

/-- The radio after an observation of `p`. -/
def RadioState.observe (p : RadioParams) : RadioState where
  valid := true
  shortGi := p.shortGi
  bandwidth := p.bandwidth
  mcs := p.mcs
  vhtMode := p.vhtMode
  vhtNss := p.vhtNss
  stbc := p.stbc
  ldpc := p.ldpc
  phyMbps := Vehicle.phyMbps p.mcs p.bandwidth p.shortGi p.vhtMode p.vhtNss

/-- Whether an observation differs in what arms the settling window. -/
def RadioState.differs (r : RadioState) (p : RadioParams) : Bool :=
  r.mcs != p.mcs || r.bandwidth != p.bandwidth || r.shortGi != p.shortGi ||
    r.vhtMode != p.vhtMode || r.vhtNss != p.vhtNss

/-- `radio_apply_observation`: the new radio, and the settling window armed on a change. -/
def radioApplyObservation (radio : RadioState) (ctrl : Controller) (cfg : Config)
    (p : RadioParams) (now : ℕ) : RadioState × Controller :=
  (.observe p,
    if radio.valid && radio.differs p && cfg.fec.enabled
    then ctrl.armSettle now cfg.fec.mcsSettleS else ctrl)

/-- `radio_track_external_fec`: the pair last seen or written. -/
def radioTrackExternalFec (obsK obsN : ℤ) (lastWritten : ℤ × ℤ) : ℤ × ℤ :=
  if obsK ≤ 0 ∨ obsN ≤ 0 then lastWritten else (obsK, obsN)

/-! ## Payload tiers -/

/-- Bitrate tiers: below the bound, the payload.  The last tier is unbounded. -/
def PAYLOAD_TABLE : List (Option ℤ × ℤ) :=
  [(some 2000, 800), (some 4000, 1000), (some 8000, 1200), (some 12000, 1400),
    (some 18000, 2000), (some 25000, 2800), (none, 3200)]

/-- `LONG_MAX`. -/
def longMax : ℤ := 9223372036854775807

/-- `payload_table_lookup`. -/
def payloadTableLookup (bitrateKbps : ℤ) : ℤ :=
  ((PAYLOAD_TABLE.find? fun t => decide (bitrateKbps < t.1.getD longMax)).map (·.2)).getD 3200

/-- `payload_safe_bitrate_kbps`: the largest tier bound whose payload fits. -/
def payloadSafeBitrateKbps (payloadBytes : ℤ) : ℤ :=
  let best := ((PAYLOAD_TABLE.filter fun t => decide (t.2 ≤ payloadBytes)).map
    (·.1.getD longMax)).foldl max (-1)
  if best < 0 then 2000 else best

/-- `payload_select`: the payload to ask for and whether the ceiling clipped the tier. -/
def payloadSelect (cfg : FecConfig) (targetKbps : ℤ) : ℤ × Bool :=
  if cfg.payloadMax ≤ 0 ∨ targetKbps ≤ 0 then (0, false)
  else
    let maxP := if cfg.payloadMax > 4000 then 4000 else cfg.payloadMax
    let maxP := if maxP < 576 then 576 else maxP
    let minP := clampInt 576 4000 cfg.payloadMin
    let minP := if minP > maxP then maxP else minP
    let pick := payloadTableLookup targetKbps
    let (result, clipped) := if pick > maxP then (maxP, true) else (pick, false)
    (if result < minP then minP else result, clipped)

/-! ## Airtime -/

/-- `airtime_safe_bitrate_kbps`; `-1` when the guard is off or the inputs are degenerate. -/
def airtimeSafeBitrateKbps (phyMbps : ℚ) (payload k n airtimeMaxPct preambleUs : ℤ) : ℤ :=
  if airtimeMaxPct ≤ 0 then -1
  else if phyMbps ≤ 0 ∨ k ≤ 0 ∨ n ≤ 0 then -1
  else
    let payload := if payload < 1 then 1400 else payload
    let a : ℚ := airtimeMaxPct / 100
    let r : ℚ := (n : ℚ) / k
    let phyBps : ℚ := phyMbps * 1000000
    let tPre : ℚ := (preambleUs : ℚ) / 1000000
    let cost : ℚ := r * (1 / phyBps + tPre / (8 * payload))
    if cost ≤ 0 then -1
    else
      let kbps := truncQ (a / cost / 1000)
      if kbps > 0 then kbps else 1

/-! ## Writing the encoder -/

/-- `venc_apply`: the query it sends, if it sends one. -/
def vencRequest (bitrateKbps payloadBytes : ℤ) : Option VencReq :=
  let bitrate := if bitrateKbps > 0 then some (min bitrateKbps 200000) else none
  let payload := if payloadBytes > 0 then some payloadBytes else none
  if bitrate.isNone ∧ payload.isNone then none
  else some { bitrateKbps := bitrate, payloadBytes := payload }

/-- `venc_apply`: whether it succeeded, and what it sent. -/
def vencApply (now : ℕ) (who : VencBy) (bitrateKbps payloadBytes : ℤ) (answer : Bool) :
    Bool × List Obs :=
  match vencRequest bitrateKbps payloadBytes with
  | none => (false, [])
  | some req => (answer, [.venc now who req answer])

/-- The controller with the mirrors of what was last written to the encoder. -/
structure FecState where
  ctrl : Controller := {}
  lastWrittenKbps : ℤ := -1
  lastWrittenPayload : ℤ := -1

/-- The budget of a link at `phy` Mbps with block `cur`, before the payload and airtime
ceilings. -/
def naturalTarget (cfg : FecConfig) (phy : ℚ) (cur : FecParams) : ℤ :=
  let postFecKbps := phy * 1000 * ((cur.k : ℚ) / cur.n)
  let target := truncQ (postFecKbps * cfg.safetyMargin)
  let target :=
    if 0 < cfg.bitrateMaxKbps ∧ cfg.bitrateMaxKbps < target then cfg.bitrateMaxKbps else target
  if target < cfg.bitrateMinKbps then cfg.bitrateMinKbps else target

/-- The bitrate and payload `bitrate_assert` aims for (payload `0`: sizing off). -/
def assertTarget (cfg : FecConfig) (phy : ℚ) (cur : FecParams) : ℤ × ℤ :=
  let target := naturalTarget cfg phy cur
  let (payload, clipped) := if 0 < cfg.payloadMax then payloadSelect cfg target else (0, false)
  let target :=
    if clipped ∧ 0 < payload then
      let safe := payloadSafeBitrateKbps payload
      if 0 < safe ∧ safe < target then
        if safe < cfg.bitrateMinKbps then cfg.bitrateMinKbps else safe
      else target
    else target
  -- the airtime ceiling is a physical limit: it applies even below the configured floor
  let target :=
    if 0 < cfg.airtimeMaxPct then
      let ac := airtimeSafeBitrateKbps phy payload cur.k cur.n cfg.airtimeMaxPct
        cfg.airtimePreambleUs
      if 0 < ac ∧ ac < target then ac else target
    else target
  (target, payload)

/-- The dead band around a target. -/
def assertTolerance (cfg : FecConfig) (target : ℤ) : ℤ :=
  let tol := truncQ ((target : ℚ) * cfg.bitrateTolerance)
  if tol < 1 then 1 else tol

/-- Whether a target left the dead band around the mirror. -/
def bitrateChanged (cfg : FecConfig) (lastWrittenKbps target : ℤ) : Bool :=
  let ref := if 0 < lastWrittenKbps then lastWrittenKbps else 0
  decide (lastWrittenKbps < 0) || decide (assertTolerance cfg target < |ref - target|)

/-- Whether a target would raise the bitrate. -/
def wouldIncrease (lastWrittenKbps target : ℤ) : Bool :=
  decide (0 < lastWrittenKbps) && decide (lastWrittenKbps < target)

/-- Whether `bitrate_assert` writes: the target left the band and is not an increase under
the up-lock. -/
def assertWrites (cfg : FecConfig) (f : FecState) (target : ℤ) (now : ℕ) : Bool :=
  bitrateChanged cfg f.lastWrittenKbps target &&
    !(wouldIncrease f.lastWrittenKbps target && f.ctrl.upLocked now)

/-- The write of `bitrate_assert`: request, mirror, settling window. -/
def assertWrite (cfg : Config) (f : FecState) (target targetPayload : ℤ) (now : ℕ)
    (answer : Bool) : FecState × List Obs :=
  let payloadChanged : Bool :=
    decide (0 < targetPayload) && decide (targetPayload ≠ f.lastWrittenPayload)
  let written : FecState := { f with
    lastWrittenKbps := target
    lastWrittenPayload := if payloadChanged then targetPayload else f.lastWrittenPayload }
  let (f, obs) :=
    if cfg.dryRun then (written, [])
    else
      let (ok, obs) :=
        vencApply now .assert target (if payloadChanged then targetPayload else -1) answer
      (if ok then written else f, obs)
  (if 0 < cfg.fec.bitrateGraceS
    then { f with ctrl := f.ctrl.armSettle now cfg.fec.bitrateGraceS } else f, obs)

/-- `bitrate_assert`; `answer` is venc's, should it be asked. -/
def bitrateAssert (radio : RadioState) (cfg : Config) (f : FecState) (now : ℕ) (answer : Bool) :
    FecState × List Obs :=
  match f.ctrl.current with
  | none => (f, [])
  | some cur =>
      if !cfg.fec.enabled || !radio.valid then (f, [])
      else
        let (target, payload) := assertTarget cfg.fec radio.phyMbps cur
        if assertWrites cfg.fec f target now then
          let (f, obs) := assertWrite cfg f target payload now answer
          (f, .asserted now target :: obs)
        else (f, [.asserted now target])

end Waybeam.Vehicle
