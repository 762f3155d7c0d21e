/-
# `Waybeam.Vehicle.Config` — the link controller's configuration and its tunables

The fields of `Config` that the modelled functions read, grouped as in the source:

    fec    sizing, gating, link budget, payload sizing, airtime, startup, backpressure
    mcs    selector law, RSSI guard-rails, pressure escape, flap damping
    cmd    the operator command proxy

Endpoints are left out, the ports that switch a subsystem off are kept.  `TUNABLES` is the
registry behind `/set`: every row has its dotted name, its field and the range its value
is checked against.  `Config.InRange` collects the ranges the proofs need.
-/
import Mathlib.Data.Rat.Floor
import Mathlib.Tactic.NormNum

namespace Waybeam.Vehicle

/-- RSSI aggregator across antennas. -/
inductive RssiAggregator where
  | bestAvg
  | bestMax
  | meanAvg
  deriving DecidableEq, Repr

/-- `cfg.fec`. -/
structure FecConfig where
  mtu : ℤ := 1446
  minK : ℤ := 4
  maxK : ℤ := 48
  minN : ℤ := 6
  maxN : ℤ := 72
  ewmaAlpha : ℚ := 5 / 100
  headroomMin : ℚ := 105 / 100
  headroomMax : ℚ := 140 / 100
  headroomMargin : ℚ := 105 / 100
  headroomWindowS : ℚ := 5 / 2
  ppfDeadbandFrac : ℚ := 15 / 100
  kHystUp : ℤ := 2
  cooldownUpS : ℚ := 1
  kDownDwellS : ℚ := 8
  kUpDwellS : ℚ := 2
  startupGraceS : ℚ := 2
  safetyMargin : ℚ := 1 / 2
  bitrateMinKbps : ℤ := 2200
  bitrateMaxKbps : ℤ := 0
  bitrateTolerance : ℚ := 15 / 100
  bitrateGraceS : ℚ := 2
  mcsSettleS : ℚ := 5
  bitrateLeadS : ℚ := 1 / 2
  mcsUpGraceS : ℚ := 1 / 4
  subscribeS : ℚ := 2
  radioPollS : ℚ := 1
  wfbStatsPort : ℕ := 0
  enabled : Bool := true
  payloadMax : ℤ := 0
  payloadMin : ℤ := 576
  airtimeMaxPct : ℤ := 80
  airtimePreambleUs : ℤ := 40
  safeStartupEnabled : Bool := true
  safeStartupBitrateKbps : ℤ := 1500
  safeStartupPayload : ℤ := 1400
  skipOnBackpressure : Bool := true
  backpressureFillPct : ℤ := 80
  blocksizeFeedforward : Bool := true
  ffCooldownS : ℚ := 15 / 100
  backpressureRecoverS : ℚ := 3

/-- `cfg.mcs`. -/
structure McsConfig where
  rssiEwmaAlpha : ℚ := 3 / 10
  lossEwmaAlpha : ℚ := 3 / 10
  rssiAggregator : RssiAggregator := .bestAvg
  downCooldownS : ℚ := 1 / 5
  failsafeTimeoutS : ℚ := 1 / 2
  oscillationWindowS : ℚ := 5
  mcsMin : ℤ := 0
  mcsMax : ℤ := 5
  enabled : Bool := true
  probeCleanMilli : ℤ := 20
  probeFailMilli : ℤ := 200
  demotePerMilli : ℤ := 80
  promoteDwellS : ℚ := 1 / 2
  probeStaleAgeS : ℚ := 1
  rssiFloorDbm : ℚ := -85
  rssiFadeDbPerS : ℚ := 10
  rssiFadeArmDbm : ℚ := -65
  rssiFloorHystDb : ℚ := 6
  pressureDemoteBlock : Bool := true
  pressureEscapeS : ℚ := 2
  reentryBackoffS : ℚ := 5
  reentryDwellS : ℚ := 2
  flapFreezeCount : ℤ := 3
  flapFreezeWindowS : ℚ := 10
  flapFreezeS : ℚ := 10

/-- `cfg.cmd`, with the adapter name reduced to whether there is one. -/
structure CmdConfig where
  enabled : Bool := true
  loopbackOnly : Bool := false
  rateLimitMs : ℤ := 100
  allowKeysMask : ℤ := 0x8FFFF
  bitrateMinKbps : ℤ := 100
  bitrateMaxKbps : ℤ := 25000
  fpsMin : ℤ := 1
  fpsMax : ℤ := 240
  payloadMin : ℤ := 576
  payloadMax : ℤ := 1474
  wfbFecKMin : ℤ := 1
  wfbFecKMax : ℤ := 64
  wfbFecNMin : ℤ := 1
  wfbFecNMax : ℤ := 96
  wfbMcsMin : ℤ := 0
  wfbMcsMax : ℤ := 11
  wfbBandwidthMin : ℤ := 5
  wfbBandwidthMax : ℤ := 80
  wfbTxpowerMin : ℤ := 50
  wfbTxpowerMax : ℤ := 3000
  hasIface : Bool := false
  txPwrByRate : Bool := false

/-- `Config`; the defaults are those of `config_defaults`. -/
structure Config where
  fec : FecConfig := {}
  mcs : McsConfig := {}
  cmd : CmdConfig := {}
  /-- `recovery.enabled` with a hook command set -/
  recoveryHook : Bool := true
  probePort : ℕ := 0
  dryRun : Bool := false

/-! ## The tunable registry -/

/-- A value as `/set` carries it, already parsed. -/
inductive TunableVal where
  | int (v : ℤ)
  | float (v : ℚ)
  | bool (v : Bool)

/-- The field a row writes: the source's type tag and offset. -/
inductive TunableField where
  | int (set : ℤ → Config → Config)
  | long (set : ℤ → Config → Config)
  | float (set : ℚ → Config → Config)
  | bool (set : Bool → Config → Config)

/-- One row of the registry. -/
structure TunableDesc where
  name : String
  field : TunableField
  lo : ℚ
  hi : ℚ

/-- The range check, off when `lo = hi`. -/
def TunableDesc.admits (t : TunableDesc) (v : ℚ) : Bool :=
  decide (t.lo = t.hi) || (decide (t.lo ≤ v) && decide (v ≤ t.hi))

/-- `tunable_write`; `none` when the value has the wrong type or is out of range. -/
def tunableWrite (t : TunableDesc) (c : Config) : TunableVal → Option Config
  | .int v =>
      match t.field with
      | .int set =>
          if t.admits v && decide (-2147483648 ≤ v) && decide (v ≤ 2147483647)
          then some (set v c) else none
      | .long set => if t.admits v then some (set v c) else none
      -- `strtod` reads a decimal integer too
      | .float set => if t.admits v then some (set v c) else none
      | .bool set => if v = 1 then some (set true c) else if v = 0 then some (set false c) else none
  | .float v =>
      match t.field with
      | .float set => if t.admits v then some (set v c) else none
      | _ => none
  | .bool v =>
      match t.field with
      | .bool set => some (set v c)
      | _ => none

private def fecInt (name : String) (set : ℤ → FecConfig → FecConfig) (lo hi : ℚ) : TunableDesc :=
  ⟨"fec." ++ name, .int fun v c => { c with fec := set v c.fec }, lo, hi⟩

private def fecLong (name : String) (set : ℤ → FecConfig → FecConfig) (lo hi : ℚ) : TunableDesc :=
  ⟨"fec." ++ name, .long fun v c => { c with fec := set v c.fec }, lo, hi⟩

private def fecFloat (name : String) (set : ℚ → FecConfig → FecConfig) (lo hi : ℚ) : TunableDesc :=
  ⟨"fec." ++ name, .float fun v c => { c with fec := set v c.fec }, lo, hi⟩

private def fecBool (name : String) (set : Bool → FecConfig → FecConfig) : TunableDesc :=
  ⟨"fec." ++ name, .bool fun v c => { c with fec := set v c.fec }, 0, 0⟩

private def mcsInt (name : String) (set : ℤ → McsConfig → McsConfig) (lo hi : ℚ) : TunableDesc :=
  ⟨"mcs." ++ name, .int fun v c => { c with mcs := set v c.mcs }, lo, hi⟩

private def mcsFloat (name : String) (set : ℚ → McsConfig → McsConfig) (lo hi : ℚ) : TunableDesc :=
  ⟨"mcs." ++ name, .float fun v c => { c with mcs := set v c.mcs }, lo, hi⟩

private def mcsBool (name : String) (set : Bool → McsConfig → McsConfig) : TunableDesc :=
  ⟨"mcs." ++ name, .bool fun v c => { c with mcs := set v c.mcs }, 0, 0⟩

private def cmdInt (name : String) (set : ℤ → CmdConfig → CmdConfig) (lo hi : ℚ) : TunableDesc :=
  ⟨"cmd." ++ name, .int fun v c => { c with cmd := set v c.cmd }, lo, hi⟩

private def cmdBool (name : String) (set : Bool → CmdConfig → CmdConfig) : TunableDesc :=
  ⟨"cmd." ++ name, .bool fun v c => { c with cmd := set v c.cmd }, 0, 0⟩

/-- The aggregator is stored as the integer `0`, `1` or `2`. -/
def RssiAggregator.ofInt (v : ℤ) : RssiAggregator :=
  if v = 1 then .bestMax else if v = 2 then .meanAvg else .bestAvg

/-- The rows of `fec`. -/
def fecTunables : List TunableDesc :=
  [ fecBool "enabled" fun v c => { c with enabled := v },
    fecInt "mtu" (fun v c => { c with mtu := v }) 100 65000,
    fecInt "min_k" (fun v c => { c with minK := v }) 1 256,
    fecInt "max_k" (fun v c => { c with maxK := v }) 1 256,
    fecInt "min_n" (fun v c => { c with minN := v }) 1 256,
    fecInt "max_n" (fun v c => { c with maxN := v }) 1 256,
    fecFloat "ewma_alpha" (fun v c => { c with ewmaAlpha := v }) (1 / 1000) 1,
    fecFloat "headroom_min" (fun v c => { c with headroomMin := v }) 1 4,
    fecFloat "headroom_max" (fun v c => { c with headroomMax := v }) 1 4,
    fecFloat "headroom_margin" (fun v c => { c with headroomMargin := v }) 1 4,
    fecFloat "headroom_window_s" (fun v c => { c with headroomWindowS := v }) (1 / 10) 60,
    fecFloat "ppf_deadband_frac" (fun v c => { c with ppfDeadbandFrac := v }) 0 1,
    fecInt "k_hyst_up" (fun v c => { c with kHystUp := v }) 1 64,
    fecFloat "cooldown_up_s" (fun v c => { c with cooldownUpS := v }) 0 60,
    fecFloat "k_down_dwell_s" (fun v c => { c with kDownDwellS := v }) 0 600,
    fecFloat "k_up_dwell_s" (fun v c => { c with kUpDwellS := v }) 0 600,
    fecFloat "startup_grace_s" (fun v c => { c with startupGraceS := v }) 0 60,
    fecFloat "safety_margin" (fun v c => { c with safetyMargin := v }) (5 / 100) 1,
    fecLong "bitrate_min_kbps" (fun v c => { c with bitrateMinKbps := v }) 100 200000,
    fecLong "bitrate_max_kbps" (fun v c => { c with bitrateMaxKbps := v }) 0 200000,
    fecFloat "bitrate_tolerance" (fun v c => { c with bitrateTolerance := v }) 0 1,
    fecFloat "bitrate_grace_s" (fun v c => { c with bitrateGraceS := v }) 0 60,
    fecFloat "mcs_settle_s" (fun v c => { c with mcsSettleS := v }) 0 60,
    fecFloat "bitrate_lead_s" (fun v c => { c with bitrateLeadS := v }) 0 5,
    fecFloat "mcs_up_grace_s" (fun v c => { c with mcsUpGraceS := v }) 0 5,
    fecInt "payload_max" (fun v c => { c with payloadMax := v }) 0 4000,
    fecInt "payload_min" (fun v c => { c with payloadMin := v }) 576 4000,
    fecInt "airtime_max_pct" (fun v c => { c with airtimeMaxPct := v }) 0 100,
    fecInt "airtime_preamble_us" (fun v c => { c with airtimePreambleUs := v }) 0 200,
    fecBool "skip_on_backpressure" fun v c => { c with skipOnBackpressure := v },
    fecInt "backpressure_fill_pct" (fun v c => { c with backpressureFillPct := v }) 0 100,
    fecBool "blocksize_feedforward" fun v c => { c with blocksizeFeedforward := v },
    fecFloat "ff_cooldown_s" (fun v c => { c with ffCooldownS := v }) 0 10,
    fecFloat "backpressure_recover_s" (fun v c => { c with backpressureRecoverS := v }) 0 30 ]

/-- The rows of `mcs`. -/
def mcsTunables : List TunableDesc :=
  [ mcsBool "enabled" fun v c => { c with enabled := v },
    mcsFloat "rssi_ewma_alpha" (fun v c => { c with rssiEwmaAlpha := v }) (1 / 1000) 1,
    mcsFloat "loss_ewma_alpha" (fun v c => { c with lossEwmaAlpha := v }) (1 / 1000) 1,
    mcsInt "rssi_aggregator" (fun v c => { c with rssiAggregator := .ofInt v }) 0 2,
    mcsFloat "down_cooldown_s" (fun v c => { c with downCooldownS := v }) 0 60,
    mcsFloat "failsafe_timeout_s" (fun v c => { c with failsafeTimeoutS := v }) (5 / 100) 30,
    mcsFloat "oscillation_window_s" (fun v c => { c with oscillationWindowS := v }) (1 / 2) 60,
    mcsInt "mcs_min" (fun v c => { c with mcsMin := v }) 0 11,
    mcsInt "mcs_max" (fun v c => { c with mcsMax := v }) 0 11,
    mcsFloat "rssi_floor_dbm" (fun v c => { c with rssiFloorDbm := v }) (-120) 0,
    mcsFloat "rssi_fade_db_per_s" (fun v c => { c with rssiFadeDbPerS := v }) 0 60,
    mcsFloat "rssi_fade_arm_dbm" (fun v c => { c with rssiFadeArmDbm := v }) (-120) 0,
    mcsFloat "rssi_floor_hyst_db" (fun v c => { c with rssiFloorHystDb := v }) 0 20,
    mcsBool "pressure_demote_block" fun v c => { c with pressureDemoteBlock := v },
    mcsFloat "pressure_escape_s" (fun v c => { c with pressureEscapeS := v }) 0 30,
    mcsFloat "reentry_backoff_s" (fun v c => { c with reentryBackoffS := v }) 0 120,
    mcsFloat "reentry_dwell_s" (fun v c => { c with reentryDwellS := v }) 0 30,
    mcsInt "flap_freeze_count" (fun v c => { c with flapFreezeCount := v }) 0 50,
    mcsFloat "flap_freeze_window_s" (fun v c => { c with flapFreezeWindowS := v }) (1 / 2) 30,
    mcsFloat "flap_freeze_s" (fun v c => { c with flapFreezeS := v }) 0 120,
    mcsInt "probe_clean_milli" (fun v c => { c with probeCleanMilli := v }) 0 1000,
    mcsInt "probe_fail_milli" (fun v c => { c with probeFailMilli := v }) 0 1000,
    mcsInt "demote_per_milli" (fun v c => { c with demotePerMilli := v }) 0 1000,
    mcsFloat "promote_dwell_s" (fun v c => { c with promoteDwellS := v }) 0 60,
    mcsFloat "probe_stale_age_s" (fun v c => { c with probeStaleAgeS := v }) (1 / 10) 30 ]

/-- The rows of `cmd`. -/
def cmdTunables : List TunableDesc :=
  [ cmdBool "enabled" fun v c => { c with enabled := v },
    cmdBool "loopback_only" fun v c => { c with loopbackOnly := v },
    cmdInt "rate_limit_ms" (fun v c => { c with rateLimitMs := v }) 0 60000,
    cmdInt "allow_keys_mask" (fun v c => { c with allowKeysMask := v }) 0 0xFFFFF,
    cmdInt "bitrate_min_kbps" (fun v c => { c with bitrateMinKbps := v }) 1 200000,
    cmdInt "bitrate_max_kbps" (fun v c => { c with bitrateMaxKbps := v }) 1 200000,
    cmdInt "fps_min" (fun v c => { c with fpsMin := v }) 1 240,
    cmdInt "fps_max" (fun v c => { c with fpsMax := v }) 1 240,
    cmdInt "payload_min" (fun v c => { c with payloadMin := v }) 256 4000,
    cmdInt "payload_max" (fun v c => { c with payloadMax := v }) 256 4000,
    cmdInt "wfb_fec_k_min" (fun v c => { c with wfbFecKMin := v }) 1 256,
    cmdInt "wfb_fec_k_max" (fun v c => { c with wfbFecKMax := v }) 1 256,
    cmdInt "wfb_fec_n_min" (fun v c => { c with wfbFecNMin := v }) 1 256,
    cmdInt "wfb_fec_n_max" (fun v c => { c with wfbFecNMax := v }) 1 256,
    cmdInt "wfb_mcs_min" (fun v c => { c with wfbMcsMin := v }) 0 31,
    cmdInt "wfb_mcs_max" (fun v c => { c with wfbMcsMax := v }) 0 31,
    cmdInt "wfb_bandwidth_min" (fun v c => { c with wfbBandwidthMin := v }) 5 80,
    cmdInt "wfb_bandwidth_max" (fun v c => { c with wfbBandwidthMax := v }) 5 80,
    cmdInt "wfb_txpower_min" (fun v c => { c with wfbTxpowerMin := v }) 1 4000,
    cmdInt "wfb_txpower_max" (fun v c => { c with wfbTxpowerMax := v }) 1 4000,
    cmdBool "tx_pwr_by_rate" fun v c => { c with txPwrByRate := v } ]

/-- `TUNABLES`. -/
def TUNABLES : List TunableDesc :=
  ⟨"common.dry_run", .bool fun v c => { c with dryRun := v }, 0, 0⟩ ::
    (fecTunables ++ mcsTunables ++ cmdTunables)

/-- `tunable_find`. -/
def tunableFind (name : String) : Option TunableDesc := TUNABLES.find? (·.name = name)

/-- `apply_query`: every pair is looked up, checked and written on its own. -/
def applyQuery (c : Config) (qs : List (String × TunableVal)) : Config :=
  qs.foldl (fun c q => ((tunableFind q.1).bind (tunableWrite · c q.2)).getD c) c

/-! ## Ranges the proofs rely on -/

/-- The ranges of the fields the control law converts to bytes or divides a budget by. -/
structure Config.InRange (c : Config) : Prop where
  mcsMin : 0 ≤ c.mcs.mcsMin ∧ c.mcs.mcsMin ≤ 11
  mcsMax : 0 ≤ c.mcs.mcsMax ∧ c.mcs.mcsMax ≤ 11
  bitrateMin : 100 ≤ c.fec.bitrateMinKbps
  tolerance : 0 ≤ c.fec.bitrateTolerance

/-- The defaults are in range. -/
theorem Config.default_inRange : ({} : Config).InRange where
  mcsMin := by decide
  mcsMax := by decide
  bitrateMin := by decide
  tolerance := by norm_num

theorem TunableDesc.admits_iff (t : TunableDesc) (v : ℚ) :
    t.admits v = true ↔ t.lo = t.hi ∨ (t.lo ≤ v ∧ v ≤ t.hi) := by
  simp [TunableDesc.admits]

/-- What a row must do to a value it admits for `P` to survive the write. -/
def TunableDesc.Preserves (P : Config → Prop) (t : TunableDesc) : Prop :=
  match t.field with
  | .int set | .long set =>
      ∀ (v : ℤ) (c : Config), t.lo = t.hi ∨ (t.lo ≤ v ∧ v ≤ t.hi) → P c → P (set v c)
  | .float set =>
      ∀ (v : ℚ) (c : Config), t.lo = t.hi ∨ (t.lo ≤ v ∧ v ≤ t.hi) → P c → P (set v c)
  | .bool set => ∀ (v : Bool) (c : Config), P c → P (set v c)

/-- A row that preserves `P`, written through the checks. -/
theorem tunableWrite_preserves {P : Config → Prop} {t : TunableDesc} (ht : t.Preserves P)
    {c c' : Config} {v : TunableVal} (hc : P c) (h : tunableWrite t c v = some c') : P c' := by
  obtain ⟨name, field, lo, hi⟩ := t
  cases field <;> cases v <;>
    simp only [tunableWrite, TunableDesc.Preserves, Option.ite_none_right_eq_some,
      Option.some.injEq, Bool.and_eq_true, TunableDesc.admits_iff, reduceCtorEq] at h ht
  case int.int set v => exact h.2 ▸ ht v c h.1.1.1 hc
  case long.int set v => exact h.2 ▸ ht v c h.1 hc
  case float.int set v => exact h.2 ▸ ht v c h.1 hc
  case float.float set v => exact h.2 ▸ ht v c h.1 hc
  case bool.bool set v => exact h ▸ ht v c hc
  case bool.int set v =>
      split_ifs at h
      · exact Option.some.inj h ▸ ht true c hc
      · exact Option.some.inj h ▸ ht false c hc

/-- What every row preserves, any sequence of writes preserves. -/
theorem applyQuery_preserves {P : Config → Prop} (ht : ∀ t ∈ TUNABLES, t.Preserves P) {c : Config}
    (hc : P c) (qs : List (String × TunableVal)) : P (applyQuery c qs) := by
  induction qs generalizing c with
  | nil => exact hc
  | cons q qs ih =>
      refine ih ?_
      show P (((tunableFind q.1).bind (tunableWrite · c q.2)).getD c)
      rcases hfind : tunableFind q.1 with _ | t
      · exact hc
      · rcases hw : tunableWrite t c q.2 with _ | c'
        · simpa only [Option.bind_some, hw, Option.getD_none] using hc
        · simpa only [Option.bind_some, hw, Option.getD_some] using
            tunableWrite_preserves (ht t (List.mem_of_find?_eq_some hfind)) hc hw

/-- Every row keeps the ranges: three of them by their own bounds, the rest because they
write another field. -/
theorem TUNABLES_keep : ∀ t ∈ TUNABLES, t.Preserves Config.InRange := by
  rw [← List.forall_iff_forall_mem]
  simp only [TUNABLES, fecTunables, mcsTunables, cmdTunables, List.cons_append, List.nil_append,
    List.forall_cons, List.Forall]
  repeat' apply And.intro
  all_goals first
    | exact fun _ _ hc => ⟨hc.mcsMin, hc.mcsMax, hc.bitrateMin, hc.tolerance⟩
    | exact fun _ _ _ hc => ⟨hc.mcsMin, hc.mcsMax, hc.bitrateMin, hc.tolerance⟩
    | exact fun v _ hv hc =>
        have h : (100 : ℚ) ≤ v := (hv.resolve_left (by decide)).1
        ⟨hc.mcsMin, hc.mcsMax, by exact_mod_cast h, hc.tolerance⟩
    | exact fun v _ hv hc =>
        ⟨hc.mcsMin, hc.mcsMax, hc.bitrateMin, (hv.resolve_left (by decide)).1⟩
    | exact fun v _ hv hc =>
        have h : (0 : ℚ) ≤ v ∧ (v : ℚ) ≤ 11 := hv.resolve_left (by decide)
        ⟨by exact_mod_cast h, hc.mcsMax, hc.bitrateMin, hc.tolerance⟩
    | exact fun v _ hv hc =>
        have h : (0 : ℚ) ≤ v ∧ (v : ℚ) ≤ 11 := hv.resolve_left (by decide)
        ⟨hc.mcsMin, by exact_mod_cast h, hc.bitrateMin, hc.tolerance⟩

/-- The ranges of the limits a block size is clamped to. -/
structure Config.FecRange (c : Config) : Prop where
  minK : 1 ≤ c.fec.minK ∧ c.fec.minK ≤ 256
  maxK : 1 ≤ c.fec.maxK ∧ c.fec.maxK ≤ 256
  minN : 1 ≤ c.fec.minN ∧ c.fec.minN ≤ 256
  maxN : 1 ≤ c.fec.maxN ∧ c.fec.maxN ≤ 256
  wfbFecKMin : 1 ≤ c.cmd.wfbFecKMin

theorem Config.default_fecRange : ({} : Config).FecRange where
  minK := by decide
  maxK := by decide
  minN := by decide
  maxN := by decide
  wfbFecKMin := by decide

/-- Every row keeps the limits in range. -/
theorem TUNABLES_fecRange : ∀ t ∈ TUNABLES, t.Preserves Config.FecRange := by
  have hlimit {v : ℤ} (hv : (1 : ℚ) = 256 ∨ (1 : ℚ) ≤ v ∧ (v : ℚ) ≤ 256) : 1 ≤ v ∧ v ≤ 256 := by
    have h := hv.resolve_left (by norm_num)
    exact_mod_cast h
  rw [← List.forall_iff_forall_mem]
  simp only [TUNABLES, fecTunables, mcsTunables, cmdTunables, List.cons_append, List.nil_append,
    List.forall_cons, List.Forall]
  repeat' apply And.intro
  all_goals first
    | exact fun _ _ hc => ⟨hc.minK, hc.maxK, hc.minN, hc.maxN, hc.wfbFecKMin⟩
    | exact fun _ _ _ hc => ⟨hc.minK, hc.maxK, hc.minN, hc.maxN, hc.wfbFecKMin⟩
    | exact fun _ _ hv hc => ⟨hlimit hv, hc.maxK, hc.minN, hc.maxN, hc.wfbFecKMin⟩
    | exact fun _ _ hv hc => ⟨hc.minK, hlimit hv, hc.minN, hc.maxN, hc.wfbFecKMin⟩
    | exact fun _ _ hv hc => ⟨hc.minK, hc.maxK, hlimit hv, hc.maxN, hc.wfbFecKMin⟩
    | exact fun _ _ hv hc => ⟨hc.minK, hc.maxK, hc.minN, hlimit hv, hc.wfbFecKMin⟩
    | exact fun _ _ hv hc => ⟨hc.minK, hc.maxK, hc.minN, hc.maxN, (hlimit hv).1⟩

end Waybeam.Vehicle
