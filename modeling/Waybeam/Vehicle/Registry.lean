/-
# `Waybeam.Vehicle.Registry` — every tunable, and how a query string writes it

`GET /set?key=value&..` goes through one table.  A row has a dotted name, the type and the
place of its field in `Config`, and the range of its value (`lo = hi` checks nothing):

    parse_strict_*   the whole text has to be the value; `nan` and `inf` are none
    tunable_write    parse, range, then a store through the row's offset
    tunable_find     the row whose name is the key
    apply_query      cuts the query at `&` and `=`; a bad pair is reported and passed over

The configuration is a memory here: a cell for each field.  That a store hits the field of its
row and no other is that no two rows have one offset, and it is the table as a whole that keeps
the ranges.  A `float` keeps the number it is given.
-/
import Mathlib.Data.List.Induction
import Mathlib.Data.List.Nodup
import Mathlib.Data.List.TakeWhile
import Mathlib.Logic.Function.Basic
import Mathlib.Tactic.NormNum
import Waybeam.Scrape
import Waybeam.Strtod

namespace Waybeam.Vehicle.Registry

open Text

/-! ## The table -/

/-- `TunableType` -/
inductive TunableType where
  | int | long | float | bool
  deriving DecidableEq

/-- Members of `fec` that a row writes. -/
inductive FecField where
  | enabled | mtu | minK | maxK | minN | maxN | ewmaAlpha | headroomMin | headroomMax
  | headroomMargin | headroomWindowS | ppfDeadbandFrac | kHystUp | cooldownUpS | kDownDwellS
  | kUpDwellS | startupGraceS | safetyMargin | bitrateMinKbps | bitrateMaxKbps | bitrateTolerance
  | bitrateGraceS | mcsSettleS | bitrateLeadS | mcsUpGraceS | payloadMax | payloadMin
  | airtimeMaxPct | airtimePreambleUs | skipOnBackpressure | backpressureFillPct | desyncProbe
  | blocksizeFeedforward | ffCooldownS | backpressureRecoverS
  deriving DecidableEq

/-- Members of `mcs`. -/
inductive McsField where
  | enabled | rssiEwmaAlpha | lossEwmaAlpha | rssiAggregator | downCooldownS | failsafeTimeoutS
  | oscillationWindowS | mcsMin | mcsMax | rssiFloorDbm | rssiFadeDbPerS | rssiFadeArmDbm
  | rssiFloorHystDb | pressureDemoteBlock | pressureEscapeS | reentryBackoffS | reentryDwellS
  | flapFreezeCount | flapFreezeWindowS | flapFreezeS | probeCleanMilli | probeFailMilli
  | demotePerMilli | promoteDwellS | probeWindowS | probeStaleAgeS | probeFeedPps
  | probeFeedBytes
  deriving DecidableEq

/-- Members of `cmd`. -/
inductive CmdField where
  | enabled | loopbackOnly | rateLimitMs | allowKeysMask | bitrateMinKbps | bitrateMaxKbps
  | fpsMin | fpsMax | payloadMin | payloadMax | wfbFecKMin | wfbFecKMax | wfbFecNMin | wfbFecNMax
  | wfbMcsMin | wfbMcsMax | wfbBandwidthMin | wfbBandwidthMax | wfbTxpowerMin | wfbTxpowerMax
  | txPwrByRate
  deriving DecidableEq

/-- Where a field stands in `Config`. -/
inductive Offset where
  | apiPort | dryRun | verbose
  | fec (f : FecField)
  | mcs (f : McsField)
  | cmd (f : CmdField)
  deriving DecidableEq

/-- `TunableDesc`, without what only `/schema` prints. -/
structure TunableDesc where
  name : String
  type : TunableType
  offset : Offset
  lo : ℚ
  hi : ℚ
  deriving DecidableEq

/-- The rows of `common`. -/
def commonRows : List TunableDesc :=
  [ ⟨"common.api_port", .int, .apiPort, 0, 65535⟩,
    ⟨"common.dry_run", .bool, .dryRun, 0, 0⟩,
    ⟨"common.verbose", .int, .verbose, 0, 4⟩ ]

/-- The rows of `fec`. -/
def fecRows : List TunableDesc :=
  [ ⟨"fec.enabled", .bool, .fec .enabled, 0, 0⟩,
    ⟨"fec.mtu", .int, .fec .mtu, 100, 65000⟩,
    ⟨"fec.min_k", .int, .fec .minK, 1, 256⟩,
    ⟨"fec.max_k", .int, .fec .maxK, 1, 256⟩,
    ⟨"fec.min_n", .int, .fec .minN, 1, 256⟩,
    ⟨"fec.max_n", .int, .fec .maxN, 1, 256⟩,
    ⟨"fec.ewma_alpha", .float, .fec .ewmaAlpha, 0.001, 1.0⟩,
    ⟨"fec.headroom_min", .float, .fec .headroomMin, 1.0, 4.0⟩,
    ⟨"fec.headroom_max", .float, .fec .headroomMax, 1.0, 4.0⟩,
    ⟨"fec.headroom_margin", .float, .fec .headroomMargin, 1.0, 4.0⟩,
    ⟨"fec.headroom_window_s", .float, .fec .headroomWindowS, 0.1, 60.0⟩,
    ⟨"fec.ppf_deadband_frac", .float, .fec .ppfDeadbandFrac, 0.0, 1.0⟩,
    ⟨"fec.k_hyst_up", .int, .fec .kHystUp, 1, 64⟩,
    ⟨"fec.cooldown_up_s", .float, .fec .cooldownUpS, 0.0, 60.0⟩,
    ⟨"fec.k_down_dwell_s", .float, .fec .kDownDwellS, 0.0, 600.0⟩,
    ⟨"fec.k_up_dwell_s", .float, .fec .kUpDwellS, 0.0, 600.0⟩,
    ⟨"fec.startup_grace_s", .float, .fec .startupGraceS, 0.0, 60.0⟩,
    ⟨"fec.safety_margin", .float, .fec .safetyMargin, 0.05, 1.0⟩,
    ⟨"fec.bitrate_min_kbps", .long, .fec .bitrateMinKbps, 100, 200000⟩,
    ⟨"fec.bitrate_max_kbps", .long, .fec .bitrateMaxKbps, 0, 200000⟩,
    ⟨"fec.bitrate_tolerance", .float, .fec .bitrateTolerance, 0.0, 1.0⟩,
    ⟨"fec.bitrate_grace_s", .float, .fec .bitrateGraceS, 0.0, 60.0⟩,
    ⟨"fec.mcs_settle_s", .float, .fec .mcsSettleS, 0.0, 60.0⟩,
    ⟨"fec.bitrate_lead_s", .float, .fec .bitrateLeadS, 0.0, 5.0⟩,
    ⟨"fec.mcs_up_grace_s", .float, .fec .mcsUpGraceS, 0.0, 5.0⟩,
    ⟨"fec.payload_max", .int, .fec .payloadMax, 0, 4000⟩,
    ⟨"fec.payload_min", .int, .fec .payloadMin, 576, 4000⟩,
    ⟨"fec.airtime_max_pct", .int, .fec .airtimeMaxPct, 0, 100⟩,
    ⟨"fec.airtime_preamble_us", .int, .fec .airtimePreambleUs, 0, 200⟩,
    ⟨"fec.skip_on_backpressure", .bool, .fec .skipOnBackpressure, 0, 0⟩,
    ⟨"fec.backpressure_fill_pct", .int, .fec .backpressureFillPct, 0, 100⟩,
    ⟨"fec.desync_probe", .bool, .fec .desyncProbe, 0, 0⟩,
    ⟨"fec.blocksize_feedforward", .bool, .fec .blocksizeFeedforward, 0, 0⟩,
    ⟨"fec.ff_cooldown_s", .float, .fec .ffCooldownS, 0.0, 10.0⟩,
    ⟨"fec.backpressure_recover_s", .float, .fec .backpressureRecoverS, 0.0, 30.0⟩ ]

/-- The rows of `mcs`. -/
def mcsRows : List TunableDesc :=
  [ ⟨"mcs.enabled", .bool, .mcs .enabled, 0, 0⟩,
    ⟨"mcs.rssi_ewma_alpha", .float, .mcs .rssiEwmaAlpha, 0.001, 1.0⟩,
    ⟨"mcs.loss_ewma_alpha", .float, .mcs .lossEwmaAlpha, 0.001, 1.0⟩,
    ⟨"mcs.rssi_aggregator", .int, .mcs .rssiAggregator, 0, 2⟩,
    ⟨"mcs.down_cooldown_s", .float, .mcs .downCooldownS, 0.0, 60.0⟩,
    ⟨"mcs.failsafe_timeout_s", .float, .mcs .failsafeTimeoutS, 0.05, 30.0⟩,
    ⟨"mcs.oscillation_window_s", .float, .mcs .oscillationWindowS, 0.5, 60.0⟩,
    ⟨"mcs.mcs_min", .int, .mcs .mcsMin, 0, 11⟩,
    ⟨"mcs.mcs_max", .int, .mcs .mcsMax, 0, 11⟩,
    ⟨"mcs.rssi_floor_dbm", .float, .mcs .rssiFloorDbm, -120.0, 0.0⟩,
    ⟨"mcs.rssi_fade_db_per_s", .float, .mcs .rssiFadeDbPerS, 0.0, 60.0⟩,
    ⟨"mcs.rssi_fade_arm_dbm", .float, .mcs .rssiFadeArmDbm, -120.0, 0.0⟩,
    ⟨"mcs.rssi_floor_hyst_db", .float, .mcs .rssiFloorHystDb, 0.0, 20.0⟩,
    ⟨"mcs.pressure_demote_block", .bool, .mcs .pressureDemoteBlock, 0, 0⟩,
    ⟨"mcs.pressure_escape_s", .float, .mcs .pressureEscapeS, 0.0, 30.0⟩,
    ⟨"mcs.reentry_backoff_s", .float, .mcs .reentryBackoffS, 0.0, 120.0⟩,
    ⟨"mcs.reentry_dwell_s", .float, .mcs .reentryDwellS, 0.0, 30.0⟩,
    ⟨"mcs.flap_freeze_count", .int, .mcs .flapFreezeCount, 0, 50⟩,
    ⟨"mcs.flap_freeze_window_s", .float, .mcs .flapFreezeWindowS, 0.5, 30.0⟩,
    ⟨"mcs.flap_freeze_s", .float, .mcs .flapFreezeS, 0.0, 120.0⟩,
    ⟨"mcs.probe_clean_milli", .int, .mcs .probeCleanMilli, 0, 1000⟩,
    ⟨"mcs.probe_fail_milli", .int, .mcs .probeFailMilli, 0, 1000⟩,
    ⟨"mcs.demote_per_milli", .int, .mcs .demotePerMilli, 0, 1000⟩,
    ⟨"mcs.promote_dwell_s", .float, .mcs .promoteDwellS, 0.0, 60.0⟩,
    ⟨"mcs.probe_window_s", .float, .mcs .probeWindowS, 0.05, 10.0⟩,
    ⟨"mcs.probe_stale_age_s", .float, .mcs .probeStaleAgeS, 0.1, 30.0⟩,
    ⟨"mcs.probe_feed_pps", .int, .mcs .probeFeedPps, 1, 200⟩,
    ⟨"mcs.probe_feed_bytes", .int, .mcs .probeFeedBytes, 64, 1472⟩ ]

/-- The rows of `cmd`. -/
def cmdRows : List TunableDesc :=
  [ ⟨"cmd.enabled", .bool, .cmd .enabled, 0, 0⟩,
    ⟨"cmd.loopback_only", .bool, .cmd .loopbackOnly, 0, 0⟩,
    ⟨"cmd.rate_limit_ms", .int, .cmd .rateLimitMs, 0, 60000⟩,
    ⟨"cmd.allow_keys_mask", .int, .cmd .allowKeysMask, 0, 0xFFFFF⟩,
    ⟨"cmd.bitrate_min_kbps", .int, .cmd .bitrateMinKbps, 1, 200000⟩,
    ⟨"cmd.bitrate_max_kbps", .int, .cmd .bitrateMaxKbps, 1, 200000⟩,
    ⟨"cmd.fps_min", .int, .cmd .fpsMin, 1, 240⟩,
    ⟨"cmd.fps_max", .int, .cmd .fpsMax, 1, 240⟩,
    ⟨"cmd.payload_min", .int, .cmd .payloadMin, 256, 4000⟩,
    ⟨"cmd.payload_max", .int, .cmd .payloadMax, 256, 4000⟩,
    ⟨"cmd.wfb_fec_k_min", .int, .cmd .wfbFecKMin, 1, 256⟩,
    ⟨"cmd.wfb_fec_k_max", .int, .cmd .wfbFecKMax, 1, 256⟩,
    ⟨"cmd.wfb_fec_n_min", .int, .cmd .wfbFecNMin, 1, 256⟩,
    ⟨"cmd.wfb_fec_n_max", .int, .cmd .wfbFecNMax, 1, 256⟩,
    ⟨"cmd.wfb_mcs_min", .int, .cmd .wfbMcsMin, 0, 31⟩,
    ⟨"cmd.wfb_mcs_max", .int, .cmd .wfbMcsMax, 0, 31⟩,
    ⟨"cmd.wfb_bandwidth_min", .int, .cmd .wfbBandwidthMin, 5, 80⟩,
    ⟨"cmd.wfb_bandwidth_max", .int, .cmd .wfbBandwidthMax, 5, 80⟩,
    ⟨"cmd.wfb_txpower_min", .int, .cmd .wfbTxpowerMin, 1, 4000⟩,
    ⟨"cmd.wfb_txpower_max", .int, .cmd .wfbTxpowerMax, 1, 4000⟩,
    ⟨"cmd.tx_pwr_by_rate", .bool, .cmd .txPwrByRate, 0, 0⟩ ]

/-- `TUNABLES` -/
def TUNABLES : List TunableDesc := commonRows ++ fecRows ++ mcsRows ++ cmdRows

/-! ## Memory -/

/-- What stands at an offset. -/
inductive Cell where
  | int (v : ℤ)
  | long (v : ℤ)
  | float (v : ℚ)
  | bool (v : Bool)
  deriving DecidableEq

/-- `Config` -/
abbrev Mem := Offset → Cell

/-- The number in a cell, as `tunable_read` returns it. -/
def Cell.num : Cell → ℚ
  | .int v => v
  | .long v => v
  | .float v => v
  | .bool v => if v then 1 else 0

/-- The type of the field. -/
def Cell.type : Cell → TunableType
  | .int _ => .int
  | .long _ => .long
  | .float _ => .float
  | .bool _ => .bool

def tunableRead (t : TunableDesc) (c : Mem) : ℚ := (c t.offset).num

/-! ## Parsers -/

/-- What may stand behind a number. -/
def trailing (c : Char) : Bool := c = ' ' || c = '\t' || c = '\r' || c = '\n'

/-- `isfinite` -/
def finite : Dbl → Option ℚ
  | .fin v => if |v| < 2 ^ 1024 then some v else none
  | _ => none

/-- `parse_strict_double` -/
def parseStrictDouble (s : Bytes) : Option ℚ :=
  match strtod s with
  | none => none
  | some (v, rest) => if rest.dropWhile trailing ≠ [] then none else finite v

/-- `parse_strict_long` -/
def parseStrictLong (long : ℕ) (s : Bytes) : Option ℤ :=
  match readInt s with
  | none => none
  | some (v, rest) =>
      if rest.dropWhile trailing ≠ [] then none else some (clampLong long v)

def yesWords : List Bytes := ["1".toList, "true".toList, "yes".toList, "on".toList]

def noWords : List Bytes := ["0".toList, "false".toList, "no".toList, "off".toList]

/-- `parse_strict_bool` -/
def parseStrictBool (s : Bytes) : Option Bool :=
  if s.map Char.toLower ∈ yesWords then some true
  else if s.map Char.toLower ∈ noWords then some false
  else none

/-! ## Writing -/

/-- The range check, off where `lo = hi`. -/
def TunableDesc.inRange (t : TunableDesc) (v : ℚ) : Bool :=
  !(decide (t.lo ≠ t.hi) && (decide (v < t.lo) || decide (t.hi < v)))

/-- What `tunable_write` is about to store; `none` where it returns -1. -/
def tunableCell (long : ℕ) (t : TunableDesc) (val : Bytes) : Option Cell :=
  match t.type with
  | .int =>
      match parseStrictLong long val with
      | none => none
      | some v =>
          if t.inRange v = false then none
          else if v < -2 ^ 31 ∨ 2 ^ 31 - 1 < v then none
          else some (.int v)
  | .long =>
      match parseStrictLong long val with
      | none => none
      | some v => if t.inRange v = false then none else some (.long v)
  | .float =>
      match parseStrictDouble val with
      | none => none
      | some v => if t.inRange v = false then none else some (.float v)
  | .bool => (parseStrictBool val).map .bool

/-- `tunable_write` -/
def tunableWrite (long : ℕ) (t : TunableDesc) (c : Mem) (val : Bytes) : Option Mem :=
  (tunableCell long t val).map fun x => Function.update c t.offset x

/-- `tunable_find` -/
def tunableFind (name : Bytes) : Option TunableDesc :=
  TUNABLES.find? fun t => decide (t.name.toList = name)

/-! ## `apply_query` -/

/-- `reason` of an `ApiError` -/
inductive Reason where
  | unknown | noValue | outOfRange
  deriving DecidableEq

def Reason.text : Reason → String
  | .unknown => "unknown"
  | .noValue => "no_value"
  | .outOfRange => "out_of_range"

/-- What `apply_query` has done so far. -/
structure Report where
  cfg : Mem
  applied : List Bytes := []
  errors : List (Bytes × Reason) := []

/-- One more entry, while there is room. -/
def pushUpTo {α : Type} (maxKeys : ℕ) (l : List α) (a : α) : List α :=
  if l.length < maxKeys then l ++ [a] else l

/-- The key of a pair: up to the first `=`. -/
def keyOf (pair : Bytes) : Bytes := pair.takeWhile (· ≠ '=')

/-- The value of a pair, if there is an `=`. -/
def valOf (pair : Bytes) : Option Bytes :=
  if '=' ∈ pair then some (pair.drop ((keyOf pair).length + 1)) else none

/-- A turn of the loop. -/
def Report.take (long maxKeys : ℕ) (r : Report) (pair : Bytes) : Report :=
  match tunableFind (keyOf pair) with
  | none => { r with errors := pushUpTo maxKeys r.errors (keyOf pair, .unknown) }
  | some t =>
      match valOf pair with
      | none => { r with errors := pushUpTo maxKeys r.errors (keyOf pair, .noValue) }
      | some [] => { r with errors := pushUpTo maxKeys r.errors (keyOf pair, .noValue) }
      | some val =>
          match tunableWrite long t r.cfg val with
          | none => { r with errors := pushUpTo maxKeys r.errors (keyOf pair, .outOfRange) }
          | some cfg => { r with cfg, applied := pushUpTo maxKeys r.applied (keyOf pair) }

/-- The loop of `apply_query` from `qstr` on. -/
def applyFrom (long maxKeys : ℕ) (r : Report) : Bytes → Report
  | [] => r
  | c :: s =>
      let pair := (c :: s).takeWhile (· ≠ '&')
      let r := r.take long maxKeys pair
      if '&' ∉ c :: s then r else applyFrom long maxKeys r (s.drop pair.length)
termination_by qstr => qstr.length
decreasing_by
  rw [List.length_drop, List.length_cons]
  omega

/-- `apply_query` -/
def applyQuery (long maxKeys : ℕ) (cfg : Mem) (qstr : Bytes) : Report :=
  applyFrom long maxKeys { cfg } (cstr qstr)

/-! ## What the table promises -/

theorem offsets_nodup : (TUNABLES.map TunableDesc.offset).Nodup := by decide +kernel

theorem names_nodup : (TUNABLES.map TunableDesc.name).Nodup := by decide +kernel

/-- A row that checks a number, against bounds well inside an `int`. -/
structure Checked (t : TunableDesc) : Prop where
  lt : t.lo < t.hi
  lo_gt : -2 ^ 31 < t.lo
  hi_lt : t.hi < 2 ^ 31 - 1

instance (t : TunableDesc) : Decidable (Checked t) :=
  decidable_of_iff (t.lo < t.hi ∧ -2 ^ 31 < t.lo ∧ t.hi < 2 ^ 31 - 1)
    ⟨fun h => ⟨h.1, h.2.1, h.2.2⟩, fun h => ⟨h.lt, h.lo_gt, h.hi_lt⟩⟩

theorem numeric_checked : ∀ t ∈ TUNABLES, t.type ≠ .bool → Checked t := by decide +kernel

/-- Every numeric tunable within the bounds of its row. -/
def InRange (c : Mem) : Prop :=
  ∀ t ∈ TUNABLES, t.type ≠ .bool → t.lo ≤ tunableRead t c ∧ tunableRead t c ≤ t.hi

instance (c : Mem) : Decidable (InRange c) := inferInstanceAs (Decidable (∀ t ∈ TUNABLES, _))

/-- What a whole text says, as a value of a type: a number that does not end before the blanks
at the end, whatever its size, or one of the words. -/
inductive Denotes : TunableType → Bytes → Cell → Prop
  | int {s rest : Bytes} {v : ℤ} : readInt s = some (v, rest) → (∀ c ∈ rest, trailing c) →
      Denotes .int s (.int v)
  | long {s rest : Bytes} {v : ℤ} : readInt s = some (v, rest) → (∀ c ∈ rest, trailing c) →
      Denotes .long s (.long v)
  | float {s rest : Bytes} {v : ℚ} : strtod s = some (.fin v, rest) → (∀ c ∈ rest, trailing c) →
      Denotes .float s (.float v)
  | yes {s : Bytes} : s.map Char.toLower ∈ yesWords → Denotes .bool s (.bool true)
  | no {s : Bytes} : s.map Char.toLower ∈ noWords → Denotes .bool s (.bool false)

variable {long : ℕ} {s val : Bytes} {t : TunableDesc} {x : Cell}

theorem Checked.inRange_iff (h : Checked t) (v : ℚ) : t.inRange v = true ↔ t.lo ≤ v ∧ v ≤ t.hi := by
  rw [TunableDesc.inRange, decide_eq_true h.lt.ne, Bool.true_and, Bool.not_eq_true',
    Bool.or_eq_false_iff, decide_eq_false_iff_not, decide_eq_false_iff_not, not_lt, not_lt]

theorem forall_of_dropWhile_nil {p : Char → Bool} {l : Bytes} (h : ¬l.dropWhile p ≠ []) :
    ∀ c ∈ l, p c := List.dropWhile_eq_nil_iff.mp (not_not.mp h)

/-- A number that is accepted was not clamped: the bounds lie inside a `long`. -/
theorem Checked.clampLong_eq (h : Checked t) (hlong : 32 ≤ long) {v : ℤ}
    (hin : t.inRange (clampLong long v : ℤ) = true) : clampLong long v = v := by
  rw [h.inRange_iff] at hin
  have hwide : (2 : ℤ) ^ 31 ≤ 2 ^ (long - 1) := pow_le_pow_right₀ (by decide) (by omega)
  have hlow : -2 ^ 31 < clampLong long v := by exact_mod_cast h.lo_gt.trans_le hin.1
  have hhigh : clampLong long v < 2 ^ 31 - 1 := by exact_mod_cast hin.2.trans_lt h.hi_lt
  unfold clampLong at hlow hhigh ⊢
  omega

/-- A number that is parsed and in range is the one that the whole text says. -/
theorem Checked.parseStrictLong_some (h : Checked t) (hlong : 32 ≤ long) {v : ℤ}
    (hparse : parseStrictLong long s = some v) (hin : t.inRange v = true) :
    ∃ rest, readInt s = some (v, rest) ∧ ∀ c ∈ rest, trailing c := by
  unfold parseStrictLong at hparse
  split at hparse
  · cases hparse
  · next n rest hread =>
      split at hparse
      · cases hparse
      · next hend =>
          obtain rfl := Option.some.inj hparse
          rw [h.clampLong_eq hlong hin]
          exact ⟨rest, hread, forall_of_dropWhile_nil hend⟩

theorem parseStrictDouble_some {v : ℚ} (h : parseStrictDouble s = some v) :
    ∃ rest, strtod s = some (.fin v, rest) ∧ ∀ c ∈ rest, trailing c := by
  unfold parseStrictDouble at h
  split at h
  · cases h
  · next d rest hread =>
      split at h
      · cases h
      · next hend =>
          unfold finite at h
          split at h
          · split at h
            · cases h
              exact ⟨rest, hread, forall_of_dropWhile_nil hend⟩
            · cases h
          · cases h

/-- What is stored is what the text says, and within the bounds. -/
theorem tunableCell_spec (hlong : 32 ≤ long) (ht : t ∈ TUNABLES)
    (h : tunableCell long t val = some x) :
    Denotes t.type val x ∧ (t.type ≠ .bool → t.lo ≤ x.num ∧ x.num ≤ t.hi) := by
  have hchecked := numeric_checked t ht
  cases htype : t.type with
  | int =>
      have hchecked := hchecked (by rw [htype]; decide)
      simp only [tunableCell, htype] at h
      split at h
      · cases h
      · next v hparse =>
          split at h
          · cases h
          · next hin =>
              split at h
              · cases h
              · cases h
                rw [Bool.not_eq_false] at hin
                obtain ⟨rest, hread, hend⟩ := hchecked.parseStrictLong_some hlong hparse hin
                exact ⟨.int hread hend, fun _ => (hchecked.inRange_iff v).mp hin⟩
  | long =>
      have hchecked := hchecked (by rw [htype]; decide)
      simp only [tunableCell, htype] at h
      split at h
      · cases h
      · next v hparse =>
          split at h
          · cases h
          · next hin =>
              cases h
              rw [Bool.not_eq_false] at hin
              obtain ⟨rest, hread, hend⟩ := hchecked.parseStrictLong_some hlong hparse hin
              exact ⟨.long hread hend, fun _ => (hchecked.inRange_iff v).mp hin⟩
  | float =>
      have hchecked := hchecked (by rw [htype]; decide)
      simp only [tunableCell, htype] at h
      split at h
      · cases h
      · next v hparse =>
          split at h
          · cases h
          · next hin =>
              cases h
              rw [Bool.not_eq_false] at hin
              obtain ⟨rest, hread, hend⟩ := parseStrictDouble_some hparse
              exact ⟨.float hread hend, fun _ => (hchecked.inRange_iff v).mp hin⟩
  | bool =>
      simp only [tunableCell, htype] at h
      obtain ⟨b, hparse, rfl⟩ := Option.map_eq_some_iff.mp h
      unfold parseStrictBool at hparse
      refine ⟨?_, fun hnum => absurd rfl hnum⟩
      split at hparse
      · next hyes =>
          cases hparse
          exact .yes hyes
      · split at hparse
        · next hno =>
            cases hparse
            exact .no hno
        · cases hparse

theorem tunableFind_some {name : Bytes} (h : tunableFind name = some t) :
    t ∈ TUNABLES ∧ t.name.toList = name := by
  rw [tunableFind] at h
  have hname := List.find?_some h
  exact ⟨List.mem_of_find?_eq_some h, of_decide_eq_true hname⟩

/-- A store hits the field of its row and no other row's. -/
theorem tunableRead_update (ht : t ∈ TUNABLES) {t' : TunableDesc} (ht' : t' ∈ TUNABLES) (c : Mem) :
    tunableRead t' (Function.update c t.offset x) = if t' = t then x.num else tunableRead t' c := by
  rw [tunableRead, Function.update_apply]
  by_cases h : t' = t
  · rw [if_pos h, if_pos (congrArg _ h)]
  · rw [if_neg h, if_neg fun hoff => h (List.inj_on_of_nodup_map offsets_nodup ht' ht hoff), tunableRead]

theorem InRange.update {c : Mem} (h : InRange c) (ht : t ∈ TUNABLES)
    (hx : t.type ≠ .bool → t.lo ≤ x.num ∧ x.num ≤ t.hi) : InRange (Function.update c t.offset x) := by
  intro t' ht' hnum
  rw [tunableRead_update ht ht']
  split
  · next heq =>
      subst heq
      exact hx hnum
  · exact h t' ht' hnum

/-! ## What a query does -/

/-- The pairs of a query, as the loop meets them; what follows a last `&` is none if empty. -/
def pairsOf : Bytes → List Bytes
  | [] => []
  | c :: s =>
      let pair := (c :: s).takeWhile (· ≠ '&')
      pair :: if '&' ∉ c :: s then [] else pairsOf (s.drop pair.length)
termination_by qstr => qstr.length
decreasing_by
  rw [List.length_drop, List.length_cons]
  omega

/-- What becomes of a pair: the row and what is stored, or why it is passed over. -/
def verdict (long : ℕ) (pair : Bytes) : Except Reason (TunableDesc × Cell) :=
  match tunableFind (keyOf pair) with
  | none => .error .unknown
  | some t =>
      match valOf pair with
      | none => .error .noValue
      | some [] => .error .noValue
      | some val =>
          match tunableCell long t val with
          | none => .error .outOfRange
          | some x => .ok (t, x)

/-- The stores of the pairs that are accepted, in order. -/
def stores (long : ℕ) (pairs : List Bytes) : List (TunableDesc × Cell) :=
  pairs.filterMap fun pair => (verdict long pair).toOption

/-- Stores one after the other. -/
def storeAll (c : Mem) (l : List (TunableDesc × Cell)) : Mem :=
  l.foldl (fun c r => Function.update c r.1.offset r.2) c

variable {maxKeys : ℕ}

/-- A report with one more pair that was passed over. -/
def Report.reject (maxKeys : ℕ) (r : Report) (key : Bytes) (e : Reason) : Report :=
  { r with errors := pushUpTo maxKeys r.errors (key, e) }

/-- A report with one more store. -/
def Report.accept (maxKeys : ℕ) (r : Report) (key : Bytes) (t : TunableDesc) (x : Cell) : Report :=
  { r with
    cfg := Function.update r.cfg t.offset x
    applied := pushUpTo maxKeys r.applied key }

/-- A turn does what the verdict says, which the configuration has no part in. -/
theorem take_eq (r : Report) (pair : Bytes) : r.take long maxKeys pair =
    match verdict long pair with
    | .error e => r.reject maxKeys (keyOf pair) e
    | .ok tx => r.accept maxKeys (keyOf pair) tx.1 tx.2 := by
  cases hfind : tunableFind (keyOf pair) with
  | none => simp only [Report.take, verdict, hfind, Report.reject]
  | some t =>
      rcases hval : valOf pair with - | - | ⟨c, val⟩
      · simp only [Report.take, verdict, hfind, hval, Report.reject]
      · simp only [Report.take, verdict, hfind, hval, Report.reject]
      · cases hcell : tunableCell long t (c :: val) with
        | none =>
            simp only [Report.take, verdict, hfind, hval, tunableWrite, hcell, Option.map_none,
              Report.reject]
        | some x =>
            simp only [Report.take, verdict, hfind, hval, tunableWrite, hcell, Option.map_some,
              Report.accept]

theorem verdict_ok {pair : Bytes} (h : verdict long pair = .ok (t, x)) :
    tunableFind (keyOf pair) = some t ∧
      ∃ val, valOf pair = some val ∧ tunableCell long t val = some x := by
  unfold verdict at h
  split at h
  · cases h
  · next t' hfind =>
      split at h
      · cases h
      · cases h
      · next val _ hval =>
          split at h
          · cases h
          · next x' hcell =>
              cases h
              exact ⟨hfind, val, hval, hcell⟩

/-- The loop is the pairs one after the other. -/
theorem applyFrom_eq (r : Report) (qstr : Bytes) :
    applyFrom long maxKeys r qstr = (pairsOf qstr).foldl (Report.take long maxKeys) r := by
  fun_induction applyFrom long maxKeys r qstr with
  | case1 r => rw [pairsOf, List.foldl_nil]
  | case2 r c s pair r' hlast =>
      rw [pairsOf]
      simp only [if_pos hlast]
      rfl
  | case3 r c s pair r' hmore ih =>
      rw [pairsOf]
      simp only [if_neg hmore]
      exact ih

theorem foldl_take_cfg (r : Report) (pairs : List Bytes) :
    (pairs.foldl (Report.take long maxKeys) r).cfg = storeAll r.cfg (stores long pairs) := by
  induction pairs generalizing r with
  | nil => rfl
  | cons pair pairs ih =>
      rw [List.foldl_cons, ih, take_eq, stores, stores]
      cases hv : verdict long pair with
      | error e => rw [List.filterMap_cons_none (by rw [hv]; rfl)]; rfl
      | ok tx => rw [List.filterMap_cons_some (by rw [hv]; rfl)]; rfl

/-- A value that a row lets through: of its type, within its bounds. -/
structure Stored (t : TunableDesc) (x : Cell) : Prop where
  row : t ∈ TUNABLES
  type : x.type = t.type
  bounds : t.type ≠ .bool → t.lo ≤ x.num ∧ x.num ≤ t.hi

theorem Denotes.type {T : TunableType} (h : Denotes T s x) : x.type = T := by
  cases h <;> rfl

theorem mem_stores (hlong : 32 ≤ long) {pairs : List Bytes} {r : TunableDesc × Cell}
    (h : r ∈ stores long pairs) : Stored r.1 r.2 := by
  obtain ⟨pair, -, hpair⟩ := List.mem_filterMap.mp h
  cases hv : verdict long pair with
  | error e =>
      rw [hv] at hpair
      cases hpair
  | ok tx =>
      rw [hv] at hpair
      cases hpair
      obtain ⟨hfind, val, -, hcell⟩ := verdict_ok hv
      have hrow := (tunableFind_some hfind).1
      obtain ⟨hden, hbounds⟩ := tunableCell_spec hlong hrow hcell
      exact ⟨hrow, hden.type, hbounds⟩

theorem InRange.storeAll {c : Mem} (h : InRange c) {l : List (TunableDesc × Cell)}
    (hl : ∀ r ∈ l, Stored r.1 r.2) : InRange (storeAll c l) := by
  induction l generalizing c with
  | nil => exact h
  | cons r l ih =>
      have hr := hl r List.mem_cons_self
      exact ih (h.update hr.row hr.bounds) fun r' hr' => hl r' (List.mem_cons_of_mem _ hr')

/-- A query keeps every tunable in range; each pair is passed over, or stores what its whole
value says in the field of its key and nowhere else; and the outcome is the accepted pairs one
after the other. -/
theorem applyQuery_sound (hlong : 32 ≤ long) (maxKeys : ℕ) (c : Mem) (qstr : Bytes) :
    (InRange c → InRange (applyQuery long maxKeys c qstr).cfg) ∧
      (∀ pair ∈ pairsOf (cstr qstr), ∀ r : Report,
        (∃ e, r.take long maxKeys pair = r.reject maxKeys (keyOf pair) e) ∨
        ∃ t ∈ TUNABLES, t.name.toList = keyOf pair ∧ ∃ val x, valOf pair = some val ∧
          Denotes t.type val x ∧ verdict long pair = .ok (t, x) ∧
          r.take long maxKeys pair = r.accept maxKeys (keyOf pair) t x ∧
          ∀ o, o ≠ t.offset → (r.take long maxKeys pair).cfg o = r.cfg o) ∧
      (applyQuery long maxKeys c qstr).cfg = storeAll c (stores long (pairsOf (cstr qstr))) := by
  have hcfg : (applyQuery long maxKeys c qstr).cfg = storeAll c (stores long (pairsOf (cstr qstr))) := by
    rw [applyQuery, applyFrom_eq, foldl_take_cfg]
  refine ⟨fun h => ?_, fun pair _ r => ?_, hcfg⟩
  · rw [hcfg]
    exact h.storeAll fun r hr => mem_stores hlong hr
  · have htake := @take_eq long maxKeys r pair
    cases hv : verdict long pair with
    | error e =>
        rw [hv] at htake
        exact .inl ⟨e, htake⟩
    | ok tx =>
        obtain ⟨t, x⟩ := tx
        rw [hv] at htake
        obtain ⟨hfind, val, hval, hcell⟩ := verdict_ok hv
        obtain ⟨hmem, hname⟩ := tunableFind_some hfind
        refine .inr ⟨t, hmem, hname, val, x, hval, (tunableCell_spec hlong hmem hcell).1, rfl, htake,
          fun o ho => ?_⟩
        rw [htake]
        exact Function.update_of_ne ho _ _

/-- Every number at the lower end of its range, every switch off. -/
def lowest : Mem := fun o =>
  match TUNABLES.find? fun t => decide (t.offset = o) with
  | some ⟨_, .int, _, lo, _⟩ => .int lo.floor
  | some ⟨_, .long, _, lo, _⟩ => .long lo.floor
  | some ⟨_, .float, _, lo, _⟩ => .float lo
  | _ => .bool false

/-- A key twice, a `nan`, a number out of range, one too long for a `long`, hexadecimal with a
blank behind it, a key nobody knows, and an empty pair. -/
theorem applyQuery_sound_mixed :
    InRange (applyQuery 64 32 lowest
      ("fec.mtu=1400&fec.ewma_alpha=nan&fec.mtu=65001&cmd.fps_max=99999999999999999999&" ++
        "fec.headroom_min=0x1.8p0 &mcs.enabled=Yes&fec.mtu=1200&mtu=9&&mcs.mcs_max").toList).cfg :=
  (applyQuery_sound (by decide) 32 lowest _).1 (by decide +kernel)

example : (applyQuery 64 32 lowest
    "fec.mtu=1400&fec.mtu=65001&fec.headroom_min=0x1.8p0 &mtu=9&mcs.mcs_max".toList).errors =
      [("fec.mtu".toList, .outOfRange), ("mtu".toList, .unknown), ("mcs.mcs_max".toList, .noValue)] := by
  decide +kernel

/-! ## What is reported -/

theorem pushUpTo_take {α : Type} (maxKeys : ℕ) (l : List α) (a : α) :
    pushUpTo maxKeys (l.take maxKeys) a = (l ++ [a]).take maxKeys := by
  unfold pushUpTo
  split
  · next h =>
      rw [List.length_take] at h
      have hroom : (l ++ [a]).length ≤ maxKeys := by
        rw [List.length_append, List.length_singleton]
        omega
      rw [List.take_of_length_le (by omega), List.take_of_length_le hroom]
  · next h =>
      rw [List.length_take] at h
      rw [List.take_append_of_le_length (by omega)]

/-- The keys of the pairs that are accepted. -/
def acceptedKeys (long : ℕ) (pairs : List Bytes) : List Bytes :=
  pairs.filterMap fun pair =>
    match verdict long pair with
    | .error _ => none
    | .ok _ => some (keyOf pair)

/-- The keys of the others, with the reasons. -/
def rejectedKeys (long : ℕ) (pairs : List Bytes) : List (Bytes × Reason) :=
  pairs.filterMap fun pair =>
    match verdict long pair with
    | .error e => some (keyOf pair, e)
    | .ok _ => none

/-- Every pair is reported once, in order, as far as there is room. -/
theorem applyQuery_report (maxKeys : ℕ) (c : Mem) (qstr : Bytes) :
    (applyQuery long maxKeys c qstr).applied =
        (acceptedKeys long (pairsOf (cstr qstr))).take maxKeys ∧
      (applyQuery long maxKeys c qstr).errors =
        (rejectedKeys long (pairsOf (cstr qstr))).take maxKeys := by
  rw [applyQuery, applyFrom_eq]
  induction pairsOf (cstr qstr) using List.reverseRecOn with
  | nil => exact ⟨List.take_nil.symm, List.take_nil.symm⟩
  | append_singleton pairs pair ih =>
      obtain ⟨happ, herr⟩ := ih
      rw [List.foldl_append, List.foldl_cons, List.foldl_nil, take_eq]
      rw [acceptedKeys, rejectedKeys, List.filterMap_append, List.filterMap_append,
        ← acceptedKeys, ← rejectedKeys]
      cases hv : verdict long pair with
      | error e =>
          refine ⟨?_, ?_⟩
          · simpa [hv, Report.reject] using happ
          · show pushUpTo maxKeys _ (keyOf pair, e) = _
            rw [herr, pushUpTo_take]
            simp [hv]
      | ok tx =>
          refine ⟨?_, ?_⟩
          · show pushUpTo maxKeys _ (keyOf pair) = _
            rw [happ, pushUpTo_take]
            simp [hv]
          · simpa [hv, Report.accept] using herr

end Waybeam.Vehicle.Registry
