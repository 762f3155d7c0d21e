/-
# `Waybeam.Vehicle.Tunables` — a query of `/set` is an event of the loop

The registry is there twice: with all its rows over a memory, where a value is text (`Registry`),
and with the rows the control law reads as setters of `Config`, where it has been parsed.  What
a memory holds is a configuration, and the two ways to write it agree:

    memory   --- apply_query, of a text --->   memory
      | configOf                                 | configOf
    Config   --- httpSet, of its stores --->   Config

Row by row the tables are one (`TUNABLES_mirrored`); a row the loop has no setter for writes a
field that `configOf` does not read.
-/
import Waybeam.Vehicle.Ranges
import Waybeam.Vehicle.Registry

namespace Waybeam.Vehicle.Registry

open Text

/-! ## The configuration in a memory -/

def Cell.toInt : Cell → ℤ
  | .int v | .long v => v
  | _ => 0

def Cell.toRat : Cell → ℚ
  | .float v => v
  | _ => 0

def Cell.toBool : Cell → Bool
  | .bool v => v
  | _ => false

/-- `cfg.fec`, read from its cells. -/
def fecOf (c : FecField → Cell) (base : FecConfig) : FecConfig :=
  { base with
    enabled := (c .enabled).toBool
    mtu := (c .mtu).toInt
    minK := (c .minK).toInt
    maxK := (c .maxK).toInt
    minN := (c .minN).toInt
    maxN := (c .maxN).toInt
    ewmaAlpha := (c .ewmaAlpha).toRat
    headroomMin := (c .headroomMin).toRat
    headroomMax := (c .headroomMax).toRat
    headroomMargin := (c .headroomMargin).toRat
    headroomWindowS := (c .headroomWindowS).toRat
    ppfDeadbandFrac := (c .ppfDeadbandFrac).toRat
    kHystUp := (c .kHystUp).toInt
    cooldownUpS := (c .cooldownUpS).toRat
    kDownDwellS := (c .kDownDwellS).toRat
    kUpDwellS := (c .kUpDwellS).toRat
    startupGraceS := (c .startupGraceS).toRat
    safetyMargin := (c .safetyMargin).toRat
    bitrateMinKbps := (c .bitrateMinKbps).toInt
    bitrateMaxKbps := (c .bitrateMaxKbps).toInt
    bitrateTolerance := (c .bitrateTolerance).toRat
    bitrateGraceS := (c .bitrateGraceS).toRat
    mcsSettleS := (c .mcsSettleS).toRat
    bitrateLeadS := (c .bitrateLeadS).toRat
    mcsUpGraceS := (c .mcsUpGraceS).toRat
    payloadMax := (c .payloadMax).toInt
    payloadMin := (c .payloadMin).toInt
    airtimeMaxPct := (c .airtimeMaxPct).toInt
    airtimePreambleUs := (c .airtimePreambleUs).toInt
    skipOnBackpressure := (c .skipOnBackpressure).toBool
    backpressureFillPct := (c .backpressureFillPct).toInt
    blocksizeFeedforward := (c .blocksizeFeedforward).toBool
    ffCooldownS := (c .ffCooldownS).toRat
    backpressureRecoverS := (c .backpressureRecoverS).toRat }

/-- `cfg.mcs`; the aggregator is stored as a number. -/
def mcsOf (c : McsField → Cell) (base : McsConfig) : McsConfig :=
  { base with
    enabled := (c .enabled).toBool
    rssiEwmaAlpha := (c .rssiEwmaAlpha).toRat
    lossEwmaAlpha := (c .lossEwmaAlpha).toRat
    rssiAggregator := .ofInt (c .rssiAggregator).toInt
    downCooldownS := (c .downCooldownS).toRat
    failsafeTimeoutS := (c .failsafeTimeoutS).toRat
    oscillationWindowS := (c .oscillationWindowS).toRat
    mcsMin := (c .mcsMin).toInt
    mcsMax := (c .mcsMax).toInt
    rssiFloorDbm := (c .rssiFloorDbm).toRat
    rssiFadeDbPerS := (c .rssiFadeDbPerS).toRat
    rssiFadeArmDbm := (c .rssiFadeArmDbm).toRat
    rssiFloorHystDb := (c .rssiFloorHystDb).toRat
    pressureDemoteBlock := (c .pressureDemoteBlock).toBool
    pressureEscapeS := (c .pressureEscapeS).toRat
    reentryBackoffS := (c .reentryBackoffS).toRat
    reentryDwellS := (c .reentryDwellS).toRat
    flapFreezeCount := (c .flapFreezeCount).toInt
    flapFreezeWindowS := (c .flapFreezeWindowS).toRat
    flapFreezeS := (c .flapFreezeS).toRat
    probeCleanMilli := (c .probeCleanMilli).toInt
    probeFailMilli := (c .probeFailMilli).toInt
    demotePerMilli := (c .demotePerMilli).toInt
    promoteDwellS := (c .promoteDwellS).toRat
    probeStaleAgeS := (c .probeStaleAgeS).toRat }

/-- `cfg.cmd` -/
def cmdOf (c : CmdField → Cell) (base : CmdConfig) : CmdConfig :=
  { base with
    enabled := (c .enabled).toBool
    loopbackOnly := (c .loopbackOnly).toBool
    rateLimitMs := (c .rateLimitMs).toInt
    allowKeysMask := (c .allowKeysMask).toInt
    bitrateMinKbps := (c .bitrateMinKbps).toInt
    bitrateMaxKbps := (c .bitrateMaxKbps).toInt
    fpsMin := (c .fpsMin).toInt
    fpsMax := (c .fpsMax).toInt
    payloadMin := (c .payloadMin).toInt
    payloadMax := (c .payloadMax).toInt
    wfbFecKMin := (c .wfbFecKMin).toInt
    wfbFecKMax := (c .wfbFecKMax).toInt
    wfbFecNMin := (c .wfbFecNMin).toInt
    wfbFecNMax := (c .wfbFecNMax).toInt
    wfbMcsMin := (c .wfbMcsMin).toInt
    wfbMcsMax := (c .wfbMcsMax).toInt
    wfbBandwidthMin := (c .wfbBandwidthMin).toInt
    wfbBandwidthMax := (c .wfbBandwidthMax).toInt
    wfbTxpowerMin := (c .wfbTxpowerMin).toInt
    wfbTxpowerMax := (c .wfbTxpowerMax).toInt
    txPwrByRate := (c .txPwrByRate).toBool }

/-- What a memory holds; `base` is the rest, which no row writes. -/
def configOf (m : Mem) (base : Config) : Config :=
  { base with
    fec := fecOf (fun f => m (.fec f)) base.fec
    mcs := mcsOf (fun f => m (.mcs f)) base.mcs
    cmd := cmdOf (fun f => m (.cmd f)) base.cmd
    dryRun := (m .dryRun).toBool }

/-- What a cell says, for a setter. -/
def Cell.value : Cell → TunableVal
  | .int v | .long v => .int v
  | .float v => .float v
  | .bool v => .bool v

/-! ## The two tables -/

/-- A setter writes the field at an offset. -/
inductive Sets (o : Offset) : TunableType → TunableField → Prop
  | int {set : ℤ → Config → Config} :
      (∀ v m base, configOf (Function.update m o (.int v)) base = set v (configOf m base)) →
      Sets o .int (.int set)
  | long {set : ℤ → Config → Config} :
      (∀ v m base, configOf (Function.update m o (.long v)) base = set v (configOf m base)) →
      Sets o .long (.long set)
  | float {set : ℚ → Config → Config} :
      (∀ v m base, configOf (Function.update m o (.float v)) base = set v (configOf m base)) →
      Sets o .float (.float set)
  | bool {set : Bool → Config → Config} :
      (∀ v m base, configOf (Function.update m o (.bool v)) base = set v (configOf m base)) →
      Sets o .bool (.bool set)

/-- A row of one table and of the other. -/
structure Mirrors (t : TunableDesc) (r : Vehicle.TunableDesc) : Prop where
  name : r.name = t.name
  lo : r.lo = t.lo
  hi : r.hi = t.hi
  sets : Sets t.offset t.type r.field

/-- The second table is the first, without rows that the configuration does not show. -/
inductive Mirrored : List TunableDesc → List Vehicle.TunableDesc → Prop
  | nil : Mirrored [] []
  | row {t : TunableDesc} {r : Vehicle.TunableDesc} {ts : List TunableDesc}
      {rs : List Vehicle.TunableDesc} : Mirrors t r → Mirrored ts rs → Mirrored (t :: ts) (r :: rs)
  | unread {t : TunableDesc} {ts : List TunableDesc} {rs : List Vehicle.TunableDesc} :
      (∀ x m base, configOf (Function.update m t.offset x) base = configOf m base) →
      Mirrored ts rs → Mirrored (t :: ts) rs

theorem TUNABLES_mirrored : Mirrored TUNABLES Vehicle.TUNABLES := by
  unfold TUNABLES Vehicle.TUNABLES commonRows fecRows mcsRows cmdRows fecTunables mcsTunables cmdTunables
  simp only [List.cons_append, List.nil_append]
  -- row by row; what is left of one is that its setter and its offset are the same field
  repeat' first
    | exact .nil
    | refine Mirrored.row ⟨rfl, by decide +kernel, by decide +kernel, ?_⟩ ?_
    | refine Mirrored.unread (fun _ _ _ => rfl) ?_
    | exact Sets.int fun _ _ _ => rfl
    | exact Sets.long fun _ _ _ => rfl
    | exact Sets.float fun _ _ _ => rfl
    | exact Sets.bool fun _ _ _ => rfl

variable {ts : List TunableDesc} {rs : List Vehicle.TunableDesc} {t : TunableDesc}
  {r : Vehicle.TunableDesc} {x : Cell}

/-- Every row of the second table has its name from the first. -/
theorem Mirrored.names (h : Mirrored ts rs) : ∀ r ∈ rs, r.name ∈ ts.map TunableDesc.name := by
  induction h with
  | nil => exact fun r hr => absurd hr List.not_mem_nil
  | row hm _ ih =>
      intro r hr
      rw [List.map_cons, List.mem_cons]
      rcases List.mem_cons.mp hr with rfl | hr
      · exact .inl hm.name
      · exact .inr (ih r hr)
  | unread _ _ ih => exact fun r hr => List.mem_cons_of_mem _ (ih r hr)

/-- A name that one table finds, the other finds, or its row is not shown. -/
theorem Mirrored.find (h : Mirrored ts rs) (hnames : (ts.map TunableDesc.name).Nodup) (ht : t ∈ ts) :
    (∃ r, rs.find? (fun r => r.name = t.name) = some r ∧ Mirrors t r) ∨
      (rs.find? fun r => r.name = t.name) = none ∧
        ∀ x m base, configOf (Function.update m t.offset x) base = configOf m base := by
  induction h with
  | nil => exact absurd ht List.not_mem_nil
  | @row t₀ r₀ ts rs hm hrest ih =>
      rw [List.map_cons, List.nodup_cons] at hnames
      rcases List.mem_cons.mp ht with rfl | ht
      · exact .inl ⟨r₀, List.find?_cons_of_pos (by rw [hm.name]; exact decide_eq_true rfl), hm⟩
      · have hne : ¬decide (r₀.name = t.name) = true := by
          rw [decide_eq_true_eq, hm.name]
          exact fun heq => hnames.1 (heq ▸ List.mem_map_of_mem ht)
        rw [List.find?_cons_of_neg (p := fun r : Vehicle.TunableDesc => decide (r.name = t.name)) hne]
        exact ih hnames.2 ht
  | unread hunread hrest ih =>
      rw [List.map_cons, List.nodup_cons] at hnames
      rcases List.mem_cons.mp ht with rfl | ht
      · refine .inr ⟨List.find?_eq_none.mpr fun r hr heq => hnames.1 ?_, hunread⟩
        rw [← of_decide_eq_true heq]
        exact hrest.names r hr
      · exact ih hnames.2 ht

/-- What a row lets through, its mirror lets through, and both write the same field. -/
theorem Mirrors.write (h : Mirrors t r) (hx : Stored t x) (m : Mem) (base : Config) :
    Vehicle.tunableWrite r (configOf m base) x.value =
      some (configOf (Function.update m t.offset x) base) := by
  obtain ⟨-, hlo, hhi, hsets⟩ := h
  obtain ⟨hrow, htype, hbounds⟩ := hx
  have hadmits : t.type ≠ .bool → r.admits x.num = true := by
    intro hnum
    rw [TunableDesc.admits_iff, hlo, hhi]
    exact .inr (hbounds hnum)
  have hchecked := numeric_checked t hrow
  generalize hfield : r.field = field at hsets
  cases x with
  | int v =>
      change TunableType.int = t.type at htype
      rw [← htype] at hsets hbounds hchecked hadmits
      have hnum : TunableType.int ≠ .bool := by decide
      cases hsets with
      | int hset =>
          have hlow : (-2 ^ 31 : ℚ) < v := (hchecked hnum).lo_gt.trans_le (hbounds hnum).1
          have hhigh : (v : ℚ) < 2 ^ 31 - 1 := (hbounds hnum).2.trans_lt (hchecked hnum).hi_lt
          have hfits : -2147483648 ≤ v ∧ v ≤ 2147483647 := by
            have hlow : (-2 ^ 31 : ℤ) < v := by exact_mod_cast hlow
            have hhigh : v < 2 ^ 31 - 1 := by exact_mod_cast hhigh
            omega
          have hin : r.admits v = true := hadmits hnum
          simp only [Vehicle.tunableWrite, Cell.value, hfield, hin, hfits, decide_true, Bool.and_true,
            if_true, hset]
  | long v =>
      change TunableType.long = t.type at htype
      rw [← htype] at hsets hadmits
      cases hsets with
      | long hset =>
          have hin : r.admits v = true := hadmits (by decide)
          simp only [Vehicle.tunableWrite, Cell.value, hfield, hin, if_true, hset]
  | float v =>
      change TunableType.float = t.type at htype
      rw [← htype] at hsets hadmits
      cases hsets with
      | float hset =>
          have hin : r.admits v = true := hadmits (by decide)
          simp only [Vehicle.tunableWrite, Cell.value, hfield, hin, if_true, hset]
  | bool v =>
      change TunableType.bool = t.type at htype
      rw [← htype] at hsets
      cases hsets with
      | bool hset => simp only [Vehicle.tunableWrite, Cell.value, hfield, hset]

/-! ## Queries -/

/-- One accepted pair, written both ways. -/
theorem configOf_store (hx : Stored t x) (m : Mem) (base : Config) :
    configOf (Function.update m t.offset x) base =
      ((Vehicle.tunableFind t.name).bind (Vehicle.tunableWrite · (configOf m base) x.value)).getD
        (configOf m base) := by
  rcases TUNABLES_mirrored.find names_nodup hx.row with ⟨r, hfind, hm⟩ | ⟨hfind, hunread⟩
  · rw [Vehicle.tunableFind, hfind, Option.bind_some, hm.write hx, Option.getD_some]
  · rw [Vehicle.tunableFind, hfind, Option.bind_none, Option.getD_none, hunread]

/-- The pairs of a query that are accepted, parsed. -/
def pairsRead (long : ℕ) (qstr : Bytes) : List (String × TunableVal) :=
  (stores long (pairsOf (cstr qstr))).map fun r => (r.1.name, r.2.value)

theorem configOf_storeAll {l : List (TunableDesc × Cell)} (hl : ∀ r ∈ l, Stored r.1 r.2) (m : Mem)
    (base : Config) : configOf (storeAll m l) base =
      Vehicle.applyQuery (configOf m base) (l.map fun r => (r.1.name, r.2.value)) := by
  induction l generalizing m with
  | nil => rfl
  | cons r l ih =>
      have hr := hl r List.mem_cons_self
      rw [storeAll, List.foldl_cons, ← storeAll, ih fun r' hr' => hl r' (List.mem_cons_of_mem _ hr'),
        configOf_store hr]
      rfl

/-- A query of text, on the memory, is the event `httpSet` of its accepted pairs. -/
theorem configOf_applyQuery {long : ℕ} (hlong : 32 ≤ long) (maxKeys : ℕ) (m : Mem) (base : Config)
    (qstr : Bytes) : configOf (applyQuery long maxKeys m qstr).cfg base =
      Vehicle.applyQuery (configOf m base) (pairsRead long qstr) := by
  rw [applyQuery, applyFrom_eq, foldl_take_cfg]
  exact configOf_storeAll (fun r hr => mem_stores hlong hr) m base

/-- So is it of the loop, whose `/set` takes the pairs as parsed. -/
theorem httpSet_text {long : ℕ} (hlong : 32 ≤ long) (maxKeys : ℕ) {m : Mem} {base : Config} {s : Lc}
    (hs : s.cfg = configOf m base) (qstr : Bytes) :
    (s.handle (.httpSet (pairsRead long qstr))).1.cfg =
      configOf (applyQuery long maxKeys m qstr).cfg base := by
  rw [configOf_applyQuery hlong, ← hs]
  rfl

/-! ## The defaults -/

/-- `config_defaults`, block by block. -/
def fecDefaults : FecField → Cell
  | .enabled => .bool true
  | .mtu => .int 1446
  | .minK => .int 4
  | .maxK => .int 48
  | .minN => .int 6
  | .maxN => .int 72
  | .ewmaAlpha => .float 0.05
  | .headroomMin => .float 1.05
  | .headroomMax => .float 1.40
  | .headroomMargin => .float 1.05
  | .headroomWindowS => .float 2.5
  | .ppfDeadbandFrac => .float 0.15
  | .kHystUp => .int 2
  | .cooldownUpS => .float 1
  | .kDownDwellS => .float 8
  | .kUpDwellS => .float 2
  | .startupGraceS => .float 2
  | .safetyMargin => .float 0.5
  | .bitrateMinKbps => .long 2200
  | .bitrateMaxKbps => .long 0
  | .bitrateTolerance => .float 0.15
  | .bitrateGraceS => .float 2
  | .mcsSettleS => .float 5
  | .bitrateLeadS => .float 0.5
  | .mcsUpGraceS => .float 0.25
  | .payloadMax => .int 0
  | .payloadMin => .int 576
  | .airtimeMaxPct => .int 80
  | .airtimePreambleUs => .int 40
  | .skipOnBackpressure => .bool true
  | .backpressureFillPct => .int 80
  | .desyncProbe => .bool false
  | .blocksizeFeedforward => .bool true
  | .ffCooldownS => .float 0.15
  | .backpressureRecoverS => .float 3

@[inherit_doc fecDefaults]
def mcsDefaults : McsField → Cell
  | .enabled => .bool true
  | .rssiEwmaAlpha => .float 0.3
  | .lossEwmaAlpha => .float 0.3
  | .rssiAggregator => .int 0
  | .downCooldownS => .float 0.2
  | .failsafeTimeoutS => .float 0.5
  | .oscillationWindowS => .float 5
  | .mcsMin => .int 0
  | .mcsMax => .int 5
  | .rssiFloorDbm => .float (-85)
  | .rssiFadeDbPerS => .float 10
  | .rssiFadeArmDbm => .float (-65)
  | .rssiFloorHystDb => .float 6
  | .pressureDemoteBlock => .bool true
  | .pressureEscapeS => .float 2
  | .reentryBackoffS => .float 5
  | .reentryDwellS => .float 2
  | .flapFreezeCount => .int 3
  | .flapFreezeWindowS => .float 10
  | .flapFreezeS => .float 10
  | .probeCleanMilli => .int 20
  | .probeFailMilli => .int 200
  | .demotePerMilli => .int 80
  | .promoteDwellS => .float 0.5
  | .probeWindowS => .float 0.5
  | .probeStaleAgeS => .float 1
  | .probeFeedPps => .int 40
  | .probeFeedBytes => .int 1400

@[inherit_doc fecDefaults]
def cmdDefaults : CmdField → Cell
  | .enabled => .bool true
  | .loopbackOnly => .bool false
  | .rateLimitMs => .int 100
  | .allowKeysMask => .int 0x8FFFF
  | .bitrateMinKbps => .int 100
  | .bitrateMaxKbps => .int 25000
  | .fpsMin => .int 1
  | .fpsMax => .int 240
  | .payloadMin => .int 576
  | .payloadMax => .int 1474
  | .wfbFecKMin => .int 1
  | .wfbFecKMax => .int 64
  | .wfbFecNMin => .int 1
  | .wfbFecNMax => .int 96
  | .wfbMcsMin => .int 0
  | .wfbMcsMax => .int 11
  | .wfbBandwidthMin => .int 5
  | .wfbBandwidthMax => .int 80
  | .wfbTxpowerMin => .int 50
  | .wfbTxpowerMax => .int 3000
  | .txPwrByRate => .bool false

/-- `config_defaults`, where a row writes. -/
def configDefaults : Mem
  | .apiPort => .int 8765
  | .dryRun => .bool false
  | .verbose => .int 0
  | .fec f => fecDefaults f
  | .mcs f => mcsDefaults f
  | .cmd f => cmdDefaults f

/-- The defaults of the loop are these. -/
theorem configOf_defaults : configOf configDefaults {} = {} := by
  unfold configOf fecOf mcsOf cmdOf
  simp only [configDefaults, fecDefaults, mcsDefaults, cmdDefaults, Cell.toInt, Cell.toRat, Cell.toBool]
  norm_num [RssiAggregator.ofInt]

/-! ## Live configurations -/

/-- A memory as the program keeps it: every field of its type, every number in range. -/
structure Sound (m : Mem) : Prop where
  inRange : InRange m
  typed : ∀ t ∈ TUNABLES, (m t.offset).type = t.type

instance (m : Mem) : Decidable (Sound m) :=
  decidable_of_iff (InRange m ∧ ∀ t ∈ TUNABLES, (m t.offset).type = t.type)
    ⟨fun h => ⟨h.1, h.2⟩, fun h => ⟨h.inRange, h.typed⟩⟩

/-- Every default passes its own check. -/
theorem configDefaults_sound : Sound configDefaults := by decide +kernel

variable {m : Mem}

theorem Sound.update (h : Sound m) (hx : Stored t x) : Sound (Function.update m t.offset x) where
  inRange := h.inRange.update hx.row hx.bounds
  typed := by
    intro t' ht'
    rw [Function.update_apply]
    split
    · next heq => rw [hx.type, List.inj_on_of_nodup_map offsets_nodup ht' hx.row heq]
    · exact h.typed t' ht'

theorem Sound.storeAll (h : Sound m) {l : List (TunableDesc × Cell)} (hl : ∀ r ∈ l, Stored r.1 r.2) :
    Sound (storeAll m l) := by
  induction l generalizing m with
  | nil => exact h
  | cons r l ih =>
      exact ih (h.update (hl r List.mem_cons_self)) fun r' hr' => hl r' (List.mem_cons_of_mem _ hr')

theorem Sound.applyQuery {long : ℕ} (hlong : 32 ≤ long) (h : Sound m) (maxKeys : ℕ) (qstr : Bytes) :
    Sound (applyQuery long maxKeys m qstr).cfg := by
  rw [Registry.applyQuery, applyFrom_eq, foldl_take_cfg]
  exact h.storeAll fun r hr => mem_stores hlong hr

/-- What a sound memory holds is the configuration. -/
def Shown (base c : Config) : Prop := ∃ m, c = configOf m base ∧ Sound m

theorem Mirrored.back (h : Mirrored ts rs) : ∀ r ∈ rs, ∃ t ∈ ts, Mirrors t r := by
  induction h with
  | nil => exact fun r hr => absurd hr List.not_mem_nil
  | @row t₀ r₀ ts rs hm _ ih =>
      intro r hr
      rcases List.mem_cons.mp hr with rfl | hr
      · exact ⟨t₀, List.mem_cons_self, hm⟩
      · obtain ⟨t, ht, hmt⟩ := ih r hr
        exact ⟨t, List.mem_cons_of_mem _ ht, hmt⟩
  | unread _ _ ih =>
      intro r hr
      obtain ⟨t, ht, hmt⟩ := ih r hr
      exact ⟨t, List.mem_cons_of_mem _ ht, hmt⟩

/-- A setter of the loop is a store in the memory. -/
theorem rows_shown (base : Config) : ∀ r ∈ Vehicle.TUNABLES, r.Preserves (Shown base) := by
  intro r hr
  obtain ⟨t, ht, hname, hlo, hhi, hsets⟩ := TUNABLES_mirrored.back r hr
  have hbounds : t.type ≠ .bool → ∀ v : ℚ, r.lo = r.hi ∨ (r.lo ≤ v ∧ v ≤ r.hi) → t.lo ≤ v ∧ v ≤ t.hi := by
    intro hnum v hv
    rw [hlo, hhi] at hv
    exact hv.resolve_left (numeric_checked t ht hnum).lt.ne
  unfold TunableDesc.Preserves
  generalize htype : t.type = type at hsets hbounds
  generalize r.field = field at hsets
  cases hsets with
  | int hset =>
      rintro v _ hv ⟨m, rfl, hm⟩
      exact ⟨_, (hset v m base).symm, hm.update ⟨ht, htype.symm, fun _ => hbounds (by decide) v hv⟩⟩
  | long hset =>
      rintro v _ hv ⟨m, rfl, hm⟩
      exact ⟨_, (hset v m base).symm, hm.update ⟨ht, htype.symm, fun _ => hbounds (by decide) v hv⟩⟩
  | float hset =>
      rintro v _ hv ⟨m, rfl, hm⟩
      exact ⟨_, (hset v m base).symm, hm.update ⟨ht, htype.symm, fun _ => hbounds (by decide) v hv⟩⟩
  | bool hset =>
      rintro v _ ⟨m, rfl, hm⟩
      exact ⟨_, (hset v m base).symm, hm.update ⟨ht, htype.symm, fun hnum => absurd htype hnum⟩⟩

/-- A switch of the table, flipped. -/
theorem Sound.flip (h : Sound m) (name : String) (o : Offset)
    (hrow : (⟨name, .bool, o, 0, 0⟩ : TunableDesc) ∈ TUNABLES) (b : Bool) :
    Sound (Function.update m o (.bool b)) :=
  h.update (t := ⟨name, .bool, o, 0, 0⟩) ⟨hrow, rfl, fun hnum => absurd rfl hnum⟩

theorem shown_live (base : Config) : LiveInv (Shown base) where
  rows := rows_shown base
  toggleFec := by
    rintro _ b ⟨m, rfl, hm⟩
    exact ⟨_, rfl, hm.flip "fec.enabled" (.fec .enabled) (by decide +kernel) b⟩
  toggleMcs := by
    rintro _ b ⟨m, rfl, hm⟩
    exact ⟨_, rfl, hm.flip "mcs.enabled" (.mcs .enabled) (by decide +kernel) b⟩

theorem init_shown (b : Boot) {base : Config} (hb : Shown base b.cfg) : Shown base b.init.cfg := by
  obtain ⟨m, hcfg, hm⟩ := hb
  have hflip := hm.flip "cmd.enabled" (.cmd .enabled) (by decide +kernel)
    (b.cfg.mcs.enabled && b.cfg.cmd.enabled)
  refine ⟨_, ?_, hflip⟩
  have hswitched : b.init.cfg =
      { b.cfg with cmd := { b.cfg.cmd with enabled := b.cfg.mcs.enabled && b.cfg.cmd.enabled } } := by
    rw [Boot.init]
    dsimp only
    split_ifs <;> rfl
  rw [hswitched, hcfg]
  rfl

/-- In every run of the loop the live configuration is that of a memory with every tunable in
range, whatever `/set`, WCMD and the control law do. -/
theorem run_shown (b : Boot) {base : Config} (hb : Shown base b.cfg) (es : List Event) :
    Shown base (machine.run b.init es).cfg :=
  have hstep : ∀ s e, Shown base s.cfg → True → Shown base (machine.step s e).1.cfg :=
    fun _ e h _ => handle_live (shown_live base) h e
  machine.run_inv hstep (init_shown b hb) (Machine.Meets.of_forall fun _ _ => trivial)

/-- From the defaults on, after a query with a value out of range and an operator's command. -/
theorem run_shown_defaults : Shown {} (machine.run (Boot.withDefaults {}).init
    [.httpSet (pairsRead 64 "fec.mtu=1400&mcs.mcs_max=99&common.verbose=2".toList),
      .httpCmd 1000 13 0 {}]).cfg :=
  run_shown (Boot.withDefaults {}) ⟨configDefaults, configOf_defaults.symm, configDefaults_sound⟩ _

/-! ## The ranges of the loop -/

theorem Sound.toInt (h : Sound m) (ht : t ∈ TUNABLES) (htype : t.type = .int ∨ t.type = .long) :
    t.lo ≤ (m t.offset).toInt ∧ ((m t.offset).toInt : ℚ) ≤ t.hi := by
  have hnum : t.type ≠ .bool := by
    rcases htype with htype | htype <;> rw [htype] <;> decide
  have hrange := h.inRange t ht hnum
  have htyped := h.typed t ht
  rw [tunableRead] at hrange
  cases hcell : m t.offset with
  | int v | long v =>
      rw [hcell] at hrange
      exact hrange
  | float v | bool v =>
      rw [hcell] at htyped
      rcases htype with htype | htype <;> rw [htype] at htyped <;> cases htyped

theorem Sound.toRat (h : Sound m) (ht : t ∈ TUNABLES) (htype : t.type = .float) :
    t.lo ≤ (m t.offset).toRat ∧ (m t.offset).toRat ≤ t.hi := by
  have hrange := h.inRange t ht (by rw [htype]; decide)
  have htyped := h.typed t ht
  rw [tunableRead] at hrange
  cases hcell : m t.offset with
  | float v =>
      rw [hcell] at hrange
      exact hrange
  | int v | long v | bool v =>
      rw [hcell, htype] at htyped
      cases htyped

theorem Sound.within (h : Sound m) (name : String) {o : Offset} {lo hi : ℤ}
    (hrow : (⟨name, .int, o, lo, hi⟩ : TunableDesc) ∈ TUNABLES) :
    lo ≤ (m o).toInt ∧ (m o).toInt ≤ hi := by
  obtain ⟨hlo, hhi⟩ := h.toInt hrow (.inl rfl)
  exact ⟨Int.cast_le.mp hlo, Int.cast_le.mp hhi⟩

theorem Shown.inRange {base c : Config} (h : Shown base c) : c.InRange := by
  obtain ⟨m, rfl, hm⟩ := h
  constructor
  · exact hm.within "mcs.mcs_min" (o := .mcs .mcsMin) (by decide +kernel)
  · exact hm.within "mcs.mcs_max" (o := .mcs .mcsMax) (by decide +kernel)
  · have hkbps := hm.toInt (t := ⟨"fec.bitrate_min_kbps", .long, .fec .bitrateMinKbps, (100 : ℤ), 200000⟩)
      (by decide +kernel) (.inr rfl)
    exact Int.cast_le.mp hkbps.1
  · have htol := hm.toRat (t := ⟨"fec.bitrate_tolerance", .float, .fec .bitrateTolerance, 0.0, 1.0⟩)
      (by decide +kernel) rfl
    exact le_trans (by norm_num) htol.1

theorem Shown.fecRange {base c : Config} (h : Shown base c) : c.FecRange := by
  obtain ⟨m, rfl, hm⟩ := h
  have hlimit (name : String) (f : FecField)
      (hrow : (⟨name, .int, .fec f, (1 : ℤ), (256 : ℤ)⟩ : TunableDesc) ∈ TUNABLES) :
      1 ≤ (m (.fec f)).toInt ∧ (m (.fec f)).toInt ≤ 256 := hm.within name hrow
  have hk : 1 ≤ (m (.cmd .wfbFecKMin)).toInt ∧ (m (.cmd .wfbFecKMin)).toInt ≤ 256 :=
    hm.within "cmd.wfb_fec_k_min" (by decide +kernel)
  exact ⟨hlimit "fec.min_k" .minK (by decide +kernel),
    hlimit "fec.max_k" .maxK (by decide +kernel),
    hlimit "fec.min_n" .minN (by decide +kernel),
    hlimit "fec.max_n" .maxN (by decide +kernel), hk.1⟩

end Waybeam.Vehicle.Registry
