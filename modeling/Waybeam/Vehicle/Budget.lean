/-
# `Waybeam.Vehicle.Budget` — the two ceilings of the encoder's bitrate

`bitrate_assert` puts two ceilings on its target, and then measures the target against what it
wrote last: what stays inside the dead band is not written.

    airtime     a hard limit, honoured even below the floor: what was written before the ceiling
                sank stays in force above it while the target is inside the band (`underCap_iff`)
    payload     the bitrate a payload sustains: bitrate and payload travel in one write, but only
                the bitrate decides whether there is one (`pairSafe_of_kept`)
-/
import Waybeam.Vehicle.Mirror

namespace Waybeam.Vehicle

/-! ## Airtime -/

/-- The airtime ceiling of a call: for the rate, the block, and the payload it selects. -/
def airtimeCap (cfg : FecConfig) (phy : ℚ) (cur : FecParams) : ℤ :=
  airtimeSafeBitrateKbps phy (assertTarget cfg phy cur).2 cur.k cur.n cfg.airtimeMaxPct
    cfg.airtimePreambleUs

/-- Where there is a ceiling, neither the bitrate last written nor one the call wrote is above. -/
def UnderCap (cap : ℤ) (r : FecState × List Obs) : Prop :=
  0 < cap → r.1.lastWrittenKbps ≤ cap ∧ ∀ kbps ∈ r.2.filterMap Obs.ackedKbps, kbps ≤ cap

instance (cap : ℤ) (r : FecState × List Obs) : Decidable (UnderCap cap r) :=
  inferInstanceAs (Decidable (_ → _))

/-- The target respects the ceiling. -/
theorem assertTarget_le_cap {cfg : FecConfig} {phy : ℚ} {cur : FecParams}
    (h : 0 < airtimeCap cfg phy cur) : (assertTarget cfg phy cur).1 ≤ airtimeCap cfg phy cur := by
  have hon : 0 < cfg.airtimeMaxPct := by
    by_contra hoff
    rw [airtimeCap, airtimeSafeBitrateKbps, if_pos (not_lt.mp hoff)] at h
    omega
  revert h
  rw [airtimeCap, assertTarget]
  dsimp only
  generalize (if 0 < cfg.payloadMax then payloadSelect cfg (naturalTarget cfg phy cur)
    else (0, false)) = pc
  obtain ⟨payload, clipped⟩ := pc
  dsimp only
  generalize airtimeSafeBitrateKbps phy payload cur.k cur.n cfg.airtimeMaxPct
    cfg.airtimePreambleUs = cap
  rw [if_pos hon]
  intro h
  split_ifs <;> omega

/-- A bitrate above the target is replaced iff it is out of the band: a drop is never locked. -/
theorem assertWrites_of_lt {cfg : FecConfig} {f : FecState} {target : ℤ} (now : ℕ)
    (hpos : 0 < target) (hlt : target < f.lastWrittenKbps) :
    assertWrites cfg f target now = decide (assertTolerance cfg target < f.lastWrittenKbps - target) := by
  have hlast : 0 < f.lastWrittenKbps := hpos.trans hlt
  have hraise : wouldIncrease f.lastWrittenKbps target = false := by
    simp [wouldIncrease, hlt.le]
  have habs : |f.lastWrittenKbps - target| = f.lastWrittenKbps - target :=
    abs_of_pos (sub_pos.mpr hlt)
  simp [assertWrites, hraise, bitrateChanged, hlast, hlast.le, habs]

/-- A payload is only asked for with a bitrate. -/
theorem assertTarget_pos_of_payload {cfg : FecConfig} {phy : ℚ} {cur : FecParams}
    (h : 0 < (assertTarget cfg phy cur).2) : 0 < (assertTarget cfg phy cur).1 := by
  have hnat (hp : 0 < (payloadSelect cfg (naturalTarget cfg phy cur)).1) :
      0 < naturalTarget cfg phy cur := by
    by_contra hle
    rw [payloadSelect, if_pos (.inr (not_lt.mp hle))] at hp
    exact lt_irrefl _ hp
  revert h hnat
  rw [assertTarget]
  dsimp only
  generalize payloadSelect cfg (naturalTarget cfg phy cur) = pc
  obtain ⟨payload, clipped⟩ := pc
  intro h hnat
  by_cases hon : 0 < cfg.payloadMax
  · simp only [if_pos hon] at h ⊢
    have hpos := hnat h
    generalize payloadSafeBitrateKbps payload = safe
    generalize airtimeSafeBitrateKbps phy payload cur.k cur.n cfg.airtimeMaxPct
      cfg.airtimePreambleUs = cap
    split_ifs <;> omega
  · simp only [if_neg hon] at h
    exact absurd h (lt_irrefl _)

/-! ## A call -/

/-- What an acknowledged write sends: the bitrate, and a payload that is another. -/
def assertRequest (f : FecState) (target payload : ℤ) : VencReq where
  bitrateKbps := some (min target 200000)
  payloadBytes := if 0 < payload ∧ payload ≠ f.lastWrittenPayload then some payload else none

theorem assertWrite_acked {cfg : Config} (hd : cfg.dryRun = false) (f : FecState) {target : ℤ}
    (hpos : 0 < target) (payload : ℤ) (now : ℕ) :
    (assertWrite cfg f target payload now true).2
        = [.venc now .assert (assertRequest f target payload) true] ∧
      (assertWrite cfg f target payload now true).1.mirrors
        = (target, if 0 < payload then payload else f.lastWrittenPayload) := by
  have hreq : vencRequest target
      (if (decide (0 < payload) && decide (payload ≠ f.lastWrittenPayload)) = true
        then payload else -1) = some (assertRequest f target payload) := by
    rw [vencRequest, assertRequest]
    by_cases hp : 0 < payload <;> by_cases hne : payload = f.lastWrittenPayload <;>
      simp [hpos, hp, hne]
  have hmirror : (if (decide (0 < payload) && decide (payload ≠ f.lastWrittenPayload)) = true
      then payload else f.lastWrittenPayload) = if 0 < payload then payload else f.lastWrittenPayload := by
    by_cases hp : 0 < payload <;> by_cases hne : payload = f.lastWrittenPayload <;>
      simp [hp, hne]
  simp only [assertWrite, hd, vencApply, hreq, hmirror]
  constructor
  · rfl
  · simp only [FecState.mirrors]
    split <;> rfl

@[simp] theorem ackedKbps_asserted (now : ℕ) (target : ℤ) :
    Obs.ackedKbps (.asserted now target) = none := rfl

@[simp] theorem ackedKbps_venc (now : ℕ) (who : VencBy) (req : VencReq) :
    Obs.ackedKbps (.venc now who req true) = req.bitrateKbps := rfl

section Call

variable (radio : RadioState) (cfg : Config) (f : FecState) (cur : FecParams) (now : ℕ)

/-- With a radio and a block a call decides on the target, unless the controller is off. -/
theorem bitrateAssert_runs (hvalid : radio.valid = true) (hcur : f.ctrl.current = some cur)
    (answer : Bool) :
    bitrateAssert radio cfg f now answer =
      if !cfg.fec.enabled then (f, [])
      else if assertWrites cfg.fec f (assertTarget cfg.fec radio.phyMbps cur).1 now then
        ((assertWrite cfg f (assertTarget cfg.fec radio.phyMbps cur).1
            (assertTarget cfg.fec radio.phyMbps cur).2 now answer).1,
          .asserted now (assertTarget cfg.fec radio.phyMbps cur).1 ::
            (assertWrite cfg f (assertTarget cfg.fec radio.phyMbps cur).1
              (assertTarget cfg.fec radio.phyMbps cur).2 now answer).2)
      else (f, [.asserted now (assertTarget cfg.fec radio.phyMbps cur).1]) := by
  simp only [bitrateAssert, hcur, hvalid, Bool.not_true, Bool.or_false]

/-- Without a target there is nothing to send. -/
theorem assertWrite_of_nonpos {target payload : ℤ} (ht : target ≤ 0) (hp : payload ≤ 0)
    (answer : Bool) :
    (assertWrite cfg f target payload now answer).2 = [] ∧
      (cfg.dryRun = false →
        (assertWrite cfg f target payload now answer).1.mirrors = f.mirrors) := by
  have hreq : vencRequest target (-1) = none := by simp [vencRequest, not_lt.mpr ht]
  simp only [assertWrite, decide_eq_false (not_lt.mpr hp), Bool.false_and, Bool.false_eq_true,
    if_false, vencApply, hreq]
  constructor
  · split <;> rfl
  · intro hd
    simp only [hd, FecState.mirrors]
    split <;> rfl

/-- After a call the bitrate in force is under the ceiling iff it was before, or the target left
the band around it. -/
theorem underCap_iff (hvalid : radio.valid = true) (hcur : f.ctrl.current = some cur)
    (hd : cfg.dryRun = false) :
    UnderCap (airtimeCap cfg.fec radio.phyMbps cur) (bitrateAssert radio cfg f now true) ↔
      (0 < airtimeCap cfg.fec radio.phyMbps cur →
        f.lastWrittenKbps ≤ airtimeCap cfg.fec radio.phyMbps cur ∨
          cfg.fec.enabled = true ∧ 0 < (assertTarget cfg.fec radio.phyMbps cur).1 ∧
            assertTolerance cfg.fec (assertTarget cfg.fec radio.phyMbps cur).1
              < f.lastWrittenKbps - (assertTarget cfg.fec radio.phyMbps cur).1) := by
  rw [UnderCap, bitrateAssert_runs radio cfg f cur now hvalid hcur]
  refine imp_congr_right fun hcap => ?_
  have hle := assertTarget_le_cap hcap
  have hpay : 0 < (assertTarget cfg.fec radio.phyMbps cur).2 →
      0 < (assertTarget cfg.fec radio.phyMbps cur).1 := assertTarget_pos_of_payload
  generalize airtimeCap cfg.fec radio.phyMbps cur = cap at hcap hle ⊢
  generalize assertTarget cfg.fec radio.phyMbps cur = tp at hle hpay ⊢
  obtain ⟨target, payload⟩ := tp
  dsimp only at hle hpay ⊢
  cases hen : cfg.fec.enabled
  · simp
  rw [if_neg (by simp)]
  simp only [true_and]
  rcases le_or_gt target 0 with hneg | hpos
  · -- no target: whatever is decided, nothing is sent
    have hnopay : payload ≤ 0 := not_lt.mp fun hp => absurd (hpay hp) (not_lt.mpr hneg)
    have hquiet := assertWrite_of_nonpos cfg f now hneg hnopay true
    have hkept : (assertWrite cfg f target payload now true).1.lastWrittenKbps = f.lastWrittenKbps :=
      congrArg Prod.fst (hquiet.2 hd)
    split
    · simp [hquiet.1, hkept, not_lt.mpr hneg]
    · simp [not_lt.mpr hneg]
  · obtain ⟨hobs, hmirrors⟩ := assertWrite_acked hd f hpos payload now
    have hwrote : (assertWrite cfg f target payload now true).1.lastWrittenKbps = target :=
      congrArg Prod.fst hmirrors
    by_cases habove : f.lastWrittenKbps ≤ cap
    · simp only [habove, true_or, iff_true]
      split
      · rw [hobs, hwrote]
        exact ⟨hle, by simp [assertRequest, hle]⟩
      · simp [habove]
    · have hlt : target < f.lastWrittenKbps := by omega
      rw [assertWrites_of_lt now hpos hlt]
      by_cases hband : assertTolerance cfg.fec target < f.lastWrittenKbps - target
      · rw [if_pos (decide_eq_true hband), hobs, hwrote]
        simp [hpos, hband, hle, assertRequest]
      · rw [if_neg (by simp [hband])]
        simp [habove, hband]

end Call

/-- HT20 at MCS 0, half of whose airtime may be used. -/
def slowRadio : RadioState := .observe ⟨0, 20, 0, 1, 1, 0, 0⟩

def halfAirtime : Config := { fec := { airtimeMaxPct := 50 } }

/-- The block for frames of the given size. -/
def blockFor (frameSize : ℚ) : FecParams := fecCompute frameSize (105 / 100) halfAirtime.fec 0

/-- The controller with that block in force. -/
def inBlock (frameSize : ℚ) (f : FecState) : FecState :=
  { f with ctrl := { f.ctrl with current := some (blockFor frameSize) } }

/-- 2117 kbit/s, written under 6/9, when the block turns to 5/8. -/
theorem underCap_iff_slow :
    UnderCap (airtimeCap halfAirtime.fec slowRadio.phyMbps (blockFor 6000))
        (bitrateAssert slowRadio halfAirtime (inBlock 6000 { lastWrittenKbps := 2117 }) 0 true) ↔
      (0 < airtimeCap halfAirtime.fec slowRadio.phyMbps (blockFor 6000) →
        2117 ≤ airtimeCap halfAirtime.fec slowRadio.phyMbps (blockFor 6000) ∨
          halfAirtime.fec.enabled = true ∧
            0 < (assertTarget halfAirtime.fec slowRadio.phyMbps (blockFor 6000)).1 ∧
            assertTolerance halfAirtime.fec
                (assertTarget halfAirtime.fec slowRadio.phyMbps (blockFor 6000)).1
              < 2117 - (assertTarget halfAirtime.fec slowRadio.phyMbps (blockFor 6000)).1) :=
  underCap_iff slowRadio halfAirtime (inBlock 6000 { lastWrittenKbps := 2117 }) (blockFor 6000) 0
    rfl rfl rfl

/-- The ceiling of 6/9 is written first; that of 7/11 lies below it, within the band. -/
theorem not_underCap :
    ¬∀ (radio : RadioState) (cfg : Config) (f : FecState) (cur : FecParams) (now : ℕ),
      0 < cfg.fec.airtimeMaxPct → radio.valid = true → f.ctrl.current = some cur →
      cfg.dryRun = false →
      UnderCap (airtimeCap cfg.fec radio.phyMbps cur) (bitrateAssert radio cfg f now true) := by
  intro h
  have hcall := h slowRadio halfAirtime
    (inBlock 9000 (bitrateAssert slowRadio halfAirtime (inBlock 8000 {}) 0 true).1) (blockFor 9000)
    1000000 (by decide) rfl rfl rfl
  exact absurd hcall (by decide +kernel)

/-! ## Payload tiers -/

/-- A tier whose payload fits bounds what the payload sustains from below. -/
theorem le_payloadSafe {t : Option ℤ × ℤ} (ht : t ∈ PAYLOAD_TABLE) {p : ℤ} (hp : t.2 ≤ p) :
    t.1.getD longMax ≤ payloadSafeBitrateKbps p := by
  have hmem : t.1.getD longMax ∈ (PAYLOAD_TABLE.filter fun t => decide (t.2 ≤ p)).map
      (·.1.getD longMax) :=
    List.mem_map_of_mem (List.mem_filter.mpr ⟨ht, decide_eq_true hp⟩)
  have hpos : 0 ≤ t.1.getD longMax := by
    revert ht
    exact (by decide : ∀ t ∈ PAYLOAD_TABLE, 0 ≤ t.1.getD longMax) t
  have hbest := (foldl_max_spec (-1) _).2 _ (List.mem_cons_of_mem _ hmem)
  rw [payloadSafeBitrateKbps]
  rwa [if_neg (not_lt.mpr (hpos.trans hbest))]

/-- It is the bound of such a tier, or that of the first. -/
theorem payloadSafe_cases (p : ℤ) :
    payloadSafeBitrateKbps p = 2000 ∨
      ∃ t ∈ PAYLOAD_TABLE, t.2 ≤ p ∧ payloadSafeBitrateKbps p = t.1.getD longMax := by
  rw [payloadSafeBitrateKbps]
  split
  · exact .inl rfl
  · rename_i hpos
    refine .inr ?_
    rcases List.mem_cons.mp (foldl_max_spec (-1) _).1 with hneg | hmem
    · rw [hneg] at hpos
      omega
    · obtain ⟨t, ht, hb⟩ := List.mem_map.mp hmem
      obtain ⟨ht, hp⟩ := List.mem_filter.mp ht
      exact ⟨t, ht, of_decide_eq_true hp, hb.symm⟩

theorem two_thousand_le_payloadSafe (p : ℤ) : 2000 ≤ payloadSafeBitrateKbps p := by
  rcases payloadSafe_cases p with h | ⟨t, ht, -, h⟩
  · exact h.ge
  · rw [h]
    exact (by decide : ∀ t ∈ PAYLOAD_TABLE, 2000 ≤ t.1.getD longMax) t ht

/-- A larger payload sustains no less. -/
theorem payloadSafe_mono {p q : ℤ} (h : p ≤ q) :
    payloadSafeBitrateKbps p ≤ payloadSafeBitrateKbps q := by
  rcases payloadSafe_cases p with hp | ⟨t, ht, hfit, hp⟩
  · exact hp ▸ two_thousand_le_payloadSafe q
  · exact hp ▸ le_payloadSafe ht (hfit.trans h)

/-- The tier of a bitrate sustains what of it is sent. -/
theorem sent_le_payloadSafe {bitrate p : ℤ} (hp : payloadTableLookup bitrate ≤ p) :
    min bitrate 200000 ≤ payloadSafeBitrateKbps p := by
  rw [payloadTableLookup] at hp
  cases hfind : PAYLOAD_TABLE.find? fun t => decide (bitrate < t.1.getD longMax) with
  | none =>
      rw [hfind] at hp
      have hlast : (200000 : ℤ) ≤ longMax := by decide
      exact (min_le_right _ _).trans
        (hlast.trans (le_payloadSafe (t := (none, 3200)) (by decide) hp))
  | some t =>
      rw [hfind] at hp
      have hlt : bitrate < t.1.getD longMax := of_decide_eq_true (List.find?_some hfind :)
      exact (min_le_left _ _).trans
        (hlt.le.trans (le_payloadSafe (List.mem_of_find?_eq_some hfind) hp))

/-- Where sizing is on, a payload is selected; what it does not sustain is reported as clipped. -/
theorem payloadSelect_spec {cfg : FecConfig} (hon : 0 < cfg.payloadMax) {t : ℤ} (ht : 0 < t) :
    0 < (payloadSelect cfg t).1 ∧
      ((payloadSelect cfg t).2 = false → payloadTableLookup t ≤ (payloadSelect cfg t).1) := by
  have hoff : ¬(cfg.payloadMax ≤ 0 ∨ t ≤ 0) := by omega
  have hfloor : 576 ≤ clampInt 576 4000 cfg.payloadMin := by
    rw [clampInt]
    split_ifs <;> omega
  rw [payloadSelect, if_neg hoff]
  dsimp only
  generalize payloadTableLookup t = pick
  generalize clampInt 576 4000 cfg.payloadMin = floor at hfloor
  split_ifs <;> simp <;> omega

/-- The pair of a call is one the table sustains, or sits at the floor. -/
theorem assertTarget_sustained {cfg : FecConfig} (hon : 0 < cfg.payloadMax)
    (hmin : 0 < cfg.bitrateMinKbps) (phy : ℚ) (cur : FecParams) :
    0 < (assertTarget cfg phy cur).2 ∧
      (min (assertTarget cfg phy cur).1 200000 ≤ payloadSafeBitrateKbps (assertTarget cfg phy cur).2 ∨
        (assertTarget cfg phy cur).1 ≤ cfg.bitrateMinKbps) := by
  have hnat : cfg.bitrateMinKbps ≤ naturalTarget cfg phy cur := by
    unfold naturalTarget
    dsimp only
    split_ifs <;> omega
  obtain ⟨hpos, hfits⟩ := payloadSelect_spec hon (hmin.trans_le hnat)
  have hsent (h : (payloadSelect cfg (naturalTarget cfg phy cur)).2 = false) :
      min (naturalTarget cfg phy cur) 200000
        ≤ payloadSafeBitrateKbps (payloadSelect cfg (naturalTarget cfg phy cur)).1 :=
    sent_le_payloadSafe (hfits h)
  rw [assertTarget]
  simp only [if_pos hon]
  generalize payloadSelect cfg (naturalTarget cfg phy cur) = pc at hpos hsent ⊢
  obtain ⟨payload, clipped⟩ := pc
  have hsafe := two_thousand_le_payloadSafe payload
  refine ⟨hpos, ?_⟩
  dsimp only at hpos hsent ⊢
  generalize payloadSafeBitrateKbps payload = safe at hsafe hsent ⊢
  generalize hcapped : (if clipped = true ∧ 0 < payload then _ else _ : ℤ) = capped
  have hsustained : min capped 200000 ≤ safe ∨ capped ≤ cfg.bitrateMinKbps := by
    subst hcapped
    cases clipped
    · exact .inl (hsent rfl)
    · simp only [true_and, if_pos hpos]
      split_ifs with hover hfloor
      · exact .inr le_rfl
      · exact .inl (min_le_left _ _)
      · exact .inl ((min_le_left _ _).trans (by omega))
  -- the airtime ceiling only lowers the target
  have hair (cap : ℤ) : (if 0 < cfg.airtimeMaxPct then
      if 0 < cap ∧ cap < capped then cap else capped else capped) ≤ capped := by
    split_ifs <;> omega
  exact hsustained.imp (le_trans (min_le_min_right _ (hair _))) (le_trans (hair _))

/-! ## The pair in force -/

/-- The payload and the bitrate the encoder runs with. -/
structure EncPair where
  payload : ℤ
  kbps : ℤ
  deriving DecidableEq

/-- The encoder takes the fields a request names. -/
def EncPair.take (p : EncPair) (req : VencReq) : EncPair where
  payload := req.payloadBytes.getD p.payload
  kbps := req.bitrateKbps.getD p.kbps

/-- The pair as the acknowledged writes leave it. -/
def inForce : Monitor Obs EncPair where
  upd
    | p, .venc _ _ req true => p.take req
    | p, _ => p
  ok _ _ := true

/-- The table lets this payload carry this bitrate, or the floor asks for it. -/
def EncPair.Sustained (cfg : FecConfig) (p : EncPair) : Prop :=
  p.kbps ≤ payloadSafeBitrateKbps p.payload ∨ p.kbps ≤ cfg.bitrateMinKbps

instance (cfg : FecConfig) (p : EncPair) : Decidable (p.Sustained cfg) :=
  inferInstanceAs (Decidable (_ ∨ _))

/-- When a `bitrate_assert` reached its decision. -/
def Obs.assertedAt : Obs → Option ℕ
  | .asserted now _ => some now
  | _ => none

/-- After a `bitrate_assert` with sizing on and no up-lock, the pair in force is sustained. -/
def PairSafe (sp : Lc × EncPair) (e : Event) : Prop :=
  let r := machine.step sp.1 e
  ∀ now ∈ r.2.filterMap Obs.assertedAt, 0 < r.1.cfg.fec.payloadMax →
    r.1.fec.ctrl.upLocked now = false → (inForce.after sp.2 r.2).Sustained r.1.cfg.fec

instance (sp : Lc × EncPair) (e : Event) : Decidable (PairSafe sp e) :=
  inferInstanceAs (Decidable (∀ now ∈ _, _ → _ → _))

/-- Not a failed write, and not the operator's. -/
def Obs.serves : Obs → Bool
  | .venc _ who _ ok => ok && who != .operator
  | _ => true

/-- Off dry-run, every write of the step is acknowledged and none is the operator's. -/
def VencServes (s : Lc) (e : Event) : Prop :=
  s.cfg.dryRun = false ∧ ∀ o ∈ (machine.step s e).2, o.serves

instance (s : Lc) (e : Event) : Decidable (VencServes s e) :=
  inferInstanceAs (Decidable (_ ∧ _))

/-- The pair after the write of the wedge watchdog. -/
def Lc.rescued (s : Lc) (p : EncPair) : EncPair :=
  ((vencRequest s.cfg.fec.safeStartupBitrateKbps s.cfg.fec.safeStartupPayload).map p.take).getD p

/-- What passes `bitrate_assert` by leaves it nothing to repair: a `/set` that leaves sizing on
finds the pair in force sustained, and the wedge watchdog leaves it so, with no smaller payload
than the one on record. -/
def LeavesPair (sp : Lc × EncPair) : Event → Prop
  | .httpSet qs =>
      let cfg := (applyQuery sp.1.cfg qs).fec
      0 ≤ sp.1.fec.lastWrittenKbps → 0 < cfg.payloadMax → sp.2.Sustained cfg
  | .sidecar dt dt₁ d _ _ =>
      sp.1.wedgeWrites d (sp.1.clock + dt + dt₁) = true →
        (0 < sp.1.fec.lastWrittenPayload →
          sp.1.fec.lastWrittenPayload ≤ (sp.1.rescued sp.2).payload) ∧
        (0 ≤ sp.1.fec.lastWrittenKbps → 0 < sp.1.cfg.fec.payloadMax →
          (sp.1.rescued sp.2).Sustained sp.1.cfg.fec)
  | _ => True

instance (sp : Lc × EncPair) : ∀ e, Decidable (LeavesPair sp e)
  | .httpSet _ => inferInstanceAs (Decidable (_ → _ → _))
  | .sidecar .. => inferInstanceAs (Decidable (_ → _ ∧ _))
  | .pendingTick .. | .probeTick .. | .subscribe .. | .watchdog .. | .radioPoll .. | .httpCmd ..
  | .txStats .. | .stale .. | .wcmd .. | .probeRec .. | .rxAnt .. | .external .. =>
      inferInstanceAs (Decidable True)

/-! ### One call -/

/-- The record and the pair in force: no larger payload on record, and a pair that is sustained
once something was written. -/
structure Matches (cfg : FecConfig) (record : ℤ × ℤ) (p : EncPair) : Prop where
  payload : 0 < record.2 → record.2 ≤ p.payload
  sustained : 0 ≤ record.1 → 0 < cfg.payloadMax → p.Sustained cfg

/-- What is not written stays in the band of something written. -/
theorem written_of_not_assertWrites {cfg : FecConfig} {f : FecState} {target : ℤ} {now : ℕ}
    (h : ¬assertWrites cfg f target now = true) : 0 ≤ f.lastWrittenKbps := by
  by_contra hneg
  refine h ?_
  have hneg : f.lastWrittenKbps < 0 := not_le.mp hneg
  simp [assertWrites, bitrateChanged, wouldIncrease, hneg, not_lt.mpr hneg.le]

/-- A payload that a write asks for is in force behind it, or a larger one. -/
theorem Matches.payload_take {cfg : FecConfig} {f : FecState} {p : EncPair}
    (h : Matches cfg f.mirrors p) {payload : ℤ} (hp : 0 < payload) (target : ℤ) :
    payload ≤ (p.take (assertRequest f target payload)).payload := by
  rw [EncPair.take, assertRequest]
  by_cases hsame : payload = f.lastWrittenPayload
  · have hkept : f.lastWrittenPayload ≤ p.payload := h.payload (hsame.symm.trans_gt hp)
    simpa [hsame] using hkept
  · simp [hp, hsame]

/-- A write of a pair that is sustained keeps the match. -/
theorem Matches.write {cfg : FecConfig} {f : FecState} {p : EncPair} (h : Matches cfg f.mirrors p)
    {target payload : ℤ} (hsust : 0 < cfg.payloadMax → 0 < payload ∧
      (min target 200000 ≤ payloadSafeBitrateKbps payload ∨ target ≤ cfg.bitrateMinKbps)) :
    Matches cfg (target, if 0 < payload then payload else f.lastWrittenPayload)
      (p.take (assertRequest f target payload)) := by
  refine ⟨?_, ?_⟩
  · dsimp only
    split
    · rename_i hp
      exact fun _ => h.payload_take hp target
    · rename_i hnone
      intro hlast
      have hkept : (p.take (assertRequest f target payload)).payload = p.payload := by
        simp [EncPair.take, assertRequest, hnone]
      rw [hkept]
      exact h.payload hlast
  · intro _ hon
    obtain ⟨hp, hsafe | hfloor⟩ := hsust hon
    · exact .inl (hsafe.trans (payloadSafe_mono (h.payload_take hp target)))
    · exact .inr ((min_le_left _ _).trans hfloor)

/-- A call keeps the match, and leaves something written. -/
theorem bitrateAssert_matches {cfg : Config} (hd : cfg.dryRun = false) (hc : cfg.InRange)
    (radio : RadioState) {f : FecState} {p : EncPair} (h : Matches cfg.fec f.mirrors p) (now : ℕ)
    (answer : Bool) (hserves : ∀ o ∈ (bitrateAssert radio cfg f now answer).2, o.serves) :
    Matches cfg.fec (bitrateAssert radio cfg f now answer).1.mirrors
        (inForce.after p (bitrateAssert radio cfg f now answer).2) ∧
      ((bitrateAssert radio cfg f now answer).2 ≠ [] →
        0 ≤ (bitrateAssert radio cfg f now answer).1.lastWrittenKbps) := by
  rcases bitrateAssert_cases radio cfg f now answer with hcall | ⟨cur, hcall⟩
  · rw [hcall]
    exact ⟨h, fun hne => absurd rfl hne⟩
  have hmin : 0 < cfg.fec.bitrateMinKbps := by have := hc.bitrateMin; omega
  have hpos := assertTarget_pos hmin radio.phyMbps cur
  have hsust (hon : 0 < cfg.fec.payloadMax) := assertTarget_sustained hon hmin radio.phyMbps cur
  generalize assertTarget cfg.fec radio.phyMbps cur = tp at hcall hpos hsust
  obtain ⟨target, payload⟩ := tp
  dsimp only at hcall hpos hsust
  rw [hcall] at hserves ⊢
  split at hserves
  case isFalse hw =>
    rw [if_neg hw]
    exact ⟨h, fun _ => written_of_not_assertWrites hw⟩
  case isTrue hw =>
    rw [if_pos hw]
    obtain ⟨req, -, hobs, -⟩ := assertWrite_spec hd f hpos payload now answer
    have hack : answer = true := by
      have := hserves (.venc now .assert req answer) (by simp [hobs])
      simpa [Obs.serves] using this
    subst hack
    obtain ⟨hobs, hmirrors⟩ := assertWrite_acked hd f hpos payload now
    rw [hobs, hmirrors]
    have hwritten : 0 ≤ (assertWrite cfg f target payload now true).1.lastWrittenKbps :=
      hpos.le.trans_eq (congrArg Prod.fst hmirrors).symm
    exact ⟨h.write hsust, fun _ => hwritten⟩

/-! ### Paths -/

theorem inForce_filter (p : EncPair) (os : List Obs) :
    inForce.after p (os.filter Obs.isEncoder) = inForce.after p os := by
  induction os generalizing p with
  | nil => rfl
  | cons o os ih =>
      cases hk : o.isEncoder
      · have hkept : inForce.upd p o = p := by cases o <;> first | rfl | cases hk
        rw [List.filter_cons_of_neg (by simp [hk]), Monitor.after_cons, hkept, ih]
      · rw [List.filter_cons_of_pos hk, Monitor.after_cons, Monitor.after_cons, ih]

theorem assertedAt_filter (os : List Obs) :
    (os.filter Obs.isEncoder).filterMap Obs.assertedAt = os.filterMap Obs.assertedAt := by
  have hsame : (fun o => if Obs.isEncoder o then Obs.assertedAt o else none) = Obs.assertedAt := by
    funext o
    cases o <;> rfl
  rw [List.filterMap_filter, hsame]

/-- What a path from `s` must leave: the match, and something written where it asserted. -/
def PathMatches (p : EncPair) (r : Lc × List Obs) : Prop :=
  Matches r.1.cfg.fec r.1.fec.mirrors (inForce.after p r.2) ∧
    (r.2.filterMap Obs.assertedAt ≠ [] → 0 ≤ r.1.fec.lastWrittenKbps)

/-- A path that says nothing about the encoder. -/
theorem PathMatches.of_silent {p : EncPair} {r : Lc × List Obs}
    (hobs : r.2.filter Obs.isEncoder = []) (h : Matches r.1.cfg.fec r.1.fec.mirrors p) :
    PathMatches p r := by
  have hafter : inForce.after p r.2 = p := by rw [← inForce_filter, hobs]; rfl
  have hnone : r.2.filterMap Obs.assertedAt = [] := by rw [← assertedAt_filter, hobs]; rfl
  rw [PathMatches, hafter]
  exact ⟨h, fun hne => absurd hnone hne⟩

theorem EncCall.pathMatches {s : Lc} {r : Lc × List Obs} {p : EncPair} (h : EncCall s r)
    (hd : s.cfg.dryRun = false) (hc : s.cfg.InRange) (hcfg : r.1.cfg = s.cfg)
    (hm : Matches s.cfg.fec s.fec.mirrors p) (hserves : ∀ o ∈ r.2, o.serves) : PathMatches p r := by
  cases h with
  | idle hobs hf => exact .of_silent hobs (by rwa [hcfg, hf])
  | assert radio f now answer hf hobs hr =>
      have hserves' : ∀ o ∈ (bitrateAssert radio s.cfg f now answer).2, o.serves := by
        intro o ho
        exact hserves o (List.mem_of_mem_filter (hobs ▸ ho))
      obtain ⟨hmatch, hwritten⟩ :=
        bitrateAssert_matches hd hc radio (f := f) (hf ▸ hm) now answer hserves'
      rw [← hobs, ← hr, inForce_filter] at hmatch
      rw [← hobs, ← hr] at hwritten
      rw [PathMatches, hcfg]
      refine ⟨hmatch, fun hne => hwritten ?_⟩
      intro hnil
      rw [← assertedAt_filter, hnil] at hne
      exact hne rfl

theorem skipped_eq (s : Lc) (now : ℕ) (venc : Bool) :
    (s.skipped now venc).1.fec = s.fec ∧ (s.skipped now venc).1.cfg = s.cfg ∧
      (s.skipped now venc).2 =
        if s.wedgeArmed && s.wedgeDue now then
          (vencApply now .wedge s.cfg.fec.safeStartupBitrateKbps s.cfg.fec.safeStartupPayload venc).2
        else [] := by
  rw [Lc.skipped]
  dsimp only
  cases s.wedgeArmed
  · exact ⟨rfl, rfl, rfl⟩
  cases s.wedgeDue now <;> exact ⟨rfl, rfl, rfl⟩

theorem vencApply_encoder (now : ℕ) (who : VencBy) (bitrate payload : ℤ) (answer : Bool) :
    (vencApply now who bitrate payload answer).2.filter Obs.isEncoder
      = (vencApply now who bitrate payload answer).2 := by
  rw [vencApply]
  split <;> rfl

/-- A skipped frame brings the write of the wedge watchdog, or nothing. -/
theorem sidecar_skips {s : Lc} (d : SidecarDgram) (now nowFec : ℕ) (setFec venc : Bool)
    (hskip : (s.hears d && d.hasSize && s.skipFec d) = true) :
    (s.sidecar d now nowFec setFec venc).1.fec = s.fec ∧
      (s.sidecar d now nowFec setFec venc).1.cfg = s.cfg ∧
      (s.sidecar d now nowFec setFec venc).2.filter Obs.isEncoder =
        if s.wedgeWrites d nowFec then
          (vencApply nowFec .wedge s.cfg.fec.safeStartupBitrateKbps s.cfg.fec.safeStartupPayload
            venc).2
        else [] := by
  have hsame : (s.heard d now).1.fec = s.fec ∧ (s.heard d now).1.wedgeArmed = s.wedgeArmed ∧
      (s.heard d now).1.wedgeDue nowFec = s.wedgeDue nowFec ∧
      (s.heard d now).2.filter Obs.isEncoder = [] := by
    rw [Lc.heard, Lc.readTransport]
    split <;> exact ⟨rfl, rfl, rfl, rfl⟩
  obtain ⟨hfec, harmed, hdue, hquiet⟩ := hsame
  obtain ⟨hfec', hcfg', hobs⟩ := skipped_eq (s.heard d now).1 nowFec venc
  rw [hfec] at hfec'
  rw [heard_cfg] at hcfg' hobs
  rw [harmed, hdue] at hobs
  have hwedge : s.wedgeWrites d nowFec = (s.wedgeArmed && s.wedgeDue nowFec) := by
    rw [Lc.wedgeWrites, hskip, Bool.true_and]
  simp only [Bool.and_eq_true] at hskip
  obtain ⟨⟨hhears, hsize⟩, hskip⟩ := hskip
  have hside : s.sidecar d now nowFec setFec venc =
      (((s.heard d now).1.skipped nowFec venc).1,
        (s.heard d now).2 ++ ((s.heard d now).1.skipped nowFec venc).2) := by
    simp [Lc.sidecar, Lc.sizeTick, andThen, hhears, hsize, hskip]
  rw [hside, hwedge]
  refine ⟨hfec', hcfg', ?_⟩
  rw [List.filter_append, hquiet, List.nil_append, hobs]
  split
  · exact vencApply_encoder ..
  · rfl

/-- A frame that is skipped keeps the match if the wedge watchdog does. -/
theorem sidecar_pathMatches {s : Lc} {p : EncPair} (dt dt₁ : ℕ) (d : SidecarDgram)
    (setFec venc : Bool) (hskip : (s.hears d && d.hasSize && s.skipFec d) = true)
    (hm : Matches s.cfg.fec s.fec.mirrors p)
    (hserves : ∀ o ∈ (s.handle (.sidecar dt dt₁ d setFec venc)).2, o.serves)
    (hkept : LeavesPair (s, p) (.sidecar dt dt₁ d setFec venc)) :
    PathMatches p (s.handle (.sidecar dt dt₁ d setFec venc)) := by
  obtain ⟨hfec, hcfg, hobs⟩ := sidecar_skips d (s.clock + dt) (s.clock + dt + dt₁) setFec venc hskip
  have hserves' : ∀ o ∈ (s.handle (.sidecar dt dt₁ d setFec venc)).2.filter Obs.isEncoder, o.serves :=
    fun o ho => hserves o (List.mem_of_mem_filter ho)
  rw [Lc.handle] at hserves' ⊢
  rw [hobs] at hserves'
  cases hw : s.wedgeWrites d (s.clock + dt + dt₁)
  · rw [hw] at hobs
    exact .of_silent hobs (by rwa [hfec, hcfg])
  · rw [hw, if_pos rfl] at hobs hserves'
    have hafter : inForce.after p (vencApply (s.clock + dt + dt₁) .wedge
        s.cfg.fec.safeStartupBitrateKbps s.cfg.fec.safeStartupPayload venc).2 = s.rescued p := by
      rw [Lc.rescued]
      revert hserves'
      rw [vencApply]
      cases vencRequest s.cfg.fec.safeStartupBitrateKbps s.cfg.fec.safeStartupPayload with
      | none => exact fun _ => rfl
      | some req =>
          intro hserves'
          have hack : venc = true := by
            simpa [Obs.serves] using hserves' _ List.mem_cons_self
          subst hack
          rfl
    have hnone : (s.sidecar d (s.clock + dt) (s.clock + dt + dt₁) setFec venc).2.filterMap
        Obs.assertedAt = [] := by
      rw [← assertedAt_filter, hobs, vencApply]
      split <;> rfl
    obtain ⟨hpay, hsust⟩ := hkept hw
    rw [PathMatches, hfec, hcfg, ← inForce_filter, hobs, hafter]
    exact ⟨⟨hpay, hsust⟩, fun hne => absurd hnone hne⟩

/-- A dispatch that does not reach the encoder says nothing about it. -/
theorem wcmdDispatch_silent (cfg : Config) (st : WcmdState) (air : RadioBody) (req : WcmdReq)
    (peerIsLoopback : Bool) (now : ℕ) (io : CmdIo)
    (hserves : ∀ o ∈ (wcmdDispatch cfg st air req peerIsLoopback now io).obs, o.serves) :
    (wcmdDispatch cfg st air req peerIsLoopback now io).obs.filter Obs.isEncoder = [] := by
  refine List.filter_eq_nil_iff.mpr fun o ho => ?_
  have hs := hserves o ho
  rcases wcmdDispatch_cases cfg st air now io req peerIsLoopback with h | h
  · rcases h.obs o ho with ⟨k, n, sent, rfl⟩ | ⟨t, q, ok, rfl⟩
    · exact Bool.false_ne_true
    · simp [Obs.serves] at hs
  · obtain ⟨key, value, hobs, -, -⟩ := h.sent
    rw [hobs, List.mem_singleton] at ho
    exact ho ▸ Bool.false_ne_true

/-- Turning a loop on or off concerns no pair. -/
theorem CmdOut.Toggles.keeps_match {o : CmdOut} {cfg : Config} (h : o.Toggles cfg)
    {record : ℤ × ℤ} {p : EncPair} (hm : Matches cfg.fec record p) : Matches o.cfg.fec record p := by
  rcases h with h | ⟨b, h⟩ | ⟨b, h⟩ <;> rw [h]
  · exact hm
  · exact ⟨hm.payload, hm.sustained⟩
  · exact hm

theorem dispatch_pathMatches {s : Lc} {p : EncPair} (hm : Matches s.cfg.fec s.fec.mirrors p)
    (req : WcmdReq) (peerIsLoopback : Bool) (now : ℕ) (io : CmdIo)
    (hserves : ∀ o ∈ (s.dispatch req peerIsLoopback now io).2, o.serves) :
    PathMatches p (s.dispatch req peerIsLoopback now io) :=
  .of_silent (wcmdDispatch_silent _ _ _ _ _ _ _ hserves)
    ((wcmdDispatch_toggles s.cfg s.wcmd s.air now io req peerIsLoopback).keeps_match hm)

theorem adoptOutstanding_mirrors (s : Lc) (now nowObs : ℕ) :
    (s.adoptOutstanding now nowObs).fec.mirrors = s.fec.mirrors := by
  simp only [Lc.adoptOutstanding, Lc.adoptWritten]
  split
  · rfl
  · split <;> rfl

/-- Every event that meets the condition keeps the match. -/
theorem handle_pathMatches {s : Lc} {p : EncPair} {e : Event} (hc : s.cfg.InRange)
    (hm : Matches s.cfg.fec s.fec.mirrors p) (hv : VencServes s e) (hk : LeavesPair (s, p) e) :
    PathMatches p (s.handle e) := by
  obtain ⟨hd, hserves⟩ := hv
  have hserves : ∀ o ∈ (s.handle e).2, o.serves := hserves
  cases he : e.passes s
  · cases e with
    | httpSet qs => exact .of_silent rfl ⟨hm.payload, hk⟩
    | httpCmd | wcmd => cases he
    | _ => exact (handle_call hd he).pathMatches hd hc (handle_cfg rfl s) hm hserves
  · cases e with
    | sidecar dt dt₁ d setFec venc => exact sidecar_pathMatches dt dt₁ d setFec venc he hm hserves hk
    | httpCmd dt key value io =>
        simp only [Lc.handle, Lc.httpCmd] at hserves ⊢
        split
        · exact .of_silent rfl hm
        · rename_i hin
          rw [if_neg hin] at hserves
          exact dispatch_pathMatches hm _ _ _ _ hserves
    | wcmd dt dt₁ dt₂ req loop io =>
        simp only [Lc.handle, Lc.wcmdFrame] at hserves ⊢
        split
        · exact .of_silent rfl hm
        · rename_i hopen
          rw [if_neg hopen] at hserves
          have hdispatch := dispatch_pathMatches hm req loop (s.clock + dt) io hserves
          rw [PathMatches] at hdispatch ⊢
          dsimp only
          rw [adoptOutstanding_cfg, adoptOutstanding_mirrors]
          exact ⟨hdispatch.1, fun hne => (hdispatch.2 hne).trans_eq
            (congrArg Prod.fst (adoptOutstanding_mirrors _ _ _)).symm⟩
    | _ => cases he

/-! ### Runs -/

/-- What the runs keep. -/
structure PairInv (sp : Lc × EncPair) : Prop where
  inRange : sp.1.cfg.InRange
  holds : Matches sp.1.cfg.fec sp.1.fec.mirrors sp.2

theorem pair_step (sp : Lc × EncPair) (e : Event) (h : PairInv sp)
    (hok : VencServes sp.1 e ∧ LeavesPair sp e) :
    PairSafe sp e ∧ PairInv ((machine.watch inForce).step sp e).1 := by
  obtain ⟨hv, hk⟩ := hok
  obtain ⟨hmatch, hwritten⟩ := handle_pathMatches h.inRange h.holds hv hk
  refine ⟨?_, handle_inRange h.inRange e, hmatch⟩
  intro now hnow hon _
  refine hmatch.sustained (hwritten ?_) hon
  exact List.ne_nil_of_mem hnow

theorem Boot.pairInv (b : Boot) (p : EncPair) : PairInv (b.init, inForce.after p b.obs) where
  inRange := b.init_inRange
  holds := by
    have hmirrors : b.init.fec.mirrors = (-1, -1) := by
      rw [Boot.init]
      dsimp only
      split_ifs <;> rfl
    show Matches _ b.init.fec.mirrors _
    rw [hmirrors]
    exact ⟨fun h => absurd h (by decide), fun h => absurd h (by decide)⟩

/-- A link that stays at MCS 5. -/
def fixedRate : Boot where
  cfg := { mcs := { enabled := false } }
  inRange := { Config.default_inRange with }
  now := 1000000
  air := { bandwidth := 20, mcsIndex := 5 }

/-- Frames of 12000 bytes: a block, and its bitrate. -/
def steadyFrames : List Iter :=
  [{ dt := 1000, served := [.sidecar 0 0 (.sized 1000000 12000) true true] },
    { dt := 2500000, served := [.sidecar 0 0 (.sized 3500000 12000) true true] }]

/-- The same, then sizing is switched on and the radio polled once more. -/
def lateSizing : List Iter :=
  steadyFrames ++ [{ dt := 1000, served := [.httpSet [("fec.payload_max", .int 4000)]] },
    { dt := 2000000, inOrder := servedInOrder_nil }]

end Waybeam.Vehicle
