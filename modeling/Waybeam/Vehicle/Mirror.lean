/-
# `Waybeam.Vehicle.Mirror` — the mirror of the encoder's bitrate

`bitrate_assert` measures its tolerance band and its up-lock against `last_written_kbps`,
its own record of what the encoder runs at.  Four writers reach the encoder in the loop:

    bitrate_assert     target, sent as min(target, 200000)    mirror := target
    pre-drop           the same, for the MCS to come          mirror := target
    wedge watchdog     the safe startup bitrate               mirror kept
    operator           the clamped value of BITRATE_KBPS      mirror kept

The mirror holds over exactly the runs in which the last two write what it already says,
and the first two never get a target past the clamp acknowledged (`mirror_iff`).
-/
import Waybeam.Vehicle.Dedup
import Waybeam.Vehicle.Encoder
import Waybeam.Vehicle.Ranges

namespace Waybeam.Vehicle

/-! ## Mirror and encoder -/

/-- The bitrate an acknowledged write to the encoder carries. -/
def Obs.ackedKbps : Obs → Option ℤ
  | .venc _ _ req true => req.bitrateKbps
  | _ => none

/-- The bitrate of the most recent acknowledged write. -/
def lastAcked : Monitor Obs (Option ℤ) where
  upd real o := o.ackedKbps.or real
  ok _ _ := true

/-- A positive mirror is the bitrate last acknowledged. -/
def MirrorHolds (mirror : ℤ) (real : Option ℤ) : Prop := 0 < mirror → real = some mirror

instance (mirror : ℤ) (real : Option ℤ) : Decidable (MirrorHolds mirror real) :=
  inferInstanceAs (Decidable (_ → _))

/-- Every `bitrate_assert` with this mirror whose target leaves the band around the encoder's
bitrate writes, increases under the up-lock apart. -/
def AssertsByReal (mirror : ℤ) (real : Option ℤ) : Prop :=
  ∀ (radio : RadioState) (cfg : Config) (f : FecState) (now : ℕ) (answer : Bool) (target kbps : ℤ),
    f.lastWrittenKbps = mirror → cfg.InRange → cfg.dryRun = false → real = some kbps →
    .asserted now target ∈ (bitrateAssert radio cfg f now answer).2 →
    assertTolerance cfg.fec target < |kbps - target| →
    (∃ req, .venc now .assert req answer ∈ (bitrateAssert radio cfg f now answer).2) ∨
      (kbps < target ∧ f.ctrl.upLocked now = true)

/-- After the step the mirror is right, and so is every write it leads to. -/
def MirrorTrue (sg : Lc × Option ℤ) (e : Event) : Prop :=
  let mirror := (machine.step sg.1 e).1.fec.lastWrittenKbps
  let real := lastAcked.after sg.2 (machine.step sg.1 e).2
  MirrorHolds mirror real ∧ AssertsByReal mirror real

/-! ## What passes the mirror by -/

/-- The bitrate a command asks the encoder for once it is past every gate. -/
def wcmdKbps (cfg : Config) (st : WcmdState) (req : WcmdReq) (peerIsLoopback : Bool) (now : ℕ) :
    Option ℤ :=
  if cfg.cmd.enabled = true ∧ (cfg.cmd.loopbackOnly = true → peerIsLoopback = true) ∧
      cfg.dryRun = false ∧ WcmdKey.ofByte req.key = some .bitrateKbps ∧
      cfg.cmd.allowKeysMask.toNat.testBit WcmdKey.bitrateKbps.maskBit = true ∧
      st.isDup .bitrateKbps req.seq now = false ∧
      ¬(0 < cfg.cmd.rateLimitMs ∧ st.lastApplyUs .bitrateKbps ≠ 0 ∧
        now - st.lastApplyUs .bitrateKbps < cfg.cmd.rateLimitMs.toNat * 1000)
  then wcmdClampValue cfg .bitrateKbps req.value else none

/-- The frame makes the wedge watchdog write. -/
def Lc.wedgeWrites (s : Lc) (d : SidecarDgram) (now : ℕ) : Bool :=
  s.hears d && d.hasSize && s.skipFec d && s.wedgeArmed && s.wedgeDue now

/-- The bitrate an event writes past the mirror, if the encoder acknowledges it. -/
def Lc.bypass (s : Lc) : Event → Option ℤ
  | .sidecar dt dt₁ d _ venc =>
      if venc && s.wedgeWrites d (s.clock + dt + dt₁) then
        (vencRequest s.cfg.fec.safeStartupBitrateKbps s.cfg.fec.safeStartupPayload).bind
          (·.bitrateKbps)
      else none
  | .httpCmd dt key value io =>
      if io.venc && decide (1 ≤ key) && decide (key ≤ 20) then
        wcmdKbps s.cfg s.wcmd ⟨s.localCmdSeq + 1, u8 key, i32 value⟩ true (s.clock + dt)
      else none
  | .wcmd dt _ _ req peerIsLoopback io =>
      if io.venc && s.rxAntOpen then wcmdKbps s.cfg s.wcmd req peerIsLoopback (s.clock + dt)
      else none
  | _ => none

/-- A target past the clamp. -/
def Obs.pastClamp : Obs → Bool
  | .asserted _ target => decide (200000 < target)
  | _ => false

/-- A target past the clamp got its write acknowledged. -/
def clips (os : List Obs) : Bool := os.any Obs.pastClamp && os.any (·.ackedKbps.isSome)

/-- What is written past a positive mirror is what it says, and no target is clipped. -/
def MirrorKept (sg : Lc × Option ℤ) (e : Event) : Prop :=
  (∀ kbps, sg.1.bypass e = some kbps → 0 < sg.1.fec.lastWrittenKbps →
    kbps = sg.1.fec.lastWrittenKbps) ∧
  clips (machine.step sg.1 e).2 = false

/-! ## What a step does to mirror and encoder -/

/-- From `mirror`, with observations `os` and bypassing bitrate: nothing is acknowledged, or
one assert is, or one write past the mirror. -/
inductive MirrorStep (mirror : ℤ) (os : List Obs) : Option ℤ → ℤ → Prop where
  | kept (hacked : os.filterMap Obs.ackedKbps = []) : MirrorStep mirror os none mirror
  | wrote {target : ℤ} (hpos : 0 < target)
      (hacked : os.filterMap Obs.ackedKbps = [min target 200000])
      (hclamp : os.any Obs.pastClamp = decide (200000 < target)) :
      MirrorStep mirror os none target
  | passed {kbps : ℤ} (hacked : os.filterMap Obs.ackedKbps = [kbps])
      (hclamp : os.any Obs.pastClamp = false) : MirrorStep mirror os (some kbps) mirror

/-- None of the observations is about the encoder's bitrate. -/
def Quiet (os : List Obs) : Prop := ∀ o ∈ os, o.ackedKbps = none ∧ o.pastClamp = false

namespace Quiet

variable {os : List Obs}

theorem acked (h : Quiet os) : os.filterMap Obs.ackedKbps = [] :=
  List.filterMap_eq_nil_iff.mpr fun o ho => (h o ho).1

theorem clamp (h : Quiet os) : os.any Obs.pastClamp = false :=
  List.any_eq_false.mpr fun o ho => by simp [(h o ho).2]

theorem of_encoder (h : os.filter Obs.isEncoder = []) : Quiet os := by
  intro o ho
  have hno : o.isEncoder = false := by simpa using List.filter_eq_nil_iff.mp h o ho
  cases o <;> first | exact ⟨rfl, rfl⟩ | exact Bool.noConfusion hno

end Quiet

namespace MirrorStep

variable {mirror mirror' : ℤ} {b : Option ℤ} {os pre post : List Obs}

theorem prepend (h : MirrorStep mirror os b mirror') (hpre : Quiet pre) :
    MirrorStep mirror (pre ++ os) b mirror' := by
  cases h with
  | kept hacked => exact .kept (by rw [List.filterMap_append, hpre.acked, hacked]; rfl)
  | wrote hpos hacked hclamp =>
      exact .wrote hpos (by rw [List.filterMap_append, hpre.acked, hacked]; rfl)
        (by rw [List.any_append, hpre.clamp, hclamp]; rfl)
  | passed hacked hclamp =>
      exact .passed (by rw [List.filterMap_append, hpre.acked, hacked]; rfl)
        (by rw [List.any_append, hpre.clamp, hclamp]; rfl)

theorem of_quiet (h : Quiet os) : MirrorStep mirror os none mirror := .kept h.acked

/-- Only what is about the encoder counts. -/
theorem of_encoder (h : MirrorStep mirror (os.filter Obs.isEncoder) b mirror') :
    MirrorStep mirror os b mirror' := by
  have hacked : (os.filter Obs.isEncoder).filterMap Obs.ackedKbps = os.filterMap Obs.ackedKbps := by
    have hsame : (fun o => if Obs.isEncoder o then Obs.ackedKbps o else none) = Obs.ackedKbps := by
      funext o
      cases o <;> rfl
    rw [List.filterMap_filter, hsame]
  have hclamp : (os.filter Obs.isEncoder).any Obs.pastClamp = os.any Obs.pastClamp := by
    have hsame : (fun o => Obs.isEncoder o && Obs.pastClamp o) = Obs.pastClamp := by
      funext o
      cases o <;> rfl
    rw [List.any_filter, hsame]
  cases h with
  | kept h => exact .kept (hacked ▸ h)
  | wrote hpos h hc => exact .wrote hpos (hacked ▸ h) (hclamp ▸ hc)
  | passed h hc => exact .passed (hacked ▸ h) (hclamp ▸ hc)

end MirrorStep

/-! ## `bitrate_assert` -/

/-- A target is positive: the floor is, and every ceiling below it. -/
theorem assertTarget_pos {cfg : FecConfig} (h : 0 < cfg.bitrateMinKbps) (phy : ℚ)
    (cur : FecParams) : 0 < (assertTarget cfg phy cur).1 := by
  have hnat : cfg.bitrateMinKbps ≤ naturalTarget cfg phy cur := by
    unfold naturalTarget
    dsimp only
    split_ifs <;> omega
  unfold assertTarget
  dsimp only
  generalize (if 0 < cfg.payloadMax then payloadSelect cfg (naturalTarget cfg phy cur)
    else (0, false)) = pc
  obtain ⟨payload, clipped⟩ := pc
  dsimp only
  generalize payloadSafeBitrateKbps payload = safe
  generalize airtimeSafeBitrateKbps phy payload cur.k cur.n cfg.airtimeMaxPct
    cfg.airtimePreambleUs = ac
  split_ifs <;> omega

/-- Off dry-run, a positive target is sent clamped and mirrored unclamped. -/
theorem assertWrite_spec {cfg : Config} (hd : cfg.dryRun = false) (f : FecState) {target : ℤ}
    (hpos : 0 < target) (payload : ℤ) (now : ℕ) (answer : Bool) :
    ∃ req, req.bitrateKbps = some (min target 200000) ∧
      (assertWrite cfg f target payload now answer).2 = [.venc now .assert req answer] ∧
      (assertWrite cfg f target payload now answer).1.lastWrittenKbps
        = if answer then target else f.lastWrittenKbps := by
  obtain ⟨req, hreq, hkbps⟩ : ∃ req, vencRequest target
      (if (decide (0 < payload) && decide (payload ≠ f.lastWrittenPayload)) = true
        then payload else -1) = some req ∧ req.bitrateKbps = some (min target 200000) := by
    rw [vencRequest]
    simp only [if_pos hpos]
    exact ⟨_, rfl, rfl⟩
  refine ⟨req, hkbps, ?_, ?_⟩
  · simp only [assertWrite, hd, vencApply, hreq]
    rfl
  · simp only [assertWrite, hd, vencApply, hreq]
    cases answer <;> split <;> rfl

/-- What a `bitrate_assert` that reaches its decision does. -/
theorem bitrateAssert_cases (radio : RadioState) (cfg : Config) (f : FecState) (now : ℕ)
    (answer : Bool) :
    bitrateAssert radio cfg f now answer = (f, []) ∨
      ∃ cur, bitrateAssert radio cfg f now answer =
        if assertWrites cfg.fec f (assertTarget cfg.fec radio.phyMbps cur).1 now then
          ((assertWrite cfg f (assertTarget cfg.fec radio.phyMbps cur).1
              (assertTarget cfg.fec radio.phyMbps cur).2 now answer).1,
            .asserted now (assertTarget cfg.fec radio.phyMbps cur).1 ::
              (assertWrite cfg f (assertTarget cfg.fec radio.phyMbps cur).1
                (assertTarget cfg.fec radio.phyMbps cur).2 now answer).2)
        else (f, [.asserted now (assertTarget cfg.fec radio.phyMbps cur).1]) := by
  rw [bitrateAssert]
  rcases f.ctrl.current with _ | cur
  · exact .inl rfl
  · dsimp only
    split_ifs with hc hw
    · exact .inl rfl
    · exact .inr ⟨cur, by rw [if_pos hw]⟩
    · exact .inr ⟨cur, by rw [if_neg hw]⟩

theorem bitrateAssert_mirror {cfg : Config} (hd : cfg.dryRun = false) (hc : cfg.InRange)
    (radio : RadioState) (f : FecState) (now : ℕ) (answer : Bool) :
    MirrorStep f.lastWrittenKbps (bitrateAssert radio cfg f now answer).2 none
      (bitrateAssert radio cfg f now answer).1.lastWrittenKbps := by
  rcases bitrateAssert_cases radio cfg f now answer with h | ⟨cur, h⟩
  · rw [h]
    exact .kept rfl
  · have hpos : 0 < (assertTarget cfg.fec radio.phyMbps cur).1 :=
      assertTarget_pos (by have := hc.bitrateMin; omega) _ _
    obtain ⟨req, hreq, hobs, hmirror⟩ := assertWrite_spec hd f hpos
      (assertTarget cfg.fec radio.phyMbps cur).2 now answer
    rw [h]
    split
    · rw [hobs, hmirror]
      cases answer
      · exact .kept rfl
      · have hack : Obs.ackedKbps (.venc now .assert req true) = _ := hreq
        refine .wrote hpos ?_ ?_
        · rw [List.filterMap_cons_none rfl, List.filterMap_cons_some hack]
          rfl
        · simp [Obs.pastClamp]
    · exact .kept rfl

/-- With a mirror that holds, every assert measures its band against the encoder. -/
theorem assertsByReal_of_holds {mirror : ℤ} {real : Option ℤ} (hne : mirror ≠ 0)
    (h : MirrorHolds mirror real) : AssertsByReal mirror real := by
  intro radio cfg f now answer target kbps hf hc hd hreal hmem hband
  rcases bitrateAssert_cases radio cfg f now answer with hcall | ⟨cur, hcall⟩
  · rw [hcall] at hmem
    cases hmem
  have hpos : 0 < (assertTarget cfg.fec radio.phyMbps cur).1 :=
    assertTarget_pos (by have := hc.bitrateMin; omega) _ _
  obtain ⟨req, -, hobs, -⟩ := assertWrite_spec hd f hpos
    (assertTarget cfg.fec radio.phyMbps cur).2 now answer
  have htarget : target = (assertTarget cfg.fec radio.phyMbps cur).1 := by
    rw [hcall] at hmem
    split at hmem
    · rw [hobs] at hmem
      simpa using hmem
    · simpa using hmem
  subst htarget
  rw [hcall]
  split
  case isTrue => exact .inl ⟨req, by simp [hobs]⟩
  case isFalse hw =>
    -- not written: the target stayed in the mirror's band or would have been an increase
    refine .inr ?_
    have hkbps (hm : 0 < mirror) : kbps = mirror := by
      have := h hm
      rw [hreal] at this
      exact Option.some.inj this
    rcases lt_or_gt_of_ne hne with hneg | hm
    · exfalso
      refine hw ?_
      simp only [assertWrites, bitrateChanged, wouldIncrease, hf]
      simp [hneg, not_lt.mpr hneg.le]
    · have hchanged : bitrateChanged cfg.fec f.lastWrittenKbps
          (assertTarget cfg.fec radio.phyMbps cur).1 = true := by
        rw [hkbps hm] at hband
        simp [bitrateChanged, hf, hm, hband]
      simp only [assertWrites, hchanged, Bool.true_and, Bool.not_eq_true', Bool.not_eq_false,
        Bool.and_eq_true, wouldIncrease, decide_eq_true_eq] at hw
      rw [hkbps hm]
      exact ⟨hf ▸ hw.1.2, hw.2⟩

/-- What a path from `s` does when it writes nothing past the mirror. -/
def Mirrors (s : Lc) (r : Lc × List Obs) : Prop :=
  MirrorStep s.fec.lastWrittenKbps r.2 none r.1.fec.lastWrittenKbps

/-- A path that calls `bitrate_assert`, or leaves the encoder alone, writes nothing past it. -/
theorem EncCall.mirrors {s : Lc} {r : Lc × List Obs} (h : EncCall s r)
    (hd : s.cfg.dryRun = false) (hc : s.cfg.InRange) : Mirrors s r := by
  rw [Mirrors]
  cases h with
  | idle hobs hf =>
      have hmirror : r.1.fec.lastWrittenKbps = s.fec.lastWrittenKbps := congrArg Prod.fst hf
      rw [hmirror]
      exact .of_quiet (.of_encoder hobs)
  | assert radio f now answer hf hobs hr =>
      have hmirror : f.lastWrittenKbps = s.fec.lastWrittenKbps := congrArg Prod.fst hf
      have hstep := bitrateAssert_mirror hd hc radio f now answer
      rw [← hobs, ← hr, hmirror] at hstep
      exact hstep.of_encoder

/-! ## Writes past the mirror -/

theorem heard_quiet (s : Lc) (d : SidecarDgram) (now : ℕ) : Quiet (s.heard d now).2 := by
  rw [Lc.heard, Lc.readTransport]
  split
  · exact .of_encoder rfl
  · exact .of_encoder rfl

/-- The wedge watchdog writes past the mirror when it is armed and due. -/
theorem skipped_mirror (s : Lc) (now : ℕ) (venc : Bool) :
    MirrorStep s.fec.lastWrittenKbps (s.skipped now venc).2
      (if venc && s.wedgeArmed && s.wedgeDue now then
        (vencRequest s.cfg.fec.safeStartupBitrateKbps s.cfg.fec.safeStartupPayload).bind
          (·.bitrateKbps) else none)
      (s.skipped now venc).1.fec.lastWrittenKbps := by
  unfold Lc.skipped vencApply
  dsimp only
  cases s.wedgeArmed
  · simpa using MirrorStep.of_quiet (.of_encoder rfl)
  cases s.wedgeDue now
  · simpa using MirrorStep.of_quiet (.of_encoder rfl)
  cases hr : vencRequest s.cfg.fec.safeStartupBitrateKbps s.cfg.fec.safeStartupPayload with
  | none => simpa using MirrorStep.of_quiet (.of_encoder rfl)
  | some req =>
      cases venc
      · exact .kept rfl
      · have hack : Obs.ackedKbps (.venc now .wedge req true) = req.bitrateKbps := rfl
        show MirrorStep _ [_] req.bitrateKbps _
        cases hk : req.bitrateKbps with
        | none => exact .kept (by rw [List.filterMap_cons_none (hack.trans hk)]; rfl)
        | some kbps =>
            exact .passed (by rw [List.filterMap_cons_some (hack.trans hk)]; rfl) rfl

/-- A skipped frame writes past the mirror if it wakes the wedge watchdog. -/
theorem sidecar_mirror {s : Lc} (d : SidecarDgram) (now nowFec : ℕ) (setFec venc : Bool)
    (hskip : (s.hears d && d.hasSize && s.skipFec d) = true) :
    MirrorStep s.fec.lastWrittenKbps (s.sidecar d now nowFec setFec venc).2
      (if venc && s.wedgeWrites d nowFec then
        (vencRequest s.cfg.fec.safeStartupBitrateKbps s.cfg.fec.safeStartupPayload).bind
          (·.bitrateKbps) else none)
      (s.sidecar d now nowFec setFec venc).1.fec.lastWrittenKbps := by
  have hsame : (s.heard d now).1.fec = s.fec ∧ (s.heard d now).1.wedgeArmed = s.wedgeArmed ∧
      (s.heard d now).1.wedgeDue nowFec = s.wedgeDue nowFec := by
    rw [Lc.heard, Lc.readTransport]
    split <;> exact ⟨rfl, rfl, rfl⟩
  obtain ⟨hfec, harmed, hdue⟩ := hsame
  have hstep := (skipped_mirror (s.heard d now).1 nowFec venc).prepend (heard_quiet s d now)
  rw [hfec, harmed, hdue, heard_cfg] at hstep
  simp only [Bool.and_eq_true] at hskip
  obtain ⟨⟨hhears, hsize⟩, hskip⟩ := hskip
  simpa [Lc.sidecar, Lc.sizeTick, Lc.wedgeWrites, andThen, hhears, hsize, hskip, Bool.and_assoc]
    using hstep

section Dispatch

variable (cfg : Config) (st : WcmdState) (air : RadioBody) (now : ℕ) (io : CmdIo)

/-- Only the bitrate key gets a bitrate acknowledged. -/
theorem wcmdSends_acked (key : WcmdKey) (value : ℤ) :
    (wcmdSends cfg air key value now io).filterMap Obs.ackedKbps
      = if key = .bitrateKbps ∧ cfg.dryRun = false ∧ io.venc = true then [value] else [] := by
  have hfec (key : WcmdKey) : (wcmdFecObs key value io).filterMap Obs.ackedKbps = [] := by
    rw [wcmdFecObs]
    split
    · rfl
    · dsimp only
      split_ifs <;> rfl
  cases hd : cfg.dryRun <;> cases key <;>
    simp only [wcmdSends, hd, hfec, if_true, if_false, Bool.false_eq_true, true_and, false_and,
      reduceCtorEq]
  case false.bitrateKbps => cases io.venc <;> rfl
  all_goals first
    | rfl
    | (split <;> rfl)
    | (cases io.venc <;> rfl)

theorem wcmdKbps_eq (req : WcmdReq) (peerIsLoopback : Bool) :
    wcmdKbps cfg st req peerIsLoopback now
      = if cfg.dryRun then none
        else (wcmdPasses cfg st req peerIsLoopback now).bind fun c =>
          if c.1 = .bitrateKbps then some c.2 else none := by
  have hiff : wcmdAdmits cfg req peerIsLoopback = some .bitrateKbps ↔ _ :=
    wcmdAdmits_iff WcmdKey.noConfusion WcmdKey.noConfusion
  rw [wcmdKbps]
  by_cases hadm : wcmdAdmits cfg req peerIsLoopback = some .bitrateKbps
  · obtain ⟨hen, hloop, hkey, hbit⟩ := hiff.mp hadm
    rw [wcmdPasses, hadm, Option.bind_some, wcmdGateValue]
    simp only [hen, eq_true hloop, hkey, hbit, true_and, ← wcmdTooSoon_iff]
    cases cfg.dryRun
    · cases st.isDup .bitrateKbps req.seq now
      · cases wcmdTooSoon cfg st .bitrateKbps now <;>
          cases wcmdClampValue cfg .bitrateKbps req.value <;> rfl
      · rfl
    · rfl
  · -- another key may pass, but not with a bitrate
    have hother : ((wcmdPasses cfg st req peerIsLoopback now).bind fun c =>
        if c.1 = .bitrateKbps then some c.2 else none) = none := by
      cases hk : wcmdAdmits cfg req peerIsLoopback with
      | none => rw [wcmdPasses, hk]; rfl
      | some key =>
          have hne : key ≠ .bitrateKbps := by
            rintro rfl
            exact hadm hk
          rw [wcmdPasses, hk, Option.bind_some]
          cases wcmdGateValue cfg st key req.seq req.value now with
          | none => rfl
          | some value => exact if_neg hne
    rw [hother, ite_self, if_neg]
    rintro ⟨hen, hloop, -, hkey, hbit, -⟩
    exact hadm (hiff.mpr ⟨hen, hloop, hkey, hbit⟩)

/-- The bitrate a dispatch gets acknowledged. -/
theorem wcmdDispatch_acked (req : WcmdReq) (peerIsLoopback : Bool) :
    (wcmdDispatch cfg st air req peerIsLoopback now io).obs.filterMap Obs.ackedKbps =
      if io.venc = true then (wcmdKbps cfg st req peerIsLoopback now).toList else [] := by
  rw [wcmdDispatch_obs, wcmdKbps_eq]
  cases wcmdPasses cfg st req peerIsLoopback now with
  | none => simp
  | some c =>
      obtain ⟨key, value⟩ := c
      simp only [Option.map_some, Option.getD_some, wcmdSends_acked, Option.bind_some]
      cases cfg.dryRun <;> cases io.venc <;> by_cases hk : key = .bitrateKbps <;> simp [hk]

/-- A dispatch asserts no target. -/
theorem wcmdDispatch_pastClamp (req : WcmdReq) (peerIsLoopback : Bool) :
    (wcmdDispatch cfg st air req peerIsLoopback now io).obs.any Obs.pastClamp = false := by
  rw [List.any_eq_false]
  intro o ho
  rcases wcmdDispatch_cases cfg st air now io req peerIsLoopback with h | h
  · rcases h.obs o ho with ⟨k, n, sent, rfl⟩ | ⟨t, q, ok, rfl⟩ <;> exact Bool.false_ne_true
  · obtain ⟨key, value, hobs, -, -⟩ := h.sent
    rw [hobs, List.mem_singleton] at ho
    exact ho ▸ Bool.false_ne_true

theorem wcmdDispatch_mirror (mirror : ℤ) (req : WcmdReq) (peerIsLoopback : Bool) :
    MirrorStep mirror (wcmdDispatch cfg st air req peerIsLoopback now io).obs
      (if io.venc = true then wcmdKbps cfg st req peerIsLoopback now else none) mirror := by
  have hacked := wcmdDispatch_acked cfg st air now io req peerIsLoopback
  cases hv : io.venc
  · rw [hv] at hacked
    exact .kept hacked
  · rw [hv, if_pos rfl] at hacked
    rw [if_pos rfl]
    cases hk : wcmdKbps cfg st req peerIsLoopback now with
    | none => exact .kept (by rw [hacked, hk]; rfl)
    | some kbps =>
        exact .passed (by rw [hacked, hk]; rfl) (wcmdDispatch_pastClamp cfg st air now io req _)

end Dispatch

/-! ## Runs -/

/-- The console's commands, when their key is one. -/
theorem httpCmd_mirror (s : Lc) (dt : ℕ) (key value : ℤ) (io : CmdIo) :
    MirrorStep s.fec.lastWrittenKbps (s.handle (.httpCmd dt key value io)).2
      (s.bypass (.httpCmd dt key value io))
      (s.handle (.httpCmd dt key value io)).1.fec.lastWrittenKbps := by
  simp only [Lc.handle, Lc.httpCmd, Lc.bypass]
  by_cases hr : key < 1 ∨ 20 < key
  · have hout : ¬(io.venc && decide (1 ≤ key) && decide (key ≤ 20)) = true := by
      simp only [Bool.and_eq_true, decide_eq_true_eq]
      omega
    rw [if_pos hr, if_neg hout]
    exact .kept rfl
  · have hin : (io.venc && decide (1 ≤ key) && decide (key ≤ 20)) = io.venc := by
      rw [not_or, not_lt, not_lt] at hr
      simp [hr.1, hr.2]
    rw [if_neg hr, hin]
    exact wcmdDispatch_mirror _ _ _ _ io _ _ _

/-- Adopting a body leaves the mirror alone. -/
theorem adoptOutstanding_mirror (s : Lc) (now nowObs : ℕ) :
    (s.adoptOutstanding now nowObs).fec.lastWrittenKbps = s.fec.lastWrittenKbps := by
  simp only [Lc.adoptOutstanding, Lc.adoptWritten]
  split
  · rfl
  · split <;> rfl

/-- The commands of a datagram, when it is one. -/
theorem wcmd_mirror (s : Lc) (dt dt₁ dt₂ : ℕ) (req : WcmdReq) (loop : Bool) (io : CmdIo) :
    MirrorStep s.fec.lastWrittenKbps (s.handle (.wcmd dt dt₁ dt₂ req loop io)).2
      (s.bypass (.wcmd dt dt₁ dt₂ req loop io))
      (s.handle (.wcmd dt dt₁ dt₂ req loop io)).1.fec.lastWrittenKbps := by
  simp only [Lc.handle, Lc.wcmdFrame, Lc.bypass]
  cases s.rxAntOpen
  · simpa using MirrorStep.of_quiet (.of_encoder rfl)
  · simp only [Bool.not_true, Bool.false_eq_true, if_false, Bool.and_true,
      adoptOutstanding_mirror]
    exact wcmdDispatch_mirror _ _ _ _ io _ _ _

theorem bypass_of_calls {s : Lc} {e : Event} (he : e.passes s = false) : s.bypass e = none := by
  cases e with
  | sidecar dt dt₁ d setFec venc =>
      have hidle : s.wedgeWrites d (s.clock + dt + dt₁) = false := by
        have he : (s.hears d && d.hasSize && s.skipFec d) = false := he
        rw [Lc.wedgeWrites, he]
        rfl
      simp only [Lc.bypass, hidle, Bool.and_false, Bool.false_eq_true, if_false]
  | httpCmd | wcmd => cases he
  | _ => rfl

/-- Every event: nothing, one assert, or the write past the mirror. -/
theorem handle_mirror {s : Lc} (hd : s.cfg.dryRun = false) (hc : s.cfg.InRange) (e : Event) :
    MirrorStep s.fec.lastWrittenKbps (s.handle e).2 (s.bypass e)
      (s.handle e).1.fec.lastWrittenKbps := by
  cases he : e.passes s
  · rw [bypass_of_calls he]
    exact (handle_call hd he).mirrors hd hc
  · cases e with
    | sidecar dt dt₁ d setFec venc => exact sidecar_mirror d _ _ setFec venc he
    | httpCmd dt key value io => exact httpCmd_mirror s dt key value io
    | wcmd dt dt₁ dt₂ req loop io => exact wcmd_mirror s dt dt₁ dt₂ req loop io
    | _ => cases he

theorem lastAcked_after (real : Option ℤ) (os : List Obs) :
    lastAcked.after real os = (os.filterMap Obs.ackedKbps).getLast?.or real := by
  induction os generalizing real with
  | nil => rfl
  | cons o os ih =>
      rw [Monitor.after_cons, ih]
      cases ho : o.ackedKbps with
      | none => simp [lastAcked, ho]
      | some kbps =>
          rw [List.filterMap_cons_some ho]
          cases h : os.filterMap Obs.ackedKbps with
          | nil => simp [lastAcked, ho]
          | cons kbps' rest => simp [List.getLast?_cons]

theorem clips_eq (os : List Obs) :
    clips os = (os.any Obs.pastClamp && !(os.filterMap Obs.ackedKbps).isEmpty) := by
  rw [clips]
  congr 1
  induction os with
  | nil => rfl
  | cons o os ih =>
      rw [List.any_cons, ih]
      cases ho : o.ackedKbps with
      | none => simp [ho]
      | some kbps => simp [ho]

/-- What the runs keep: the mirror holds, was never written as `0`, and the ranges stand. -/
structure MirrorInv (s : Lc) (real : Option ℤ) : Prop where
  holds : MirrorHolds s.fec.lastWrittenKbps real
  ne : s.fec.lastWrittenKbps ≠ 0
  inRange : s.cfg.InRange

/-- After a step the mirror holds iff the step kept it. -/
theorem MirrorStep.holds_iff {mirror mirror' : ℤ} {real b : Option ℤ} {os : List Obs}
    (h : MirrorStep mirror os b mirror') (hr : MirrorHolds mirror real) :
    MirrorHolds mirror' (lastAcked.after real os) ↔
      (∀ kbps, b = some kbps → 0 < mirror → kbps = mirror) ∧ clips os = false := by
  rw [lastAcked_after, clips_eq]
  cases h with
  | kept hacked => simpa [hacked] using hr
  | wrote hpos hacked hclamp =>
      simp only [hacked, hclamp, MirrorHolds, hpos]
      simp
  | passed hacked hclamp =>
      simp only [hacked, hclamp, MirrorHolds]
      simp

theorem MirrorStep.ne_zero {mirror mirror' : ℤ} {b : Option ℤ} {os : List Obs}
    (h : MirrorStep mirror os b mirror') (hne : mirror ≠ 0) : mirror' ≠ 0 := by
  cases h with
  | kept | passed => exact hne
  | wrote hpos => exact hpos.ne'

section Step

variable {s : Lc} {real : Option ℤ}

theorem step_true_iff (h : MirrorInv s real) (hd : s.cfg.dryRun = false) (e : Event) :
    MirrorTrue (s, real) e ↔ MirrorKept (s, real) e := by
  have hstep := handle_mirror hd h.inRange e
  have hiff := hstep.holds_iff h.holds
  constructor
  · intro ht
    exact hiff.mp ht.1
  · intro hk
    have hholds := hiff.mpr hk
    exact ⟨hholds, assertsByReal_of_holds (hstep.ne_zero h.ne) hholds⟩

theorem step_inv (h : MirrorInv s real) (hd : s.cfg.dryRun = false) (e : Event)
    (hk : MirrorKept (s, real) e) :
    MirrorInv (machine.step s e).1 (lastAcked.after real (machine.step s e).2) where
  holds := (handle_mirror hd h.inRange e).holds_iff h.holds |>.mpr hk
  ne := (handle_mirror hd h.inRange e).ne_zero h.ne
  inRange := handle_inRange h.inRange e

end Step

theorem Boot.init_mirror (b : Boot) : b.init.fec.lastWrittenKbps = -1 := by
  rw [Boot.init]
  dsimp only
  split_ifs <;> rfl

theorem Boot.mirrorInv (b : Boot) : MirrorInv b.init (lastAcked.after none b.obs) where
  holds hpos := by
    rw [b.init_mirror] at hpos
    exact absurd hpos (by decide)
  ne := by
    rw [b.init_mirror]
    decide
  inRange := b.init_inRange

/-- Off dry-run, the mirror is right after every step, and with it every write it leads to,
over exactly the runs in which what is written past a positive mirror is what it says and no
target past the clamp is acknowledged. -/
theorem mirror_iff (b : Boot) (es : List Event)
    (hd : machine.Meets (fun s _ => s.cfg.dryRun = false) b.init es) :
    (machine.watch lastAcked).Meets MirrorTrue (b.init, lastAcked.after none b.obs) es ↔
      (machine.watch lastAcked).Meets MirrorKept (b.init, lastAcked.after none b.obs) es := by
  rw [← machine.watch_meets lastAcked _ b.init (lastAcked.after none b.obs)] at hd
  exact Machine.Meets.iff_of_inv
    (fun sg e h hd hk => step_inv h hd e hk)
    (fun sg e h hd => step_true_iff h hd e) b.mirrorInv hd

/-- A run in which the controller commits a block and writes its bitrate. -/
theorem mirror_iff_committed :
    (machine.watch lastAcked).Meets MirrorTrue ((Boot.withDefaults { bandwidth := 20 }).init,
        lastAcked.after none (Boot.withDefaults { bandwidth := 20 }).obs)
        (loopRun [{ dt := 1000, served := [.sidecar 0 0 (.sized 1000000 12000) true true] },
          { dt := 2500000, served := [.sidecar 0 0 (.sized 3500000 12000) true true] }]) ↔
      (machine.watch lastAcked).Meets MirrorKept ((Boot.withDefaults { bandwidth := 20 }).init,
        lastAcked.after none (Boot.withDefaults { bandwidth := 20 }).obs)
        (loopRun [{ dt := 1000, served := [.sidecar 0 0 (.sized 1000000 12000) true true] },
          { dt := 2500000, served := [.sidecar 0 0 (.sized 3500000 12000) true true] }]) :=
  mirror_iff (.withDefaults { bandwidth := 20 }) _ (by decide +kernel)

/-- The operator sets 5000 kbit/s after the controller wrote its own target. -/
theorem mirror_broken :
    ¬∀ (b : Boot) (is : List Iter),
      machine.Meets (fun s _ => s.cfg.dryRun = false) b.init (loopRun is) →
      (machine.watch lastAcked).Meets MirrorTrue (b.init, lastAcked.after none b.obs)
        (loopRun is) := by
  intro h
  have hrun := h (.withDefaults { bandwidth := 20, mcsIndex := 3 }) [
    { dt := 1000, served := [.sidecar 0 0 (.sized 1000000 12000) true true] },
    { dt := 2500000, served := [.sidecar 0 0 (.sized 3500000 12000) true true] },
    { dt := 1000, served := [.httpCmd 0 1 5000 {}] }] (by decide +kernel)
  have hholds := Machine.Meets.mono (fun _ _ ht => ht.1) hrun
  exact absurd hholds (by decide +kernel)

end Waybeam.Vehicle
