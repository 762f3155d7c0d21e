/-
# `Waybeam.Vehicle.Override` — the two manual overrides

`mcs.enabled` and `fec.enabled` hand a control loop over to the operator: with the flag
off, the law is meant to leave the radio, respectively the block size, alone.  Each loop
is gated where it starts, but not where its requests leave:

    mcs.enabled   checked by the watchdog and the probe tick
                  not checked by the pending tick (a drop queued before the toggle) and by
                  the rx_ant record (decision and realign)
    fec.enabled   checked by the subscription, the radio poll and `bitrate_assert`
                  not checked by the sidecar frame

So an override holds exactly over the runs in which those paths have nothing to send while
the flag is off (`mcs_override_iff`, `fec_override_iff`).
-/
import Waybeam.Vehicle.Frame

namespace Waybeam.Vehicle

/-! ## MCS -/

/-- A SET_RADIO of the control law to the video wfb_tx. -/
def Obs.isLawSet : Obs → Bool
  | .setRadio _ who _ _ => who.isLaw
  | _ => false

/-- The realign is due and not deferred. -/
def Lc.realignSends (s : Lc) : Bool :=
  s.realignDue && !commitDefers s.cfg s.radioBody s.sel.currentMcs

/-- A decision of the selector has a body to send and is not deferred. -/
def Lc.decisionSends (s : Lc) (getRadio : Bool) : Bool :=
  !s.cfg.dryRun && (s.radioBodyValid || getRadio) &&
    !commitDefers s.cfg (if s.radioBodyValid then s.radioBody else s.air) s.sel.currentMcs

/-- Processing a record makes the law send a SET_RADIO. -/
def Lc.recordSends (s : Lc) (r : RxAnt) (now : ℕ) (getRadio : Bool) : Bool :=
  (s.judged r now).any fun (s, sd) =>
    if sd = .none then s.realignSends else s.decisionSends getRadio

/-- The paths that do not ask `mcs.enabled` and have a SET_RADIO to send. -/
def Lc.overridden (s : Lc) : Event → Bool
  | .pendingTick dt _ => s.dropDue (s.clock + dt)
  | .rxAnt dt _ _ r io => s.recordSends r (s.clock + dt) io.getRadio
  | _ => false

theorem pendingTick_lawSet (s : Lc) (now : ℕ) (reply : SetReply) :
    (s.pendingTick now reply).2.any Obs.isLawSet = s.dropDue now := by
  cases h : s.dropDue now
  · rw [pendingTick_idle h]
    rfl
  · obtain ⟨p, hp, hd⟩ := Option.any_eq_true _ _ |>.mp h
    rw [pendingTick_due hp (of_decide_eq_true hd)]
    rfl

theorem preDrop_lawSet (s : Lc) (m : ℤ) (now : ℕ) (answer : Bool) :
    (s.preDrop m now answer).2.any Obs.isLawSet = false := by
  rw [List.any_eq_false]
  intro o ho
  rcases commitMcsPreDropBitrate_obs _ _ _ _ _ _ o ho with rfl | hb
  · simp [Obs.isLawSet]
  · cases o <;> simp_all [Obs.isBudget, Obs.isLawSet]

/-- A commit sends unless it defers. -/
theorem commitStored_lawSet {s : Lc} {m : ℤ} {who : SetBy} (hw : who.isLaw)
    (hd : s.cfg.dryRun = false) (now nowObs : ℕ) (io : CommitIo) :
    (s.commitStored m who now nowObs io).2.any Obs.isLawSet
      = !commitDefers s.cfg s.radioBody m := by
  cases h : commitDefers s.cfg s.radioBody m
  · rw [commitStored_sent who now io h hd]
    simp [Obs.isLawSet, hw]
  · rw [commitStored_deferred who now io h, List.any_append, preDrop_lawSet]
    rfl

theorem realign_lawSet (s : Lc) (nowCommit nowObs : ℕ) (io : CommitIo) :
    (s.realign nowCommit nowObs io).2.any Obs.isLawSet = s.realignSends := by
  rw [realign_eq]
  rw [Lc.realignSends]
  cases h : s.realignDue
  · rfl
  · exact commitStored_lawSet rfl (realignDue_dryRun h) nowCommit nowObs io

theorem commitDecision_lawSet {s : Lc} (hd : s.cfg.dryRun = false) (snap : Selector)
    (nowCommit nowObs : ℕ) (io : RxIo) :
    (s.commitDecision snap nowCommit nowObs io).2.any Obs.isLawSet
      = !commitDefers s.cfg s.radioBody s.sel.currentMcs := by
  cases h : commitDefers s.cfg s.radioBody s.sel.currentMcs
  · rw [commitDecision_sent snap nowCommit nowObs io h hd]
    rfl
  · rw [commitDecision_deferred snap nowCommit nowObs io h, List.any_append, preDrop_lawSet]
    rfl

/-- A decision sends unless there is no body to send or it defers. -/
theorem decision_lawSet (s : Lc) (snap : Selector) (nowCommit nowObs : ℕ) (io : RxIo) :
    (s.decision snap nowCommit nowObs io).2.any Obs.isLawSet = s.decisionSends io.getRadio := by
  rw [Lc.decision, Lc.decisionSends]
  cases hd : s.cfg.dryRun
  · cases hv : s.radioBodyValid
    · rw [syncBody_of_invalid hv]
      cases io.getRadio
      · simp [hv, Obs.isLawSet, andThen]
      · have h := commitDecision_lawSet (s := s.synced) hd snap nowCommit nowObs io
        simpa [andThen, Obs.isLawSet, Lc.synced] using h
    · rw [syncBody_of_valid hv]
      simpa [hv] using commitDecision_lawSet hd snap nowCommit nowObs io
  · rfl

/-- A record sends iff what it makes the law do sends. -/
theorem rxAnt_lawSet (s : Lc) (r : RxAnt) (now nowCommit nowObs : ℕ) (io : RxIo) :
    (s.rxAnt r now nowCommit nowObs io).2.any Obs.isLawSet = s.recordSends r now io.getRadio := by
  rw [Lc.recordSends]
  rcases h : s.judged r now with _ | ⟨s', sd⟩
  · obtain ⟨scorer, hr⟩ := rxAnt_none h nowCommit nowObs io
    rw [hr]
    rfl
  · rw [rxAnt_some h, List.any_cons]
    simp only [Obs.isLawSet, Bool.false_or, Option.any_some, Lc.act]
    split_ifs
    · exact realign_lawSet s' nowCommit nowObs io.commit
    · exact decision_lawSet s' s.sel nowCommit nowObs io

/-- The watchdog has a rung to commit and a body to send. -/
def Lc.watchdogSends (s : Lc) (now : ℕ) (getRadio : Bool) : Bool :=
  s.watchdogDue now && decide (s.watchdogDecision now ≠ .none) &&
    (s.watched now).decisionSends getRadio

/-- The paths of the law that have a SET_RADIO to send. -/
def Lc.lawSends (s : Lc) : Event → Bool
  | .watchdog dt io => s.watchdogSends (s.clock + dt) io.getRadio
  | e => s.overridden e

theorem watchdogCommit_lawSet (s : Lc) (now : ℕ) (io : SyncIo) :
    (s.watchdogCommit now io).2.any Obs.isLawSet = s.decisionSends io.getRadio := by
  rw [Lc.watchdogCommit, Lc.decisionSends]
  cases hd : s.cfg.dryRun
  · cases hv : s.radioBodyValid
    · rw [syncBody_of_invalid hv]
      cases io.getRadio
      · simp [hv, andThen]
      · have h := commitStored_lawSet (s := s.synced) (m := s.sel.currentMcs)
          (show SetBy.watchdog.isLaw from rfl) hd now now io.commit
        simpa [andThen, Obs.isLawSet, Lc.synced] using h
    · rw [syncBody_of_valid hv]
      simpa [hv] using commitStored_lawSet (m := s.sel.currentMcs)
        (show SetBy.watchdog.isLaw from rfl) hd now now io.commit
  · rfl

theorem watchdog_lawSet (s : Lc) (now : ℕ) (io : SyncIo) :
    (s.watchdog now io).2.any Obs.isLawSet = s.watchdogSends now io.getRadio := by
  rw [Lc.watchdogSends]
  cases hdue : s.watchdogDue now
  · rw [watchdog_idle hdue]
    rfl
  · rw [watchdog_due hdue]
    cases s.watchdogDecision now
    case none => rfl
    case failsafe => simpa [Obs.isLawSet] using watchdogCommit_lawSet (s.watched now) now io
    all_goals simpa using watchdogCommit_lawSet (s.watched now) now io

/-- The law sends a SET_RADIO on three paths. -/
theorem handle_lawSends (s : Lc) (e : Event) : (s.handle e).2.any Obs.isLawSet = s.lawSends e := by
  cases e with
  | pendingTick dt reply => exact pendingTick_lawSet ..
  | rxAnt dt dt₁ dt₂ r io => exact rxAnt_lawSet ..
  | watchdog dt io => exact watchdog_lawSet ..
  | _ =>
      rw [List.any_eq_false.mpr]
      · rfl
      · intro o ho
        have he := handle_emits s _ o ho
        cases o <;> first | exact Bool.false_ne_true | cases he | skip
        all_goals
          rename_i who _ _
          cases who <;> first | exact Bool.false_ne_true | cases he

/-- With the override on, two of them are left. -/
theorem handle_lawSet {s : Lc} (h : s.cfg.mcs.enabled = false) (e : Event) :
    (s.handle e).2.any Obs.isLawSet = s.overridden e := by
  rw [handle_lawSends]
  cases e with
  | watchdog dt io => simp [Lc.lawSends, Lc.watchdogSends, Lc.watchdogDue, h, Lc.overridden]
  | _ => rfl

/-- With `mcs.enabled` false the step sends no SET_RADIO of the law. -/
def McsOverridden (s : Lc) (e : Event) : Prop :=
  s.cfg.mcs.enabled = false → ∀ o ∈ (machine.step s e).2, o.isLawSet = false

instance (s : Lc) (e : Event) : Decidable (McsOverridden s e) :=
  inferInstanceAs (Decidable (_ → ∀ o ∈ (machine.step s e).2, o.isLawSet = false))

/-- A SET_FEC of the control law. -/
def Obs.isLawFec : Obs → Bool
  | .lawFec .. => true
  | _ => false

namespace Controller

variable (c : Controller) (cfg : FecConfig) (now : ℕ) (cand : FecParams)

/-- The dwell, the dead band and the cooldown let `cand` replace `cur`. -/
def hysteresisDue (cur : FecParams) : Bool :=
  if cand.k < cur.k then
    decide (cfg.kDownDwellS ≤
      secsOf (now - if c.kDownPendingSinceUs = 0 then now else c.kDownPendingSinceUs))
  else if cand.k = cur.k then decide (cand.n ≠ cur.n)
  else
    decide (cfg.kUpDwellS ≤
      secsOf (now - if c.kUpPendingSinceUs = 0 then now else c.kUpPendingSinceUs)) &&
    decide (cfg.kHystUp ≤ cand.k - cur.k) &&
    decide (cfg.cooldownUpS ≤ secsOf (now - c.lastUpdateUs))

/-- The feed-forward path applies. -/
def ffApplies (ffActive : Bool) (cur : FecParams) (committedKbps : ℤ) : Bool :=
  ffActive && !c.inStartupGrace cfg now && cand.k != cur.k && c.opPointMoved cfg committedKbps

/-- A tick commits `cand` in place of `cur`. -/
def replaceDue (ffActive : Bool) (cur : FecParams) (committedKbps : ℤ) : Bool :=
  if c.ffApplies cfg now cand ffActive cur committedKbps then
    decide (c.ffLastCommitUs = 0 ∨ usOf cfg.ffCooldownS = 0 ∨
      usOf cfg.ffCooldownS ≤ now - c.ffLastCommitUs)
  else if c.inStartupGrace cfg now || c.inSettleGrace now then false
  else if c.wasInGrace && !c.inSettleGrace now then decide (¬(cand.k = cur.k ∧ cand.n = cur.n))
  else c.hysteresisDue cfg now cand cur

/-- A tick commits `cand`. -/
def commitDue (ffActive : Bool) (committedKbps : ℤ) : Bool :=
  match c.current with
  | none => !(c.inStartupGrace cfg now || c.inSettleGrace now)
  | some cur => c.replaceDue cfg now cand ffActive cur committedKbps

theorem hysteresis_isSome (cur : FecParams) :
    (c.hysteresis cfg now cand cur).2.isSome = c.hysteresisDue cfg now cand cur := by
  rw [hysteresis, hysteresisDue]
  dsimp only
  split_ifs <;> simp_all

theorem judge_isSome (ffActive : Bool) (committedKbps : ℤ) :
    (c.judge cfg now cand ffActive committedKbps).2.isSome
      = c.commitDue cfg now cand ffActive committedKbps := by
  rw [judge]
  dsimp only
  split
  · rename_i hc
    simp only [commitDue, hc]
    cases c.inStartupGrace cfg now <;> cases c.inSettleGrace now <;> rfl
  · rename_i cur hc
    have hdue : c.commitDue cfg now cand ffActive committedKbps
        = c.replaceDue cfg now cand ffActive cur committedKbps := by simp only [commitDue, hc]
    have hff : (ffActive && !c.inStartupGrace cfg now && cand.k != cur.k &&
      c.opPointMoved cfg committedKbps) = c.ffApplies cfg now cand ffActive cur committedKbps := rfl
    rw [hdue, hff, replaceDue]
    cases c.ffApplies cfg now cand ffActive cur committedKbps
    · simp only [Bool.false_eq_true, if_false]
      split
      · rfl
      · split
        · split_ifs <;> simp_all
        · exact hysteresis_isSome _ cfg now cand cur
    · simp only [if_true]
      split <;> simp_all

end Controller

/-- A clean frame of this size makes the controller commit a block. -/
def Lc.blockDue (s : Lc) (frameSize now : ℕ) (fps : ℚ) : Bool :=
  let (c, ring) := s.fec.ctrl.intake s.cfg.fec frameSize s.ring now
  let (cand, ffActive) := c.candidate s.cfg.fec ring fps s.fec.lastWrittenKbps
  c.commitDue s.cfg.fec now cand ffActive s.fec.lastWrittenKbps

/-- A sidecar datagram that makes the law send a SET_FEC, the controller off or not. -/
def Lc.frameSends (s : Lc) (d : SidecarDgram) (nowFec : ℕ) : Bool :=
  s.hears d && d.hasSize && !s.skipFec d && !s.cfg.dryRun &&
    s.blockDue d.frameSizeBytes nowFec (s.fps.feed d.frameReadyUs).get

/-- The path that does not ask `fec.enabled` and has a SET_FEC to send. -/
def Lc.refec (s : Lc) : Event → Bool
  | .sidecar dt dt₁ d _ _ => s.frameSends d (s.clock + dt + dt₁)
  | _ => false

theorem cleanFrame_lawFec (s : Lc) (frameSize now : ℕ) (setFec venc : Bool) :
    (s.cleanFrame frameSize now setFec venc).2.any Obs.isLawFec
      = (!s.cfg.dryRun && s.blockDue frameSize now s.fps.get) := by
  rw [Lc.cleanFrame, Lc.blockDue, controllerUpdate]
  dsimp only
  rw [← Controller.judge_isSome]
  split
  · rename_i h
    rw [h]
    simp
  · rename_i p h
    rw [h, andThen, List.any_append]
    have hb (s' : Lc) : (s'.assertBitrate now venc).2.any Obs.isLawFec = false := by
      rw [List.any_eq_false]
      intro o ho
      have hbudget := assertBitrate_emits s' now venc o ho
      cases o <;> first | exact Bool.false_ne_true | cases hbudget
    rw [hb]
    rw [Lc.sendFec]
    cases s.cfg.dryRun <;> rfl

theorem skipped_lawFec (s : Lc) (now : ℕ) (venc : Bool) :
    (s.skipped now venc).2.any Obs.isLawFec = false := by
  rw [List.any_eq_false]
  intro o ho
  rw [Lc.skipped] at ho
  dsimp only at ho
  split at ho
  · split at ho
    · obtain ⟨req, rfl⟩ := vencApply_obs ho
      exact Bool.false_ne_true
    · cases ho
  · cases ho

/-- What a frame brings leaves the FEC tick's inputs alone but for the frame rate. -/
theorem heard_spec (s : Lc) (d : SidecarDgram) (now : ℕ) :
    (s.heard d now).2.any Obs.isLawFec = false ∧ (s.heard d now).1.cfg = s.cfg ∧
      (s.heard d now).1.fec = s.fec ∧ (s.heard d now).1.ring = s.ring ∧
      (s.heard d now).1.fps = s.fps.feed d.frameReadyUs := by
  rw [Lc.heard, Lc.readTransport]
  split_ifs <;> exact ⟨rfl, rfl, rfl, rfl, rfl⟩

theorem sidecar_lawFec (s : Lc) (d : SidecarDgram) (now nowFec : ℕ) (setFec venc : Bool) :
    (s.sidecar d now nowFec setFec venc).2.any Obs.isLawFec = s.frameSends d nowFec := by
  unfold Lc.sidecar Lc.sizeTick Lc.frameSends
  obtain ⟨hobs, hcfg, hfec, hring, hfps⟩ := heard_spec s d now
  cases s.hears d
  · rfl
  simp only [Bool.not_true, Bool.false_eq_true, if_false, Bool.true_and, andThen,
    List.any_append, hobs, Bool.false_or]
  cases d.hasSize
  · rfl
  cases s.skipFec d
  · simp only [Bool.not_true, Bool.not_false, Bool.true_and, Bool.false_eq_true, if_false]
    rw [cleanFrame_lawFec]
    unfold Lc.blockDue
    rw [hcfg, hfec, hring, hfps]
  · exact skipped_lawFec ..

/-- The law sends a SET_FEC on the one ungated path only. -/
theorem handle_lawFec (s : Lc) (e : Event) : (s.handle e).2.any Obs.isLawFec = s.refec e := by
  cases e with
  | sidecar dt dt₁ d setFec venc => exact sidecar_lawFec ..
  | _ =>
      rw [List.any_eq_false.mpr]
      · rfl
      · intro o ho
        have he := handle_emits s _ o ho
        cases o <;> first | exact Bool.false_ne_true | cases he

/-- With `fec.enabled` false the step sends no SET_FEC of the law. -/
def FecOverridden (s : Lc) (e : Event) : Prop :=
  s.cfg.fec.enabled = false → ∀ o ∈ (machine.step s e).2, o.isLawFec = false

instance (s : Lc) (e : Event) : Decidable (FecOverridden s e) :=
  inferInstanceAs (Decidable (_ → ∀ o ∈ (machine.step s e).2, o.isLawFec = false))

/-- The pair of the last SET_FEC if the operator sent it. -/
def operatorPair : Monitor Obs (Option (ℤ × ℤ)) where
  upd
    | _, .operatorFec k n true => some (k, n)
    | _, .lawFec .. => none
    | g, _ => g
  ok _ _ := true

/-- With `fec.enabled` false the operator's pair stays in force over the step, or is
replaced by the operator's next one. -/
def PairKept (sg : Lc × Option (ℤ × ℤ)) (e : Event) : Prop :=
  sg.1.cfg.fec.enabled = false → sg.2.isSome → (operatorPair.after sg.2 (machine.step sg.1 e).2).isSome

theorem operatorPair_after {g : Option (ℤ × ℤ)} {os : List Obs}
    (h : ∀ o ∈ os, o.isLawFec = false) (hg : g.isSome) : (operatorPair.after g os).isSome := by
  induction os generalizing g with
  | nil => exact hg
  | cons o os ih =>
      refine ih (fun o ho => h o (List.mem_cons_of_mem _ ho)) ?_
      have ho := h o List.mem_cons_self
      cases o <;> first | exact hg | cases ho
      rename_i k n sent
      cases sent
      · exact hg
      · rfl

end Waybeam.Vehicle
