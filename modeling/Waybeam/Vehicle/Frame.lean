/-
# `Waybeam.Vehicle.Frame` — what each path touches and what it emits

Five kinds of events drive the radio; the other nine only listen:

    drive    pendingTick   watchdog   httpCmd   wcmd   rxAnt
    listen   probeTick  subscribe  radioPoll  httpSet  txStats  stale  probeRec  sidecar  external

The ends the driving paths share get one lemma each: a commit, deferred or sent; a command
dispatch; a record the law saw.  Then two facts about every event: it emits observations
of its own kind only (`handle_emits`), and a listening event leaves the command side of the
state alone (`handle_command`).
-/
import Waybeam.Vehicle.Loop

namespace Waybeam.Vehicle

/-! ## `bitrate_assert` and the pre-drop -/

/-- An observation of the budget: an asserted target or the write that follows it. -/
def Obs.isBudget : Obs → Bool
  | .asserted .. | .venc _ .assert .. => true
  | _ => false

theorem vencApply_obs {now : ℕ} {who : VencBy} {bitrate payload : ℤ} {answer : Bool} {o : Obs}
    (h : o ∈ (vencApply now who bitrate payload answer).2) : ∃ req, o = .venc now who req answer := by
  rw [vencApply] at h
  split at h
  · simp at h
  · exact ⟨_, List.mem_singleton.mp h⟩

theorem assertWrite_obs (cfg : Config) (f : FecState) (target payload : ℤ) (now : ℕ)
    (answer : Bool) : ∀ o ∈ (assertWrite cfg f target payload now answer).2, o.isBudget := by
  intro o ho
  rw [assertWrite] at ho
  dsimp only at ho
  by_cases hd : cfg.dryRun
  · simp [hd] at ho
  · simp only [if_neg hd] at ho
    obtain ⟨req, rfl⟩ := vencApply_obs ho
    rfl

theorem bitrateAssert_obs (radio : RadioState) (cfg : Config) (f : FecState) (now : ℕ)
    (answer : Bool) : ∀ o ∈ (bitrateAssert radio cfg f now answer).2, o.isBudget := by
  intro o ho
  rw [bitrateAssert] at ho
  dsimp only at ho
  split at ho
  · simp at ho
  · split_ifs at ho
    · simp at ho
    · rcases List.mem_cons.mp ho with rfl | ho
      · rfl
      · exact assertWrite_obs _ _ _ _ _ _ o ho
    · simp only [List.mem_singleton] at ho
      subst ho
      rfl

theorem commitMcsPreDropBitrate_obs (cfg : Config) (radio : RadioState) (f : FecState)
    (newMcs : ℤ) (now : ℕ) (answer : Bool) :
    ∀ o ∈ (commitMcsPreDropBitrate cfg radio f newMcs now answer).2,
      o = .preDrop now newMcs ∨ o.isBudget := by
  intro o ho
  rw [commitMcsPreDropBitrate] at ho
  dsimp only at ho
  split_ifs at ho
  · simp at ho
  all_goals
    rcases List.mem_cons.mp ho with rfl | ho
    · exact .inl rfl
    · exact .inr (bitrateAssert_obs _ _ _ _ _ o ho)

/-! ## The cache -/

section Cache

variable (s : Lc)

/-- The state after a GET_RADIO that was answered. -/
def Lc.synced : Lc := { s with radioBody := s.air, radioBodyValid := true }

@[simp] theorem adopt_true : s.adopt true = (s.synced, [.adopted s.air]) := rfl

@[simp] theorem adopt_false : s.adopt false = (s, []) := rfl

variable {s}

theorem syncBody_of_valid (h : s.radioBodyValid) (ok : Bool) : s.syncBody ok = (s, []) := if_pos h

theorem syncBody_of_invalid (h : s.radioBodyValid = false) (ok : Bool) :
    s.syncBody ok = s.adopt ok := if_neg (by simp [h])

@[simp] theorem adopt_cfg (ok : Bool) : (s.adopt ok).1.cfg = s.cfg := by cases ok <;> rfl

@[simp] theorem syncBody_cfg (ok : Bool) : (s.syncBody ok).1.cfg = s.cfg := by
  rw [Lc.syncBody]
  split_ifs
  · rfl
  · exact adopt_cfg ok

end Cache

/-! ## Commits -/

/-- What wfb_tx transmits with after a SET_RADIO of `body`. -/
def SetReply.airAfter (reply : SetReply) (body air : RadioBody) : RadioBody :=
  if reply = .refused then air else body.onWire

section Commit

variable (s : Lc) (m : ℤ) (who : SetBy) (now : ℕ) (io : CommitIo)

/-- The drop a deferred commit queues. -/
def Lc.dropTo : PendingMcsDown where
  deadlineUs := now + usOf s.cfg.fec.bitrateLeadS
  targetMcs := m
  pendingRadio := s.radioBody.withMcs m

/-- The pre-drop assert of a deferred commit. -/
def Lc.preDrop (answer : Bool) : FecState × List Obs :=
  commitMcsPreDropBitrate s.cfg s.radio s.fec m now answer

/-- What a commit leaves when it is sent: the drop that was queued is gone either way. -/
def Lc.sentTo (s : Lc) (m : ℤ) (now : ℕ) (reply : SetReply) : Lc :=
  { s with
    pending := none, fec := upGraceLock s.cfg s.radioBody m now s.fec
    air := reply.airAfter (s.radioBody.withMcs m) s.air }

/-- What a commit leaves when it is deferred. -/
def Lc.deferredTo (s : Lc) (m : ℤ) (now : ℕ) (answer : Bool) : Lc :=
  { s with pending := some (s.dropTo m now), fec := (s.preDrop m now answer).1 }

variable {s m}

/-- A deferred commit asserts the new bitrate and queues the drop. -/
theorem commitTo_deferred (h : commitDefers s.cfg s.radioBody m = true) :
    s.commitTo m who now io =
      (.deferred, s.deferredTo m now io.venc, (s.preDrop m now io.venc).2 ++ [.queued now m]) := by
  simp only [Lc.commitTo, commitMcsChange, if_pos h]
  rfl

/-- A commit that is not deferred is one round trip. -/
theorem commitTo_sent (h : commitDefers s.cfg s.radioBody m = false) (hd : s.cfg.dryRun = false) :
    s.commitTo m who now io =
      (if io.set = .acked then .acked else .failed, s.sentTo m now io.set,
        [.setRadio now who (s.radioBody.withMcs m) (io.set = .acked)]) := by
  have hn : ¬commitDefers s.cfg s.radioBody m = true := by simp [h]
  have hd' : ¬s.cfg.dryRun = true := by simp [hd]
  simp only [Lc.commitTo, commitMcsChange, if_neg hn, if_neg hd', wfbSetRadio, decide_eq_true_eq]
  rfl

theorem commitStored_deferred (h : commitDefers s.cfg s.radioBody m = true) (nowObs : ℕ) :
    s.commitStored m who now nowObs io =
      (s.deferredTo m now io.venc, (s.preDrop m now io.venc).2 ++ [.queued now m]) := by
  simp only [Lc.commitStored, commitTo_deferred who now io h]
  rfl

theorem commitStored_sent (h : commitDefers s.cfg s.radioBody m = false)
    (hd : s.cfg.dryRun = false) (nowObs : ℕ) :
    s.commitStored m who now nowObs io =
      (if io.set = .acked then (s.sentTo m now io.set).stored m nowObs else s.sentTo m now io.set,
        [.setRadio now who (s.radioBody.withMcs m) (io.set = .acked)]) := by
  simp only [Lc.commitStored, commitTo_sent who now io h hd]
  cases io.set <;> rfl

end Commit

/-! ## The queued drop and the realign -/

/-- The queued drop is due. -/
def Lc.dropDue (s : Lc) (now : ℕ) : Bool := s.pending.any fun p => decide (p.deadlineUs ≤ now)

/-- The pending tick has nothing to send. -/
theorem pendingTick_idle {s : Lc} {now : ℕ} (h : s.dropDue now = false) (reply : SetReply) :
    s.pendingTick now reply = (s, []) := by
  rw [Lc.dropDue] at h
  rw [Lc.pendingTick]
  rcases hp : s.pending with _ | p
  · rfl
  · have hlt : now < p.deadlineUs := by simpa [hp] using h
    exact if_pos hlt

/-- The state after the SET_RADIO of a due drop. -/
def Lc.dropSent (s : Lc) (p : PendingMcsDown) (now : ℕ) (reply : SetReply) : Lc :=
  let air := reply.airAfter p.pendingRadio s.air
  if reply = .acked then
    { s with air, radioBody := p.pendingRadio, pending := none }.observe p.pendingRadio.params now
  else { s with air, pending := some { p with deadlineUs := now + 100000 } }

/-- A due drop is sent; unless it is acknowledged it stays queued. -/
theorem pendingTick_due {s : Lc} {p : PendingMcsDown} {now : ℕ} (hp : s.pending = some p)
    (h : p.deadlineUs ≤ now) (reply : SetReply) :
    s.pendingTick now reply =
      (s.dropSent p now reply, [.setRadio now .pendingTick p.pendingRadio (reply = .acked)]) := by
  have hlt : ¬now < p.deadlineUs := Nat.not_lt.mpr h
  simp only [Lc.pendingTick, hp, if_neg hlt]
  cases reply <;> rfl

/-- The realign of the selector's rung is due. -/
def Lc.realignDue (s : Lc) : Bool :=
  decide (0 ≤ s.sel.currentMcs) && s.radioBodyValid && !s.cfg.dryRun &&
    decide (s.sel.currentMcs ≠ s.radioBody.mcs) && !s.coveredByPending s.sel.currentMcs

theorem realign_eq (s : Lc) (nowCommit nowObs : ℕ) (io : CommitIo) :
    s.realign nowCommit nowObs io =
      if s.realignDue then s.commitStored s.sel.currentMcs .realign nowCommit nowObs io
      else (s, []) := rfl

theorem realignDue_dryRun {s : Lc} (h : s.realignDue) : s.cfg.dryRun = false := by
  simp only [Lc.realignDue, Bool.and_eq_true, Bool.not_eq_true'] at h
  exact h.1.1.2

/-! ## The watchdog -/

section Watchdog

variable (s : Lc) (now : ℕ)

/-- The watchdog is due. -/
def Lc.watchdogDue : Bool := s.cfg.mcs.enabled && decide (s.nextWatchdogUs ≤ now)

/-- What the watchdog decides. -/
def Lc.watchdogDecision : SelectDecision := (watchdogSelect s.sel s.cfg.mcs now).2

/-- The state it decides in. -/
def Lc.watched : Lc :=
  { s with
    sel := (watchdogSelect s.sel s.cfg.mcs now).1
    nextWatchdogUs := now + watchdogPeriodUs s.cfg.mcs }

/-- The watchdog commits SD_FAILSAFE. -/
def Lc.raises : Bool := s.watchdogDue now && decide (s.watchdogDecision now = .failsafe)

variable {s now}

theorem watchdog_idle (h : s.watchdogDue now = false) (io : SyncIo) :
    s.watchdog now io = (s, []) := by
  refine if_pos ?_
  simp only [Lc.watchdogDue, Bool.and_eq_false_iff, decide_eq_false_iff_not, Nat.not_le] at h
  rcases h with h | h <;> simp [h]

theorem watchdog_due (h : s.watchdogDue now = true) (io : SyncIo) :
    s.watchdog now io =
      match s.watchdogDecision now with
      | .none => (s.watched now, [])
      | .failsafe =>
          (((s.watched now).watchdogCommit now io).1,
            .failsafe now (s.watched now).sel.currentMcs (usOf s.cfg.mcs.failsafeTimeoutS) ::
              ((s.watched now).watchdogCommit now io).2)
      | _ => (s.watched now).watchdogCommit now io := by
  simp only [Lc.watchdogDue, Bool.and_eq_true, decide_eq_true_eq] at h
  have hdue : ¬now < s.nextWatchdogUs := Nat.not_lt.mpr h.2
  simp only [Lc.watchdog, h.1, hdue, Bool.not_true, decide_false, Bool.or_false, Bool.false_eq_true,
    if_false, Lc.watchdogDecision]
  rfl

end Watchdog

/-! ## Decisions -/

section Decision

variable {s : Lc} (snap : Selector) (nowCommit nowObs : ℕ) (io : RxIo)

theorem commitDecision_deferred (h : commitDefers s.cfg s.radioBody s.sel.currentMcs = true) :
    s.commitDecision snap nowCommit nowObs io =
      (s.deferredTo s.sel.currentMcs nowCommit io.commit.venc,
        (s.preDrop s.sel.currentMcs nowCommit io.commit.venc).2 ++
          [.queued nowCommit s.sel.currentMcs]) := by
  simp only [Lc.commitDecision, commitTo_deferred _ _ _ h, andThen, List.append_nil]

theorem commitDecision_sent (h : commitDefers s.cfg s.radioBody s.sel.currentMcs = false)
    (hd : s.cfg.dryRun = false) :
    s.commitDecision snap nowCommit nowObs io =
      andThen (s.sentTo s.sel.currentMcs nowCommit io.commit.set,
          [.setRadio nowCommit .decision (s.radioBody.withMcs s.sel.currentMcs)
            (io.commit.set = .acked)]) fun s' =>
        if io.commit.set = .acked then s'.readBack s.sel.currentMcs io.readBack nowObs
        else ({ s' with sel := snap }, [.rolledBack]) := by
  simp only [Lc.commitDecision, commitTo_sent _ _ _ h hd]
  cases io.commit.set <;> rfl

end Decision

/-! ## Command dispatch -/

/-- A dispatch that sent no SET_RADIO. -/
structure CmdOut.Quiet (o : CmdOut) (st : WcmdState) (air : RadioBody) : Prop where
  air : o.air = air
  radioWritten : o.st.radioWritten = st.radioWritten
  obs : ∀ x ∈ o.obs, (∃ k n sent, x = .operatorFec k n sent) ∨
    ∃ now req ok, x = .venc now .operator req ok

/-- A dispatch that sent one: the body read from wfb_tx with one field changed, kept for
adoption iff it was acknowledged. -/
structure CmdOut.WroteRadio (o : CmdOut) (cfg : Config) (st : WcmdState) (air : RadioBody)
    (now : ℕ) (io : CmdIo) : Prop where
  cfg : o.cfg = cfg
  sent : ∃ key value, o.obs = [.setRadio now .operator (air.write key value) (io.setRadio = .acked)] ∧
    o.air = io.setRadio.airAfter (air.write key value) air ∧
    o.st.radioWritten =
      if io.setRadio = .acked then some (air.write key value) else st.radioWritten

/-- An outcome that sends nothing and leaves all but the command state alone. -/
structure CmdOut.Idle (o : CmdOut) (cfg : Config) (st : WcmdState) (air : RadioBody) : Prop where
  cfg : o.cfg = cfg
  air : o.air = air
  radioWritten : o.st.radioWritten = st.radioWritten
  obs : o.obs = []

section Dispatch

variable (cfg : Config) (st : WcmdState) (air : RadioBody) (now : ℕ) (io : CmdIo)

@[simp] theorem accept_radioWritten (key : WcmdKey) (seq : UInt16) (value http : ℤ) :
    (st.accept key seq now value http).radioWritten = st.radioWritten := rfl

@[simp] theorem failHttp_radioWritten : st.failHttp.radioWritten = st.radioWritten := rfl

theorem wcmdInfra_idle (key : WcmdKey) (seq : UInt16) (value : ℤ) :
    (wcmdInfra cfg st air key seq value now).Idle cfg st air := by
  rw [wcmdInfra]
  dsimp only
  split_ifs <;> exact ⟨rfl, rfl, rfl, rfl⟩

theorem wcmdReturnApfpv_idle (seq : UInt16) :
    (wcmdReturnApfpv cfg st air seq now io).Idle cfg st air := by
  rw [wcmdReturnApfpv]
  dsimp only
  split_ifs <;> exact ⟨rfl, rfl, rfl, rfl⟩

/-- What holds of an idle outcome and of a command holds behind the gates. -/
theorem wcmdGate_rule {P : CmdOut → Prop} (hidle : ∀ o : CmdOut, o.Idle cfg st air → P o)
    (happly : ∀ key seq value, P (wcmdApply cfg st air key seq value now io)) (key : WcmdKey)
    (seq : UInt16) (raw : ℤ) : P (wcmdGate cfg st air key seq raw now io) := by
  rw [wcmdGate]
  generalize wcmdClampValue cfg key raw = clamped
  split
  · exact hidle _ ⟨rfl, rfl, rfl, rfl⟩
  split
  · exact hidle _ (wcmdReturnApfpv_idle ..)
  split
  · exact hidle _ ⟨rfl, rfl, rfl, rfl⟩
  cases clamped with
  | none => exact hidle _ ⟨rfl, rfl, rfl, rfl⟩
  | some value =>
      dsimp only
      split
      · exact hidle _ ⟨rfl, rfl, rfl, rfl⟩
      · exact happly key seq value

/-- What holds of an idle outcome and of a command holds of a dispatch. -/
theorem wcmdDispatch_rule {P : CmdOut → Prop} (hidle : ∀ o : CmdOut, o.Idle cfg st air → P o)
    (happly : ∀ (st' : WcmdState) key seq value, st'.radioWritten = st.radioWritten →
      P (wcmdApply cfg st' air key seq value now io)) (req : WcmdReq) (peerIsLoopback : Bool) :
    P (wcmdDispatch cfg st air req peerIsLoopback now io) := by
  rw [wcmdDispatch]
  dsimp only
  split
  · exact hidle _ ⟨rfl, rfl, rfl, rfl⟩
  split
  · exact hidle _ ⟨rfl, rfl, rfl, rfl⟩
  split
  · exact hidle _ ⟨rfl, rfl, rfl, rfl⟩
  · obtain ⟨hcfg, hair, hwritten, hobs⟩ := wcmdInfra_idle cfg _ air now .logSync req.seq req.value
    exact hidle _ ⟨hcfg, hair, hwritten, hobs⟩
  · obtain ⟨hcfg, hair, hwritten, hobs⟩ := wcmdInfra_idle cfg _ air now .logControl req.seq _
    exact hidle _ ⟨hcfg, hair, hwritten, hobs⟩
  · split
    · exact hidle _ ⟨rfl, rfl, rfl, rfl⟩
    · refine wcmdGate_rule cfg _ air now io ?_ ?_ _ req.seq req.value
      · intro o ho
        exact hidle o ⟨ho.cfg, ho.air, ho.radioWritten, ho.obs⟩
      · intro key seq value
        exact happly _ key seq value rfl

theorem wcmdApplyRadio_cases (key : WcmdKey) (seq : UInt16) (value : ℤ) :
    (wcmdApplyRadio cfg st air key seq value now io).Quiet st air ∨
      (wcmdApplyRadio cfg st air key seq value now io).WroteRadio cfg st air now io := by
  rw [wcmdApplyRadio]
  by_cases hg : io.getRadio
  · right
    by_cases ha : io.setRadio = .acked
    · exact ⟨by simp [hg, ha, wfbSetRadio], key, value, by simp [hg, ha, wfbSetRadio],
        by simp [hg, ha, wfbSetRadio, SetReply.airAfter], by simp [hg, ha, wfbSetRadio]⟩
    · exact ⟨by simp [hg, ha, wfbSetRadio], key, value, by simp [hg, ha, wfbSetRadio],
        by simp [hg, ha, wfbSetRadio, SetReply.airAfter], by simp [hg, ha, wfbSetRadio]⟩
  · left
    simp only [hg]
    exact ⟨rfl, rfl, by simp⟩

theorem wcmdApplyFec_quiet (key : WcmdKey) (seq : UInt16) (value : ℤ) :
    (wcmdApplyFec cfg st air key seq value now io).Quiet st air := by
  rw [wcmdApplyFec]
  split
  · exact ⟨rfl, rfl, by simp⟩
  · dsimp only
    generalize (if key = WcmdKey.wfbFecK then value else _) = newK
    generalize (if key = WcmdKey.wfbFecN then value else _) = newN
    split_ifs
    · exact ⟨rfl, rfl, by simp⟩
    all_goals exact ⟨rfl, rfl, fun x hx => .inl ⟨_, _, _, List.mem_singleton.mp hx⟩⟩

theorem wcmdApplyVenc_quiet (key : WcmdKey) (seq : UInt16) (value : ℤ) :
    (wcmdApplyVenc cfg st air key seq value now io).Quiet st air := by
  have hobs : ∀ x ∈ ((wcmdVencReq key value).map (Obs.venc now .operator · io.venc)).toList,
      (∃ k n sent, x = .operatorFec k n sent) ∨ ∃ now req ok, x = .venc now .operator req ok := by
    intro x hx
    simp only [Option.mem_toList, Option.map_eq_some_iff] at hx
    obtain ⟨req, -, rfl⟩ := hx
    exact .inr ⟨_, _, _, rfl⟩
  rw [wcmdApplyVenc]
  dsimp only
  split_ifs
  all_goals exact ⟨rfl, rfl, hobs⟩

theorem wcmdApplyTxpower_quiet (seq : UInt16) (value : ℤ) :
    (wcmdApplyTxpower cfg st air seq value now io).Quiet st air := by
  rw [wcmdApplyTxpower]
  split_ifs
  all_goals exact ⟨rfl, rfl, by simp⟩

theorem wcmdApply_cases (key : WcmdKey) (seq : UInt16) (value : ℤ) :
    (wcmdApply cfg st air key seq value now io).Quiet st air ∨
      (wcmdApply cfg st air key seq value now io).WroteRadio cfg st air now io := by
  unfold wcmdApply
  cases key
  case wfbTxpower => exact .inl (wcmdApplyTxpower_quiet ..)
  case wfbFecK | wfbFecN =>
    dsimp only
    split_ifs
    · exact .inl ⟨rfl, rfl, by simp⟩
    · exact .inl (wcmdApplyFec_quiet ..)
  case wfbMcs | wfbBandwidth | wfbLdpc | wfbStbc | wfbShortGi =>
    dsimp only
    split_ifs
    · exact .inl ⟨rfl, rfl, by simp⟩
    · exact wcmdApplyRadio_cases ..
  case bitrateKbps | fps | payloadBytes | forceIdr | record =>
    dsimp only
    split_ifs
    · exact .inl ⟨rfl, rfl, by simp⟩
    · exact .inl (wcmdApplyVenc_quiet ..)
  case peekEnabled =>
    dsimp only
    split_ifs
    all_goals exact .inl ⟨rfl, rfl, by simp⟩
  all_goals exact .inl ⟨rfl, rfl, by simp⟩

/-- A dispatch sends no SET_RADIO, or one on behalf of the operator. -/
theorem wcmdDispatch_cases (req : WcmdReq) (peerIsLoopback : Bool) :
    (wcmdDispatch cfg st air req peerIsLoopback now io).Quiet st air ∨
      (wcmdDispatch cfg st air req peerIsLoopback now io).WroteRadio cfg st air now io := by
  refine wcmdDispatch_rule (P := fun o => o.Quiet st air ∨ o.WroteRadio cfg st air now io)
    cfg st air now io ?_ ?_ req peerIsLoopback
  · intro o ho
    exact .inl ⟨ho.air, ho.radioWritten, by simp [ho.obs]⟩
  · intro st' key seq value hst
    rcases wcmdApply_cases cfg st' air now io key seq value with h | h
    · exact .inl ⟨h.air, h.radioWritten.trans hst, h.obs⟩
    · exact .inr ⟨h.cfg, hst ▸ h.sent⟩

end Dispatch

/-! ## Records -/

/-- The state in which the law acts on a record it scored, and its decision. -/
def Lc.judged (s : Lc) (r : RxAnt) (now : ℕ) : Option (Lc × SelectDecision) :=
  if !s.rxAntOpen || !r.ver1 then none
  else
    match s.scoreOf r now with
    | (_, none) => none
    | (scorer, some score) =>
        let (sel, sd) := s.sel.update s.cfg.mcs score s.probe s.transport.inPressure now
        some ({ s with scorer, sel }, sd)

section Record

variable {s s' : Lc} {r : RxAnt} {now : ℕ} {sd : SelectDecision}

/-- A record the law never sees moves the scorer at most. -/
theorem rxAnt_none (h : s.judged r now = none) (nowCommit nowObs : ℕ) (io : RxIo) :
    ∃ scorer, s.rxAnt r now nowCommit nowObs io = ({ s with scorer }, []) := by
  rw [Lc.judged] at h
  rw [Lc.rxAnt]
  split_ifs at h ⊢
  · exact ⟨s.scorer, rfl⟩
  · rcases hs : s.scoreOf r now with ⟨scorer, _ | score⟩
    · exact ⟨scorer, rfl⟩
    · simp [hs] at h

/-- A record the law saw: act on its answer. -/
theorem rxAnt_some (h : s.judged r now = some (s', sd)) (nowCommit nowObs : ℕ) (io : RxIo) :
    s.rxAnt r now nowCommit nowObs io =
      ((s'.act s.sel sd nowCommit nowObs io).1,
        .selectorUpdate now s.transport.inPressure sd :: (s'.act s.sel sd nowCommit nowObs io).2) := by
  rw [Lc.judged] at h
  rw [Lc.rxAnt]
  by_cases hc : (!s.rxAntOpen || !r.ver1) = true
  · rw [if_pos hc] at h
    cases h
  rw [if_neg hc] at h ⊢
  rcases hs : s.scoreOf r now with ⟨scorer, _ | score⟩
  · simp [hs] at h
  · simp only [hs, Option.some.injEq, Prod.mk.injEq] at h
    obtain ⟨rfl, rfl⟩ := h
    rfl

/-- The law moves the scorer and the selector, by `selector_update`. -/
theorem judged_some (h : s.judged r now = some (s', sd)) :
    ∃ scorer score, (s.sel.update s.cfg.mcs score s.probe s.transport.inPressure now).2 = sd ∧
      s' = { s with
        scorer, sel := (s.sel.update s.cfg.mcs score s.probe s.transport.inPressure now).1 } := by
  rw [Lc.judged] at h
  split_ifs at h
  rcases hs : s.scoreOf r now with ⟨scorer, _ | score⟩
  · simp [hs] at h
  · simp only [hs, Option.some.injEq, Prod.mk.injEq] at h
    obtain ⟨rfl, rfl⟩ := h
    exact ⟨scorer, score, rfl, rfl⟩

end Record

/-! ## What each path emits -/

/-- The observations of a commit by `who`. -/
def Obs.isCommit (who : SetBy) : Obs → Bool
  | .setRadio _ w _ _ => decide (w = who)
  | .preDrop .. | .queued .. => true
  | o => o.isBudget

/-- The observations of a command dispatch. -/
def Obs.isOperator : Obs → Bool
  | .setRadio _ .operator _ _ | .operatorFec .. | .venc _ .operator _ _ => true
  | _ => false

/-- The observations of what the law's answer drives. -/
def Obs.isAct : Obs → Bool
  | .adopted _ | .rolledBack => true
  | o => o.isCommit .realign || o.isCommit .decision

/-- The observations of what a frame's size drives. -/
def Obs.isSizeTick : Obs → Bool
  | .lawFec .. | .venc _ .wedge _ _ => true
  | o => o.isBudget

/-- What an event may emit. -/
def Event.emits : Event → Obs → Bool
  | .pendingTick .., .setRadio _ .pendingTick _ _ => true
  | .probeTick .., .setProbe .. => true
  | .subscribe _, .subscribe _ => true
  | .watchdog .., .failsafe .. => true
  | .watchdog .., .adopted _ => true
  | .watchdog .., o => o.isCommit .watchdog
  | .radioPoll .., .radioSeen _ => true
  | .radioPoll .., o => o.isBudget
  | .httpCmd .., o => o.isOperator
  | .wcmd .., o => o.isOperator
  | .txStats .., .radioSeen _ => true
  | .txStats .., o => o.isBudget
  | .rxAnt .., .selectorUpdate .. => true
  | .rxAnt .., o => o.isAct
  | .sidecar .., .trailer .. => true
  | .sidecar .., o => o.isSizeTick
  | _, _ => false

/-- The event is an rx_ant record. -/
def Event.isRecord : Event → Bool
  | .rxAnt .. => true
  | _ => false

/-- The event is a sidecar frame. -/
def Event.isSidecar : Event → Bool
  | .sidecar .. => true
  | _ => false

/-- All that a step emits is of the kind `P`. -/
def Emits (P : Obs → Bool) (r : Lc × List Obs) : Prop := ∀ o ∈ r.2, P o

theorem Emits.andThen {P : Obs → Bool} {r : Lc × List Obs} {k : Lc → Lc × List Obs}
    (h : Emits P r) (hk : Emits P (k r.1)) : Emits P (andThen r k) := by
  intro o ho
  rcases List.mem_append.mp ho with ho | ho
  · exact h o ho
  · exact hk o ho

theorem Emits.mono {P Q : Obs → Bool} {r : Lc × List Obs} (h : Emits P r)
    (hPQ : ∀ o, P o → Q o) : Emits Q r := fun o ho => hPQ o (h o ho)

theorem emits_nil {P : Obs → Bool} {s : Lc} : Emits P (s, []) := fun _ h => nomatch h

theorem emits_one {P : Obs → Bool} {s : Lc} {o : Obs} (h : P o) : Emits P (s, [o]) :=
  fun _ ho => List.mem_singleton.mp ho ▸ h

theorem assertBitrate_emits (s : Lc) (now : ℕ) (answer : Bool) :
    Emits Obs.isBudget (s.assertBitrate now answer) := fun o ho =>
  bitrateAssert_obs s.radio s.cfg s.fec now answer o ho

theorem isCommit_of_isBudget {o : Obs} (h : o.isBudget) (who : SetBy) : o.isCommit who := by
  cases o <;> first | exact h | cases h

/-- The observation of a GET_RADIO stored in the cache. -/
def Obs.isAdopted : Obs → Bool
  | .adopted _ => true
  | _ => false

theorem adopt_emits (s : Lc) (ok : Bool) : Emits Obs.isAdopted (s.adopt ok) := by
  cases ok
  · exact emits_nil
  · exact emits_one rfl

theorem syncBody_emits (s : Lc) (ok : Bool) : Emits Obs.isAdopted (s.syncBody ok) := by
  rw [Lc.syncBody]
  split_ifs
  · exact emits_nil
  · exact adopt_emits s ok

theorem preDrop_emits (s : Lc) (m : ℤ) (now : ℕ) (answer : Bool) (who : SetBy) :
    ∀ o ∈ (s.preDrop m now answer).2 ++ [.queued now m], o.isCommit who := by
  intro o ho
  rcases List.mem_append.mp ho with ho | ho
  · rcases commitMcsPreDropBitrate_obs _ _ _ _ _ _ o ho with rfl | hb
    · rfl
    · exact isCommit_of_isBudget hb who
  · exact List.mem_singleton.mp ho ▸ rfl

theorem commitStored_emits {s : Lc} (hd : s.cfg.dryRun = false) (m : ℤ) (who : SetBy)
    (now nowObs : ℕ) (io : CommitIo) :
    Emits (Obs.isCommit who) (s.commitStored m who now nowObs io) := by
  cases h : commitDefers s.cfg s.radioBody m
  · rw [commitStored_sent who now io h hd]
    exact emits_one (decide_eq_true rfl)
  · rw [commitStored_deferred who now io h]
    exact preDrop_emits s m now io.venc who

theorem isAct_of_isCommit {o : Obs} (h : o.isCommit .realign || o.isCommit .decision) : o.isAct := by
  cases o <;> first | exact h | rfl

theorem watchdogCommit_emits (s : Lc) (now : ℕ) (io : SyncIo) :
    Emits (fun o => o.isAdopted || o.isCommit .watchdog) (s.watchdogCommit now io) := by
  rw [Lc.watchdogCommit]
  split_ifs with hd
  · exact emits_nil
  · refine ((syncBody_emits s _).mono fun o h => by simp [h]).andThen ?_
    split_ifs
    · exact (commitStored_emits (by simpa using hd) _ _ _ _ _).mono fun o h => by simp [h]
    · exact emits_nil

theorem watchdog_emits (s : Lc) (dt now : ℕ) (io : SyncIo) :
    Emits (Event.watchdog dt io).emits (s.watchdog now io) := by
  have hc (s : Lc) : Emits (Event.watchdog dt io).emits (s.watchdogCommit now io) :=
    (watchdogCommit_emits s now io).mono fun o h => by
      cases o <;> first | exact h | rfl
  rw [Lc.watchdog]
  split_ifs
  · exact emits_nil
  · dsimp only
    split
    · exact emits_nil
    · exact (emits_one rfl).andThen (hc _)
    · exact hc _

theorem realign_emits (s : Lc) (nowCommit nowObs : ℕ) (io : CommitIo) :
    Emits (Obs.isCommit .realign) (s.realign nowCommit nowObs io) := by
  rw [realign_eq]
  split_ifs with h
  · exact commitStored_emits (realignDue_dryRun h) _ _ _ _ _
  · exact emits_nil

theorem commitDecision_emits {s : Lc} (hd : s.cfg.dryRun = false) (snap : Selector)
    (nowCommit nowObs : ℕ) (io : RxIo) :
    Emits Obs.isAct (s.commitDecision snap nowCommit nowObs io) := by
  cases h : commitDefers s.cfg s.radioBody s.sel.currentMcs
  · rw [commitDecision_sent snap nowCommit nowObs io h hd]
    refine (emits_one rfl).andThen ?_
    split_ifs
    · exact ((adopt_emits _ _).mono fun o h => by
        cases o <;> first | rfl | cases h).andThen emits_nil
    · exact emits_one rfl
  · rw [commitDecision_deferred snap nowCommit nowObs io h]
    exact fun o ho => isAct_of_isCommit (by simp [preDrop_emits s _ _ _ .decision o ho])

theorem act_emits (s : Lc) (snap : Selector) (sd : SelectDecision) (nowCommit nowObs : ℕ)
    (io : RxIo) : Emits Obs.isAct (s.act snap sd nowCommit nowObs io) := by
  rw [Lc.act]
  split
  · exact (realign_emits s nowCommit nowObs io.commit).mono fun o h =>
      isAct_of_isCommit (by simp [h])
  · rw [Lc.decision]
    split_ifs with hd
    · exact emits_nil
    · refine ((syncBody_emits _ _).mono fun o h => by
        cases o <;> first | rfl | cases h).andThen ?_
      split_ifs
      · exact commitDecision_emits (by simpa using hd) _ _ _ _
      · exact emits_one rfl

theorem rxAnt_emits (s : Lc) (dt dt₁ dt₂ : ℕ) (r : RxAnt) (now nowCommit nowObs : ℕ) (io : RxIo) :
    Emits (Event.rxAnt dt dt₁ dt₂ r io).emits (s.rxAnt r now nowCommit nowObs io) := by
  rcases h : s.judged r now with _ | ⟨s', sd⟩
  · obtain ⟨scorer, hr⟩ := rxAnt_none h nowCommit nowObs io
    rw [hr]
    exact emits_nil
  · rw [rxAnt_some h]
    intro o ho
    rcases List.mem_cons.mp ho with rfl | ho
    · rfl
    · have hact := act_emits _ _ _ _ _ _ o ho
      cases o <;> first | exact hact | rfl

theorem dispatch_emits (s : Lc) (req : WcmdReq) (loop : Bool) (now : ℕ) (io : CmdIo) :
    Emits Obs.isOperator (s.dispatch req loop now io) := by
  intro o ho
  rcases wcmdDispatch_cases s.cfg s.wcmd s.air now io req loop with h | h
  · rcases h.obs o ho with ⟨k, n, sent, rfl⟩ | ⟨t, q, ok, rfl⟩ <;> rfl
  · obtain ⟨key, value, hobs, -, -⟩ := h.sent
    have hmem : o ∈ (wcmdDispatch s.cfg s.wcmd s.air req loop now io).obs := ho
    rw [hobs, List.mem_singleton] at hmem
    exact hmem ▸ rfl

theorem isSizeTick_of_isBudget {o : Obs} (h : o.isBudget) : o.isSizeTick := by
  cases o <;> first | rfl | cases h | skip
  rename_i who _ _
  cases who <;> first | rfl | cases h

theorem skipped_emits (s : Lc) (now : ℕ) (venc : Bool) :
    Emits Obs.isSizeTick (s.skipped now venc) := by
  rw [Lc.skipped]
  dsimp only
  split
  · split
    · intro o ho
      obtain ⟨req, rfl⟩ := vencApply_obs ho
      rfl
    · exact emits_nil
  · exact emits_nil

theorem sendFec_emits (s : Lc) (p : FecParams) (sent : Bool) :
    Emits Obs.isSizeTick (s.sendFec p sent) := by
  rw [Lc.sendFec]
  split
  · exact emits_nil
  · exact emits_one rfl

theorem cleanFrame_emits (s : Lc) (frameSize now : ℕ) (setFec venc : Bool) :
    Emits Obs.isSizeTick (s.cleanFrame frameSize now setFec venc) := by
  rw [Lc.cleanFrame]
  dsimp only
  split
  · exact emits_nil
  · exact (sendFec_emits _ _ _).andThen
      ((assertBitrate_emits _ _ _).mono fun _ => isSizeTick_of_isBudget)

theorem sizeTick_emits (s : Lc) (d : SidecarDgram) (skip : Bool) (now : ℕ) (setFec venc : Bool) :
    Emits Obs.isSizeTick (s.sizeTick d skip now setFec venc) := by
  rw [Lc.sizeTick]
  split_ifs
  · exact emits_nil
  · exact skipped_emits s now venc
  · exact cleanFrame_emits s d.frameSizeBytes now setFec venc

theorem sidecar_emits (s : Lc) (dt dt₁ : ℕ) (d : SidecarDgram) (now nowFec : ℕ)
    (setFec venc : Bool) :
    Emits (Event.sidecar dt dt₁ d setFec venc).emits (s.sidecar d now nowFec setFec venc) := by
  have hheard : Emits (Event.sidecar dt dt₁ d setFec venc).emits (s.heard d now) := by
    rw [Lc.heard, Lc.readTransport]
    split_ifs
    · exact emits_one rfl
    · exact emits_nil
  rw [Lc.sidecar]
  split
  · exact emits_nil
  · exact hheard.andThen ((sizeTick_emits _ _ _ _ _ _).mono fun o h => by
      cases o <;> first | exact h | rfl)

theorem radioPoll_emits (s : Lc) (dt now : ℕ) (getRadio venc : Bool) :
    Emits (Event.radioPoll dt getRadio venc).emits (s.radioPoll now getRadio venc) := by
  have hb (s : Lc) : Emits (Event.radioPoll dt getRadio venc).emits (s.assertBitrate now venc) :=
    (assertBitrate_emits s now venc).mono fun o h => by cases o <;> first | exact h | rfl
  rw [Lc.radioPoll]
  split_ifs
  · exact (emits_one rfl).andThen (hb _)
  · exact emits_nil.andThen (hb _)
  · exact emits_nil

theorem txStats_emits (s : Lc) (dt dt₁ : ℕ) (d : TxStats) (now nowDone : ℕ) (venc : Bool) :
    Emits (Event.txStats dt dt₁ d venc).emits (s.txStats d now nowDone venc) := by
  rw [Lc.txStats]
  split
  · exact emits_nil
  · split_ifs
    · exact emits_nil
    · exact (emits_one rfl).andThen ((assertBitrate_emits _ _ _).mono fun o h => by
        cases o <;> first | exact h | rfl)

theorem pendingTick_emits (s : Lc) (dt now : ℕ) (reply : SetReply) :
    Emits (Event.pendingTick dt reply).emits (s.pendingTick now reply) := by
  cases h : s.dropDue now
  · rw [pendingTick_idle h]
    exact emits_nil
  · obtain ⟨p, hp, hd⟩ := Option.any_eq_true _ _ |>.mp h
    rw [pendingTick_due hp (of_decide_eq_true hd)]
    exact emits_one rfl

theorem probeTick_emits (s : Lc) (dt now : ℕ) (acked : Bool) :
    Emits (Event.probeTick dt acked).emits (s.probeTick now acked) := by
  unfold Lc.probeTick
  generalize (if s.sel.currentMcs ≠ s.probeGateMcs then _ else s : Lc) = s'
  dsimp only
  split_ifs
  · exact emits_nil
  · exact emits_one rfl
  · exact emits_one rfl
  · exact emits_nil

/-- An event emits observations of its own kind only. -/
theorem handle_emits (s : Lc) (e : Event) : Emits e.emits (s.handle e) := by
  cases e with
  | pendingTick dt reply => exact pendingTick_emits s dt _ reply
  | probeTick dt acked => exact probeTick_emits s dt _ acked
  | subscribe dt =>
      simp only [Lc.handle, Lc.subscribe]
      split_ifs
      · exact emits_one rfl
      · exact emits_nil
  | watchdog dt io => exact watchdog_emits s dt _ io
  | radioPoll dt getRadio venc => exact radioPoll_emits s dt _ getRadio venc
  | httpSet qs => exact emits_nil
  | httpCmd dt key value io =>
      simp only [Lc.handle, Lc.httpCmd]
      split_ifs
      · exact emits_nil
      · exact dispatch_emits _ _ _ _ io
  | txStats dt dt₁ d venc => exact txStats_emits s dt dt₁ d _ _ venc
  | stale dt =>
      simp only [Lc.handle, Lc.stale]
      split_ifs <;> exact emits_nil
  | wcmd dt dt₁ dt₂ req loop io =>
      simp only [Lc.handle, Lc.wcmdFrame]
      split_ifs
      · exact emits_nil
      · exact dispatch_emits s req loop _ io
  | probeRec dt r =>
      simp only [Lc.handle, Lc.probeRec]
      split_ifs <;> exact emits_nil
  | rxAnt dt dt₁ dt₂ r io => exact rxAnt_emits s dt dt₁ dt₂ r _ _ _ io
  | sidecar dt dt₁ d setFec venc => exact sidecar_emits s dt dt₁ d _ _ setFec venc
  | external air => exact emits_nil

/-! ## Listening events -/

/-- The command side of the state. -/
structure Command where
  radioBody : RadioBody
  radioBodyValid : Bool
  pending : Option PendingMcsDown
  sel : Selector
  wcmd : WcmdState

/-- The command side of a state. -/
def Lc.command (s : Lc) : Command where
  radioBody := s.radioBody
  radioBodyValid := s.radioBodyValid
  pending := s.pending
  sel := s.sel
  wcmd := s.wcmd

/-- An observation of the command side. -/
def Obs.isCommand : Obs → Bool
  | .setRadio .. | .adopted _ | .operatorFec .. | .venc _ .operator .. | .preDrop .. | .queued ..
  | .selectorUpdate .. | .rolledBack | .failsafe .. => true
  | _ => false

/-- The events that drive no radio. -/
def Event.listens : Event → Bool
  | .probeTick .. | .subscribe _ | .radioPoll .. | .httpSet _ | .txStats .. | .stale _ | .probeRec ..
  | .sidecar .. | .external _ => true
  | _ => false

theorem isCommand_of_listens {e : Event} (h : e.listens) {o : Obs} (ho : e.emits o) :
    o.isCommand = false := by
  cases e <;> cases h
  all_goals cases o <;> first | rfl | cases ho | skip
  all_goals
    rename_i who _ _
    cases who <;> first | rfl | cases ho

@[simp] theorem assertBitrate_command (s : Lc) (now : ℕ) (answer : Bool) :
    (s.assertBitrate now answer).1.command = s.command := rfl

@[simp] theorem heard_command (s : Lc) (d : SidecarDgram) (now : ℕ) :
    (s.heard d now).1.command = s.command := by
  rw [Lc.heard, Lc.readTransport]
  split_ifs <;> rfl

@[simp] theorem sendFec_command (s : Lc) (p : FecParams) (sent : Bool) :
    (s.sendFec p sent).1.command = s.command := by
  rw [Lc.sendFec]
  split_ifs <;> rfl

theorem probeTick_command (s : Lc) (now : ℕ) (acked : Bool) :
    (s.probeTick now acked).1.command = s.command := by
  unfold Lc.probeTick
  generalize hs' : (if s.sel.currentMcs ≠ s.probeGateMcs then _ else s : Lc) = s'
  have hc : s'.command = s.command := by
    subst hs'
    split_ifs <;> rfl
  dsimp only
  split_ifs <;> exact hc

theorem skipped_command (s : Lc) (now : ℕ) (venc : Bool) :
    (s.skipped now venc).1.command = s.command := by
  rw [Lc.skipped]
  dsimp only
  split
  · split <;> rfl
  · rfl

theorem cleanFrame_command (s : Lc) (frameSize now : ℕ) (setFec venc : Bool) :
    (s.cleanFrame frameSize now setFec venc).1.command = s.command := by
  rw [Lc.cleanFrame]
  dsimp only
  split
  · rfl
  · simp only [andThen, assertBitrate_command, sendFec_command]
    rfl

theorem sidecar_command (s : Lc) (d : SidecarDgram) (now nowFec : ℕ) (setFec venc : Bool) :
    (s.sidecar d now nowFec setFec venc).1.command = s.command := by
  unfold Lc.sidecar Lc.sizeTick
  split
  · rfl
  · simp only [andThen]
    split_ifs
    · exact heard_command s d now
    · exact (skipped_command _ _ _).trans (heard_command s d now)
    · exact (cleanFrame_command _ _ _ _ _).trans (heard_command s d now)

/-- A listening event keeps the command side. -/
theorem handle_command {e : Event} (h : e.listens) (s : Lc) :
    (s.handle e).1.command = s.command := by
  cases e with
  | probeTick dt acked => exact probeTick_command s _ acked
  | subscribe dt =>
      simp only [Lc.handle, Lc.subscribe]
      split_ifs <;> rfl
  | radioPoll dt getRadio venc =>
      simp only [Lc.handle, Lc.radioPoll]
      split_ifs <;> rfl
  | httpSet qs => rfl
  | txStats dt dt₁ d venc =>
      simp only [Lc.handle, Lc.txStats]
      split
      · rfl
      · split_ifs <;> rfl
  | stale dt =>
      simp only [Lc.handle, Lc.stale]
      split_ifs <;> rfl
  | probeRec dt r =>
      simp only [Lc.handle, Lc.probeRec]
      split_ifs <;> rfl
  | sidecar dt dt₁ d setFec venc => exact sidecar_command s d _ _ setFec venc
  | external air => rfl
  | pendingTick | watchdog | httpCmd | wcmd | rxAnt => cases h

/-! ## Driving events -/

/-- The configuration and what the listening paths gather: no commit touches either. -/
structure Sensors where
  cfg : Config
  ring : HeadroomRing
  fps : FpsEst
  lastWrittenFec : ℤ × ℤ
  probe : ProbeState
  probeGateMcs : ℤ
  transport : TransportState
  bpSkipSinceUs : ℕ
  bpRecoverUs : ℕ
  lastStatsUs : ℕ
  statsWasStale : Bool

/-- That side of a state. -/
def Lc.sensors (s : Lc) : Sensors where
  cfg := s.cfg
  ring := s.ring
  fps := s.fps
  lastWrittenFec := s.lastWrittenFec
  probe := s.probe
  probeGateMcs := s.probeGateMcs
  transport := s.transport
  bpSkipSinceUs := s.bpSkipSinceUs
  bpRecoverUs := s.bpRecoverUs
  lastStatsUs := s.lastStatsUs
  statsWasStale := s.statsWasStale

@[simp] theorem adopt_sensors (s : Lc) (ok : Bool) : (s.adopt ok).1.sensors = s.sensors := by
  cases ok <;> rfl

@[simp] theorem syncBody_sensors (s : Lc) (ok : Bool) : (s.syncBody ok).1.sensors = s.sensors := by
  rw [Lc.syncBody]
  split_ifs
  · rfl
  · exact adopt_sensors s ok

@[simp] theorem adopt_sel (s : Lc) (ok : Bool) : (s.adopt ok).1.sel = s.sel := by
  cases ok <;> rfl

@[simp] theorem syncBody_sel (s : Lc) (ok : Bool) : (s.syncBody ok).1.sel = s.sel := by
  rw [Lc.syncBody]
  split_ifs
  · rfl
  · exact adopt_sel s ok

@[simp] theorem commitStored_sel (s : Lc) (m : ℤ) (who : SetBy) (now nowObs : ℕ) (io : CommitIo) :
    (s.commitStored m who now nowObs io).1.sel = s.sel := by
  rw [Lc.commitStored]
  dsimp only
  split_ifs <;> rfl

theorem watchdogCommit_sel (s : Lc) (now : ℕ) (io : SyncIo) :
    (s.watchdogCommit now io).1.sel = s.sel := by
  rw [Lc.watchdogCommit]
  simp only [andThen]
  split_ifs
  · rfl
  · exact (commitStored_sel _ _ _ _ _ _).trans (syncBody_sel s _)
  · exact syncBody_sel s _

@[simp] theorem commitStored_sensors (s : Lc) (m : ℤ) (who : SetBy) (now nowObs : ℕ)
    (io : CommitIo) : (s.commitStored m who now nowObs io).1.sensors = s.sensors := by
  rw [Lc.commitStored]
  dsimp only
  split_ifs <;> rfl

theorem commitDecision_sensors (s : Lc) (snap : Selector) (nowCommit nowObs : ℕ) (io : RxIo) :
    (s.commitDecision snap nowCommit nowObs io).1.sensors = s.sensors := by
  rw [Lc.commitDecision]
  simp only [andThen]
  split
  · rfl
  · rfl
  · exact adopt_sensors _ _

theorem decision_sensors (s : Lc) (snap : Selector) (nowCommit nowObs : ℕ) (io : RxIo) :
    (s.decision snap nowCommit nowObs io).1.sensors = s.sensors := by
  rw [Lc.decision]
  simp only [andThen]
  split_ifs
  · rfl
  · exact (commitDecision_sensors _ _ _ _ _).trans (syncBody_sensors s _)
  · exact syncBody_sensors s _

theorem act_sensors (s : Lc) (snap : Selector) (sd : SelectDecision) (nowCommit nowObs : ℕ)
    (io : RxIo) : (s.act snap sd nowCommit nowObs io).1.sensors = s.sensors := by
  rw [Lc.act]
  split
  · rw [realign_eq]
    split
    · exact commitStored_sensors _ _ _ _ _ _
    · rfl
  · exact decision_sensors _ _ _ _ _

theorem rxAnt_sensors (s : Lc) (r : RxAnt) (now nowCommit nowObs : ℕ) (io : RxIo) :
    (s.rxAnt r now nowCommit nowObs io).1.sensors = s.sensors := by
  rcases h : s.judged r now with _ | ⟨s', sd⟩
  · obtain ⟨scorer, hr⟩ := rxAnt_none h nowCommit nowObs io
    rw [hr]
    rfl
  · obtain ⟨scorer, score, -, hs'⟩ := judged_some h
    have hsame : s'.sensors = s.sensors := hs' ▸ rfl
    rw [rxAnt_some h]
    exact (act_sensors _ _ _ _ _ _).trans hsame

theorem watchdogCommit_sensors (s : Lc) (now : ℕ) (io : SyncIo) :
    (s.watchdogCommit now io).1.sensors = s.sensors := by
  rw [Lc.watchdogCommit]
  simp only [andThen]
  split_ifs
  · rfl
  · exact (commitStored_sensors _ _ _ _ _ _).trans (syncBody_sensors s _)
  · exact syncBody_sensors s _

theorem adoptOutstanding_sensors (s : Lc) (now nowObs : ℕ) :
    (s.adoptOutstanding now nowObs).sensors = s.sensors := by
  unfold Lc.adoptOutstanding Lc.adoptWritten
  split
  · rfl
  · dsimp only
    split_ifs <;> rfl

theorem adoptOutstanding_cfg (s : Lc) (now nowObs : ℕ) :
    (s.adoptOutstanding now nowObs).cfg = s.cfg :=
  congrArg Sensors.cfg (adoptOutstanding_sensors s now nowObs)

/-- The events that may write the configuration. -/
def Event.configures : Event → Bool
  | .httpSet _ | .httpCmd .. | .wcmd .. => true
  | _ => false

/-- A driving event that writes no configuration keeps both. -/
theorem handle_sensors {e : Event} (h : e.listens = false) (hc : e.configures = false) (s : Lc) :
    (s.handle e).1.sensors = s.sensors := by
  cases e with
  | pendingTick dt reply =>
      simp only [Lc.handle, Lc.pendingTick]
      split
      · rfl
      · split_ifs <;> rfl
  | watchdog dt io =>
      simp only [Lc.handle, Lc.watchdog]
      split_ifs
      · rfl
      · split
        · rfl
        · exact watchdogCommit_sensors _ _ _
        · exact watchdogCommit_sensors _ _ _
  | rxAnt dt dt₁ dt₂ r io => exact rxAnt_sensors s r _ _ _ io
  | httpCmd | wcmd => cases hc
  | _ => cases h

/-- A command writes the configuration at most. -/
theorem command_sensors {e : Event} (h : e.listens = false) (hc : e.configures = true) (s : Lc) :
    (s.handle e).1.sensors = { s.sensors with cfg := (s.handle e).1.cfg } := by
  cases e with
  | httpCmd dt key value io =>
      simp only [Lc.handle, Lc.httpCmd]
      split_ifs <;> rfl
  | wcmd dt dt₁ dt₂ req loop io =>
      simp only [Lc.handle, Lc.wcmdFrame]
      split_ifs
      · rfl
      · rw [adoptOutstanding_sensors, adoptOutstanding_cfg]
        rfl
  | httpSet => cases h
  | _ => cases hc

/-- What no sidecar datagram touches. -/
def Lc.steady (s : Lc) : Config × ProbeState × ℤ := (s.cfg, s.probe, s.probeGateMcs)

theorem heard_steady (s : Lc) (d : SidecarDgram) (now : ℕ) :
    (s.heard d now).1.steady = s.steady := by
  rw [Lc.heard, Lc.readTransport]
  split_ifs <;> rfl

theorem heard_cfg (s : Lc) (d : SidecarDgram) (now : ℕ) : (s.heard d now).1.cfg = s.cfg :=
  congrArg Prod.fst (heard_steady s d now)

theorem sizeTick_steady (s : Lc) (d : SidecarDgram) (skip : Bool) (now : ℕ) (setFec venc : Bool) :
    (s.sizeTick d skip now setFec venc).1.steady = s.steady := by
  rw [Lc.sizeTick]
  split
  · rfl
  · split
    · rw [Lc.skipped]
      dsimp only
      split
      · split <;> rfl
      · rfl
    · rw [Lc.cleanFrame]
      dsimp only
      split
      · rfl
      · rw [Lc.sendFec]
        simp only [andThen]
        split_ifs <;> rfl

theorem sidecar_steady (s : Lc) (d : SidecarDgram) (now nowFec : ℕ) (setFec venc : Bool) :
    (s.sidecar d now nowFec setFec venc).1.steady = s.steady := by
  rw [Lc.sidecar]
  split
  · rfl
  · exact (sizeTick_steady _ _ _ _ _ _).trans (heard_steady s d _)

/-- Only the operator writes the configuration. -/
theorem handle_cfg {e : Event} (hc : e.configures = false) (s : Lc) :
    (s.handle e).1.cfg = s.cfg := by
  cases e with
  | probeTick dt acked =>
      simp only [Lc.handle, Lc.probeTick]
      split_ifs <;> rfl
  | subscribe dt =>
      simp only [Lc.handle, Lc.subscribe]
      split_ifs <;> rfl
  | radioPoll dt getRadio venc =>
      simp only [Lc.handle, Lc.radioPoll]
      split_ifs <;> rfl
  | txStats dt dt₁ d venc =>
      simp only [Lc.handle, Lc.txStats]
      split
      · rfl
      · split_ifs <;> rfl
  | stale dt =>
      simp only [Lc.handle, Lc.stale]
      split_ifs <;> rfl
  | probeRec dt r =>
      simp only [Lc.handle, Lc.probeRec]
      split_ifs <;> rfl
  | sidecar dt dt₁ d setFec venc => exact congrArg Prod.fst (sidecar_steady s d _ _ setFec venc)
  | external air => rfl
  | pendingTick | watchdog | rxAnt => exact congrArg Sensors.cfg (handle_sensors rfl rfl s)
  | httpSet | httpCmd | wcmd => cases hc

end Waybeam.Vehicle
