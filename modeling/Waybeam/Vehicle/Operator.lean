/-
# `Waybeam.Vehicle.Operator` — the operator's radio settings under the law

A radio key is written to wfb_tx by the dispatch and reaches the cache by a hand-off:

    UDP     dispatch, radio_written, adopted by the same frame
    HTTP    dispatch, radio_written, adopted by the next UDP frame, whatever its key

From the write to the adoption the law sends bodies from before the write; and a read-back
in between is undone by the late adoption.  Over exactly the runs in which neither happens
the operator's fields survive every SET_RADIO of the law (`operator_radio_iff`).
-/
import Waybeam.Vehicle.Override

namespace Waybeam.Vehicle

/-! ## What is known of the operator's body -/

/-- The body of the operator's last acknowledged key, or the read-back that replaced it.  A
SET_RADIO of the law must carry its fields. -/
def operatorBody : Monitor Obs (Option RadioBody) where
  upd
    | _, .setRadio _ .operator body true => some body
    | known, .adopted body => known.map fun _ => body
    | known, _ => known
  ok
    | some k, .setRadio _ who body _ => !who.isLaw || decide (k.phy = body.phy)
    | _, _ => true

/-- An acknowledged radio key of the operator. -/
def Obs.isOperatorSet : Obs → Bool
  | .setRadio _ .operator _ true => true
  | _ => false

/-- A command frame, by UDP or by HTTP. -/
def Event.isCommandFrame : Event → Bool
  | .httpCmd .. | .wcmd .. => true
  | _ => false

/-- The law sends the fields that are known, and a frame that wrote no radio key keeps the
cache. -/
def RadioKept (sg : Lc × Option RadioBody) (e : Event) : Prop :=
  operatorBody.Accepts sg.2 (machine.step sg.1 e).2 ∧
    (e.isCommandFrame = true → (machine.step sg.1 e).2.any Obs.isOperatorSet = false →
      (machine.step sg.1 e).1.radioBody = sg.1.radioBody)

/-- A UDP frame that wrote no radio key itself: it adopts what is outstanding. -/
def Lc.adoptsOther (s : Lc) : Event → Bool
  | .wcmd dt _ _ req peerIsLoopback io =>
      s.rxAntOpen && !(s.dispatch req peerIsLoopback (s.clock + dt) io).2.any Obs.isOperatorSet
  | _ => false

/-- While a body is outstanding, the law sends nothing from a cache that lacks its fields,
unless a read-back replaced them, and no frame of another key adopts it. -/
def HandedOver (sg : Lc × Option RadioBody) (e : Event) : Prop :=
  ∀ wb, sg.1.wcmd.radioWritten = some wb →
    (sg.1.radioBodyValid = true → sg.1.lawSends e = true → sg.2.map RadioBody.phy = some wb.phy →
      wb.phy = sg.1.radioBody.phy) ∧
    (sg.1.adoptsOther e = true → wb = sg.1.radioBody)

/-- A queued drop has the cache's fields; what is known is in the cache or outstanding. -/
structure RadioInv (s : Lc) (known : Option RadioBody) : Prop where
  pending : ∀ p, s.pending = some p →
    s.radioBodyValid = true ∧ p.pendingRadio.phy = s.radioBody.phy
  fresh : ∀ k, known = some k → (s.radioBodyValid = true ∧ k.phy = s.radioBody.phy) ∨
    ∃ wb, s.wcmd.radioWritten = some wb ∧ k.phy = wb.phy

/-- The cache has the fields that are known. -/
def Agrees (known : Option RadioBody) (body : RadioBody) : Prop :=
  ∀ k, known = some k → k.phy = body.phy

theorem RadioInv.of_command {s s' : Lc} {known : Option RadioBody} (h : RadioInv s known)
    (hc : s'.command = s.command) : RadioInv s' known := by
  have hbody : s'.radioBody = s.radioBody := congrArg Command.radioBody hc
  have hvalid : s'.radioBodyValid = s.radioBodyValid := congrArg Command.radioBodyValid hc
  have hpending : s'.pending = s.pending := congrArg Command.pending hc
  have hwcmd : s'.wcmd = s.wcmd := congrArg Command.wcmd hc
  constructor
  · rw [hpending, hvalid, hbody]
    exact h.pending
  · rw [hvalid, hbody, hwcmd]
    exact h.fresh

/-- With nothing outstanding or the outstanding fields in the cache, the cache agrees. -/
theorem RadioInv.agrees {s : Lc} {known : Option RadioBody} (h : RadioInv s known)
    (hw : ∀ wb, s.wcmd.radioWritten = some wb → known.map RadioBody.phy = some wb.phy →
      wb.phy = s.radioBody.phy) : Agrees known s.radioBody := by
  intro k hk
  rcases h.fresh k hk with ⟨-, hphy⟩ | ⟨wb, hwb, hphy⟩
  · exact hphy
  · rw [hphy]
    refine hw wb hwb ?_
    rw [hk, ← hphy]
    rfl

/-! ## Observations -/

theorem operatorBody_ignores {o : Obs} (hs : ∀ now who body ok, o ≠ .setRadio now who body ok)
    (ha : ∀ body, o ≠ .adopted body) : operatorBody.Ignores o := by
  intro known
  cases o <;> first
    | exact absurd rfl (hs _ _ _ _)
    | exact absurd rfl (ha _)
    | exact ⟨by cases known <;> rfl, rfl⟩

theorem operatorBody_accepts_law {who : SetBy} (hw : who.isLaw = true) (known : Option RadioBody)
    (now : ℕ) (body : RadioBody) (ok : Bool) :
    operatorBody.ok known (.setRadio now who body ok) = true ↔ Agrees known body := by
  cases known with
  | none => exact iff_of_true rfl (fun _ h => nomatch h)
  | some k => simp [operatorBody, hw, Agrees]

theorem operatorBody_upd_law {who : SetBy} (hw : who.isLaw = true) (known : Option RadioBody)
    (now : ℕ) (body : RadioBody) (ok : Bool) :
    operatorBody.upd known (.setRadio now who body ok) = known := by
  cases who
  case operator => cases hw
  all_goals rfl

theorem preDrop_unknown (s : Lc) (m : ℤ) (now : ℕ) (answer : Bool) :
    ∀ o ∈ (s.preDrop m now answer).2 ++ [.queued now m], operatorBody.Ignores o := by
  intro o ho
  rcases List.mem_append.mp ho with ho | ho
  · rcases commitMcsPreDropBitrate_obs _ _ _ _ _ _ o ho with rfl | hb
    · exact operatorBody_ignores (by simp) (by simp)
    · refine operatorBody_ignores ?_ ?_
      all_goals
        intros
        rintro rfl
        exact absurd hb Bool.false_ne_true
  · rw [List.mem_singleton.mp ho]
    exact operatorBody_ignores (by simp) (by simp)

/-! ## Commits -/

/-- A path from a valid cache: the monitor accepts it iff a SET_RADIO that is sent finds the
known fields in the cache, and the invariant is kept. -/
structure Carries (s : Lc) (known : Option RadioBody) (sends : Bool) (r : Lc × List Obs) : Prop where
  accepts : operatorBody.Accepts known r.2 ↔ (sends = true → Agrees known s.radioBody)
  inv : RadioInv r.1 (operatorBody.after known r.2)

theorem Carries.wp {s : Lc} {known : Option RadioBody} {sends : Bool} {r : Lc × List Obs}
    (h : Carries s known sends r) (ha : Agrees known s.radioBody) :
    operatorBody.wp known r RadioInv :=
  ⟨h.accepts.mpr fun _ => ha, h.inv⟩

theorem Carries.of_ignored {s : Lc} {known : Option RadioBody} {r : Lc × List Obs}
    (ho : ∀ o ∈ r.2, operatorBody.Ignores o) (hinv : RadioInv r.1 known) :
    Carries s known false r where
  accepts := iff_of_true (Monitor.accepts_of_ignored ho) (fun h => nomatch h)
  inv := by
    rw [Monitor.after_of_ignored ho]
    exact hinv

/-- An observation the monitor ignores before a path. -/
theorem Carries.cons {s s' s'' : Lc} {known : Option RadioBody} {sends : Bool} {o : Obs}
    {os : List Obs} (h : Carries s' known sends (s'', os)) (ho : operatorBody.Ignores o)
    (hbody : s'.radioBody = s.radioBody) : Carries s known sends (s'', o :: os) where
  accepts := by
    rw [Monitor.accepts_cons, (ho known).2, ← hbody]
    exact (and_iff_right (ho known).1).trans h.accepts
  inv := by
    show RadioInv s'' (operatorBody.after (operatorBody.upd known o) os)
    rw [(ho known).2]
    exact h.inv

section Commit

variable {s : Lc} {known : Option RadioBody} (h : RadioInv s known)
include h

theorem sent_inv (m : ℤ) (now : ℕ) (reply : SetReply) : RadioInv (s.sentTo m now reply) known where
  pending _ hp := nomatch hp
  fresh := h.fresh

theorem readBack_inv (m : ℤ) (now nowObs : ℕ) (reply : SetReply) (ok : Bool) :
    RadioInv ((s.sentTo m now reply).readBack m ok nowObs).1
      (operatorBody.after known ((s.sentTo m now reply).readBack m ok nowObs).2) := by
  cases ok
  · exact { pending := fun _ hp => (nomatch hp), fresh := h.fresh }
  · refine { pending := fun _ hp => (nomatch hp), fresh := fun k hk => .inl ⟨rfl, ?_⟩ }
    obtain ⟨-, -, rfl⟩ := Option.map_eq_some_iff.mp hk
    rfl

variable (hv : s.radioBodyValid = true)
include hv

theorem deferred_inv (m : ℤ) (now : ℕ) (answer : Bool) : RadioInv (s.deferredTo m now answer) known where
  pending p hp := by
    obtain rfl : s.dropTo m now = p := Option.some.inj hp
    exact ⟨hv, rfl⟩
  fresh := h.fresh

theorem commitStored_carries {m : ℤ} {who : SetBy} (hw : who.isLaw = true)
    (hd : s.cfg.dryRun = false) (now nowObs : ℕ) (io : CommitIo) :
    Carries s known (!commitDefers s.cfg s.radioBody m) (s.commitStored m who now nowObs io) := by
  cases hdef : commitDefers s.cfg s.radioBody m
  · rw [commitStored_sent who now io hdef hd]
    constructor
    · rw [Monitor.accepts_cons, operatorBody_accepts_law hw]
      simp [Agrees]
    · rw [Monitor.after_cons, operatorBody_upd_law hw]
      split
      · -- the stored body differs from the cache in its MCS at most
        exact { pending := fun _ hp => (nomatch hp), fresh := h.fresh }
      · exact sent_inv h m now io.set
  · rw [commitStored_deferred who now io hdef]
    exact .of_ignored (preDrop_unknown s m now io.venc) (deferred_inv h hv m now io.venc)

theorem commitDecision_carries (hd : s.cfg.dryRun = false) (snap : Selector)
    (nowCommit nowObs : ℕ) (io : RxIo) :
    Carries s known (!commitDefers s.cfg s.radioBody s.sel.currentMcs)
      (s.commitDecision snap nowCommit nowObs io) := by
  cases hdef : commitDefers s.cfg s.radioBody s.sel.currentMcs
  · rw [commitDecision_sent snap nowCommit nowObs io hdef hd]
    have hset : (SetBy.decision).isLaw = true := rfl
    constructor
    · show operatorBody.ok known _ = true ∧ operatorBody.Accepts (operatorBody.upd known _) _ ↔ _
      rw [operatorBody_accepts_law hset, and_iff_left]
      · simp [Agrees]
      · split
        · cases io.readBack
          · trivial
          · exact ⟨by cases known <;> rfl, trivial⟩
        · exact ⟨by cases known <;> rfl, trivial⟩
    · show RadioInv _ (operatorBody.after (operatorBody.upd known _) _)
      rw [operatorBody_upd_law hset]
      split
      · exact readBack_inv h _ _ _ _ _
      · exact { pending := fun _ hp => (nomatch hp), fresh := h.fresh }
  · rw [commitDecision_deferred snap nowCommit nowObs io hdef]
    exact .of_ignored (preDrop_unknown s _ nowCommit io.commit.venc)
      (deferred_inv h hv _ nowCommit io.commit.venc)

end Commit

/-! ## Paths -/

/-- A path from any cache: valid, it carries the known fields; else it only sends what it
just read back. -/
structure Bears (s : Lc) (known : Option RadioBody) (sends : Bool) (r : Lc × List Obs) : Prop where
  valid : s.radioBodyValid = true → Carries s known sends r
  invalid : s.radioBodyValid = false → operatorBody.wp known r RadioInv

/-- A state that differs from `s` in neither cache nor hand-off bears the same. -/
theorem Bears.cons {s s' s'' : Lc} {known : Option RadioBody} {sends : Bool} {o : Obs}
    {os : List Obs} (h : Bears s' known sends (s'', os)) (ho : operatorBody.Ignores o)
    (hbody : s'.radioBody = s.radioBody) (hvalid : s'.radioBodyValid = s.radioBodyValid) :
    Bears s known sends (s'', o :: os) where
  valid hv := (h.valid (hvalid.trans hv)).cons ho hbody
  invalid hv := by
    obtain ⟨hacc, hinv⟩ := h.invalid (hvalid.trans hv)
    refine ⟨?_, ?_⟩
    · rw [Monitor.accepts_cons, (ho known).2]
      exact ⟨(ho known).1, hacc⟩
    · show RadioInv s'' (operatorBody.after (operatorBody.upd known o) os)
      rw [(ho known).2]
      exact hinv

theorem Bears.of_same {s s' : Lc} {known : Option RadioBody} {sends : Bool} {r : Lc × List Obs}
    (h : Bears s' known sends r) (hbody : s'.radioBody = s.radioBody)
    (hvalid : s'.radioBodyValid = s.radioBodyValid) : Bears s known sends r where
  valid hv := by
    have hc := h.valid (hvalid.trans hv)
    exact ⟨hbody ▸ hc.accepts, hc.inv⟩
  invalid hv := h.invalid (hvalid.trans hv)

theorem Bears.idle {s : Lc} {known : Option RadioBody} (h : RadioInv s known) :
    Bears s known false (s, []) where
  valid _ := .of_ignored (fun _ ho => nomatch ho) h
  invalid _ := wp_pure h

section Sync

variable {s : Lc} {known : Option RadioBody} (h : RadioInv s known)
include h

/-- A read-back into an invalid cache replaces what is known. -/
theorem synced_inv (hv : s.radioBodyValid = false) :
    RadioInv s.synced (known.map fun _ => s.air) where
  pending p hp := absurd (h.pending p hp).1 (by simp [hv])
  fresh k hk := by
    obtain ⟨-, -, rfl⟩ := Option.map_eq_some_iff.mp hk
    exact .inl ⟨rfl, rfl⟩

theorem sync_wp (hv : s.radioBodyValid = false) (ok : Bool) {k : Lc → Lc × List Obs}
    (hfail : operatorBody.wp known (k s) RadioInv)
    (hok : ∀ known, RadioInv s.synced known → Agrees known s.air →
      operatorBody.wp known (k s.synced) RadioInv) :
    operatorBody.wp known (andThen (s.syncBody ok) k) RadioInv := by
  rw [syncBody_of_invalid hv]
  cases ok
  · exact wp_andThen (wp_pure hfail)
  · refine wp_andThen (wp_emit (by cases known <;> rfl) ?_)
    refine hok _ (synced_inv h hv) ?_
    intro k hk
    obtain ⟨-, -, rfl⟩ := Option.map_eq_some_iff.mp hk
    rfl

theorem watchdogCommit_bears (now : ℕ) (io : SyncIo) :
    Bears s known (s.decisionSends io.getRadio) (s.watchdogCommit now io) := by
  rw [Lc.watchdogCommit, Lc.decisionSends]
  cases hd : s.cfg.dryRun
  · constructor
    · intro hv
      rw [syncBody_of_valid hv]
      simpa [hv] using commitStored_carries h hv (m := s.sel.currentMcs)
        (show SetBy.watchdog.isLaw = true from rfl) hd now now io.commit
    · intro hv
      rw [if_neg Bool.false_ne_true]
      refine sync_wp h hv _ ?_ fun known hinv ha => ?_
      · simpa [hv] using wp_pure h
      · have hcommit := commitStored_carries hinv rfl (m := s.sel.currentMcs)
          (show SetBy.watchdog.isLaw = true from rfl) hd now now io.commit
        exact hcommit.wp ha
  · exact .idle h

theorem decision_bears (snap : Selector) (nowCommit nowObs : ℕ) (io : RxIo) :
    Bears s known (s.decisionSends io.getRadio) (s.decision snap nowCommit nowObs io) := by
  rw [Lc.decision, Lc.decisionSends]
  cases hd : s.cfg.dryRun
  · constructor
    · intro hv
      rw [syncBody_of_valid hv]
      simpa [hv] using commitDecision_carries h hv hd snap nowCommit nowObs io
    · intro hv
      rw [if_neg Bool.false_ne_true]
      refine sync_wp h hv _ ?_ fun known hinv ha => ?_
      · have hkept : RadioInv { s with sel := snap } known := ⟨h.pending, h.fresh⟩
        have hback : operatorBody.wp known ({ s with sel := snap }, [.rolledBack]) RadioInv :=
          wp_emit (by cases known <;> rfl) hkept
        simpa [hv] using hback
      · exact (commitDecision_carries (s := s.synced) hinv rfl hd snap nowCommit nowObs io).wp ha
  · exact .idle h

theorem watchdog_bears (now : ℕ) (io : SyncIo) :
    Bears s known (s.watchdogSends now io.getRadio) (s.watchdog now io) := by
  rw [Lc.watchdogSends]
  cases hdue : s.watchdogDue now
  · rw [watchdog_idle hdue]
    exact .idle h
  · have hw : RadioInv (s.watched now) known := ⟨h.pending, h.fresh⟩
    have hcommit := watchdogCommit_bears hw now io
    rw [watchdog_due hdue]
    cases s.watchdogDecision now
    case none => exact .of_same (.idle hw) rfl rfl
    case failsafe => exact hcommit.cons (operatorBody_ignores (by simp) (by simp)) rfl rfl
    all_goals exact .of_same hcommit rfl rfl

theorem act_bears (snap : Selector) (sd : SelectDecision) (nowCommit nowObs : ℕ) (io : RxIo) :
    Bears s known (if sd = .none then s.realignSends else s.decisionSends io.getRadio)
      (s.act snap sd nowCommit nowObs io) := by
  rw [Lc.act]
  split
  · rw [realign_eq]
    rw [Lc.realignSends]
    cases hdue : s.realignDue
    · exact .idle h
    · have hv : s.radioBodyValid = true := by
        simp only [Lc.realignDue, Bool.and_eq_true] at hdue
        exact hdue.1.1.1.2
      exact ⟨fun _ => commitStored_carries h hv rfl (realignDue_dryRun hdue) _ _ _,
        fun hi => absurd hv (by simp [hi])⟩
  · exact decision_bears h snap nowCommit nowObs io

theorem rxAnt_bears (r : RxAnt) (now nowCommit nowObs : ℕ) (io : RxIo) :
    Bears s known (s.recordSends r now io.getRadio) (s.rxAnt r now nowCommit nowObs io) := by
  rw [Lc.recordSends]
  rcases hj : s.judged r now with _ | ⟨s', sd⟩
  · obtain ⟨scorer, hr⟩ := rxAnt_none hj nowCommit nowObs io
    have hkept : RadioInv { s with scorer } known := ⟨h.pending, h.fresh⟩
    rw [hr]
    exact .of_same (.idle hkept) rfl rfl
  · obtain ⟨scorer, score, -, hs'⟩ := judged_some hj
    have hkept : RadioInv s' known := by
      rw [hs']
      exact ⟨h.pending, h.fresh⟩
    rw [rxAnt_some hj]
    exact (act_bears hkept s.sel sd nowCommit nowObs io).cons (operatorBody_ignores (by simp) (by simp))
      (by rw [hs']) (by rw [hs'])

/-- A due drop is sent with the fields of the cache. -/
theorem pendingTick_bears (now : ℕ) (reply : SetReply) :
    Bears s known (s.dropDue now) (s.pendingTick now reply) := by
  cases hdue : s.dropDue now
  · rw [pendingTick_idle hdue]
    exact .idle h
  · obtain ⟨p, hp, hd⟩ := Option.any_eq_true _ _ |>.mp hdue
    obtain ⟨hv, hphy⟩ := h.pending p hp
    have hset : (SetBy.pendingTick).isLaw = true := rfl
    refine ⟨fun _ => ?_, fun hi => absurd hv (by simp [hi])⟩
    rw [pendingTick_due hp (of_decide_eq_true hd)]
    constructor
    · rw [Monitor.accepts_cons, operatorBody_accepts_law hset]
      simp [Agrees, hphy]
    · rw [Monitor.after_cons, operatorBody_upd_law hset]
      rw [Lc.dropSent]
      dsimp only
      split
      · refine { pending := fun _ hp => (nomatch hp), fresh := fun k hk => ?_ }
        rcases h.fresh k hk with ⟨-, hk⟩ | hk
        · exact .inl ⟨hv, hk.trans hphy.symm⟩
        · exact .inr hk
      · refine { pending := fun q hq => ?_, fresh := h.fresh }
        obtain rfl := Option.some.inj hq
        exact ⟨hv, hphy⟩

end Sync

/-! ## Commands -/

/-- A dispatch that wrote no radio key keeps what is known and what is outstanding. -/
structure Unwritten (s : Lc) (known : Option RadioBody) (r : Lc × List Obs) : Prop where
  unset : r.2.any Obs.isOperatorSet = false
  known : operatorBody.after known r.2 = known
  outstanding : r.1.wcmd.radioWritten = s.wcmd.radioWritten

/-- A dispatch that wrote one leaves its body outstanding. -/
structure Written (known : Option RadioBody) (r : Lc × List Obs) (body : RadioBody) : Prop where
  set : r.2.any Obs.isOperatorSet = true
  known : operatorBody.after known r.2 = some body
  outstanding : r.1.wcmd.radioWritten = some body

theorem dispatch_radio (s : Lc) (known : Option RadioBody) (req : WcmdReq) (loop : Bool) (now : ℕ)
    (io : CmdIo) :
    operatorBody.Accepts known (s.dispatch req loop now io).2 ∧
      (Unwritten s known (s.dispatch req loop now io) ∨
        ∃ body, Written known (s.dispatch req loop now io) body) := by
  rcases wcmdDispatch_cases s.cfg s.wcmd s.air now io req loop with hq | hw
  · have hign : ∀ o ∈ (s.dispatch req loop now io).2, operatorBody.Ignores o := by
      intro o ho
      rcases hq.obs o ho with ⟨k, n, sent, rfl⟩ | ⟨t, q, ok, rfl⟩
      all_goals exact operatorBody_ignores (by simp) (by simp)
    refine ⟨Monitor.accepts_of_ignored hign, .inl ⟨?_, Monitor.after_of_ignored hign, hq.radioWritten⟩⟩
    rw [List.any_eq_false]
    intro o ho
    rcases hq.obs o ho with ⟨k, n, sent, rfl⟩ | ⟨t, q, ok, rfl⟩ <;> exact Bool.false_ne_true
  · obtain ⟨key, value, hobs, -, hwritten⟩ := hw.sent
    have hobs' : (s.dispatch req loop now io).2 = _ := hobs
    have hout : (s.dispatch req loop now io).1.wcmd.radioWritten = _ := hwritten
    refine ⟨?_, ?_⟩
    · rw [hobs']
      exact ⟨by cases known <;> rfl, trivial⟩
    · by_cases ha : io.setRadio = .acked
      · rw [if_pos ha] at hout
        exact .inr ⟨_, by rw [hobs', ha]; rfl, by rw [hobs', ha]; rfl, hout⟩
      · rw [if_neg ha] at hout
        exact .inl ⟨by rw [hobs', decide_eq_false ha]; rfl, by rw [hobs', decide_eq_false ha]; rfl, hout⟩

theorem adoptWritten_radioBody (s : Lc) (wb : RadioBody) (now nowObs : ℕ) :
    (s.adoptWritten wb now nowObs).radioBody = wb := by
  rw [Lc.adoptWritten]
  dsimp only
  split <;> rfl

/-- An adoption whose fields are the known ones makes the cache agree. -/
theorem adoptWritten_inv (s : Lc) {known : Option RadioBody} {wb : RadioBody}
    (ha : Agrees known wb) (now nowObs : ℕ) : RadioInv (s.adoptWritten wb now nowObs) known := by
  have hpending : ∀ p, s.pending.map (fun p => p.carry wb) = some p →
      true = true ∧ p.pendingRadio.phy = wb.phy := by
    intro p hp
    obtain ⟨q, -, rfl⟩ := Option.map_eq_some_iff.mp hp
    exact ⟨rfl, rfl⟩
  rw [Lc.adoptWritten]
  dsimp only
  split
  all_goals exact { pending := hpending, fresh := fun k hk => .inl ⟨rfl, ha k hk⟩ }

/-- A UDP frame of another key adopts what is outstanding: the cache is kept iff that is what
it holds already. -/
theorem wcmdFrame_kept (s : Lc) (req : WcmdReq) (loop : Bool) (now nowAdopt nowObs : ℕ) (io : CmdIo) :
    ((s.wcmdFrame req loop now nowAdopt nowObs io).2.any Obs.isOperatorSet = false →
        (s.wcmdFrame req loop now nowAdopt nowObs io).1.radioBody = s.radioBody) ↔
      ∀ wb, s.wcmd.radioWritten = some wb →
        (s.rxAntOpen && !(s.dispatch req loop now io).2.any Obs.isOperatorSet) = true →
          wb = s.radioBody := by
  rw [Lc.wcmdFrame]
  cases s.rxAntOpen
  · simp
  simp only [Bool.not_true, Bool.false_eq_true, if_false, Bool.true_and, Bool.not_eq_true']
  rcases (dispatch_radio s none req loop now io).2 with hu | ⟨body, hw⟩
  · have hbody : ((s.dispatch req loop now io).1.adoptOutstanding nowAdopt nowObs).radioBody
        = (s.wcmd.radioWritten).getD s.radioBody := by
      rw [Lc.adoptOutstanding]
      rw [hu.outstanding]
      cases s.wcmd.radioWritten with
      | none => rfl
      | some wb => exact adoptWritten_radioBody _ wb nowAdopt nowObs
    rw [hbody]
    simp only [hu.unset, true_imp_iff]
    cases s.wcmd.radioWritten with
    | none => simp
    | some wb => simp
  · simp [hw.set]

section Frames

variable {s : Lc} {known : Option RadioBody} (h : RadioInv s known)
include h

/-- The dispatch of a frame keeps the invariant, its adoption apart. -/
theorem dispatch_inv (req : WcmdReq) (loop : Bool) (now : ℕ) (io : CmdIo) :
    RadioInv (s.dispatch req loop now io).1
      (operatorBody.after known (s.dispatch req loop now io).2) := by
  refine { pending := h.pending, fresh := fun k hk => ?_ }
  rcases (dispatch_radio s known req loop now io).2 with hu | ⟨body, hw⟩
  · rw [hu.known] at hk
    rw [hu.outstanding]
    exact h.fresh k hk
  · rw [hw.known] at hk
    obtain rfl := Option.some.inj hk
    exact .inr ⟨body, hw.outstanding, rfl⟩

/-- Where it is kept the invariant is. -/
theorem wcmdFrame_inv (req : WcmdReq) (loop : Bool) (now nowAdopt nowObs : ℕ) (io : CmdIo)
    (hkept : ∀ wb, s.wcmd.radioWritten = some wb →
      (s.rxAntOpen && !(s.dispatch req loop now io).2.any Obs.isOperatorSet) = true →
        wb = s.radioBody) :
    RadioInv (s.wcmdFrame req loop now nowAdopt nowObs io).1
      (operatorBody.after known (s.wcmdFrame req loop now nowAdopt nowObs io).2) := by
  have hinv := dispatch_inv h req loop now io
  rw [Lc.wcmdFrame]
  cases hopen : s.rxAntOpen
  · exact h
  simp only [Bool.not_true, Bool.false_eq_true, if_false]
  rw [Lc.adoptOutstanding]
  rcases (dispatch_radio s known req loop now io).2 with hu | ⟨body, hw⟩
  · rw [hu.outstanding]
    cases hwb : s.wcmd.radioWritten with
    | none => exact hinv
    | some wb =>
        refine adoptWritten_inv _ (fun k hk => ?_) nowAdopt nowObs
        have hsame := hkept wb hwb (by simp [hopen, hu.unset])
        rw [hu.known] at hk
        rcases h.fresh k hk with ⟨-, hphy⟩ | ⟨wb', hwb', hphy⟩
        · rw [hphy, hsame]
        · rw [hwb] at hwb'
          exact (Option.some.inj hwb') ▸ hphy
  · rw [hw.outstanding, hw.known]
    exact adoptWritten_inv _ (fun k hk => by rw [Option.some.inj hk]) nowAdopt nowObs

end Frames

/-! ## Runs -/

/-- The monitor accepts a path iff, while a body is outstanding, nothing is sent without its
fields. -/
theorem Bears.accepts_iff {s : Lc} {known : Option RadioBody} {sends : Bool} {r : Lc × List Obs}
    (hb : Bears s known sends r) (h : RadioInv s known) :
    operatorBody.Accepts known r.2 ↔ ∀ wb, s.wcmd.radioWritten = some wb →
      s.radioBodyValid = true → sends = true → known.map RadioBody.phy = some wb.phy →
        wb.phy = s.radioBody.phy := by
  cases hv : s.radioBodyValid
  · exact iff_of_true (hb.invalid hv).1 (fun _ _ h => nomatch h)
  · rw [(hb.valid hv).accepts]
    constructor
    · intro ha wb _ _ hs hk
      obtain ⟨k, hk, hphy⟩ := Option.map_eq_some_iff.mp hk
      exact hphy.symm.trans (ha hs k hk)
    · intro hw hs
      exact h.agrees fun wb hwb hk => hw wb hwb rfl hs hk

theorem Bears.inv {s : Lc} {known : Option RadioBody} {sends : Bool} {r : Lc × List Obs}
    (hb : Bears s known sends r) : RadioInv r.1 (operatorBody.after known r.2) := by
  cases hv : s.radioBodyValid
  · exact (hb.invalid hv).2
  · exact (hb.valid hv).inv

section Step

variable {s : Lc} {known : Option RadioBody} (h : RadioInv s known)
include h

/-- A path of the law. -/
theorem law_step {e : Event} (hb : Bears s known (s.lawSends e) (s.handle e))
    (hframe : e.isCommandFrame = false) (hother : s.adoptsOther e = false) :
    (RadioKept (s, known) e ↔ HandedOver (s, known) e) ∧
      (HandedOver (s, known) e →
        RadioInv (s.handle e).1 (operatorBody.after known (s.handle e).2)) := by
  refine ⟨?_, fun _ => hb.inv⟩
  rw [RadioKept, HandedOver]
  simp only [hframe, hother, Bool.false_eq_true, false_imp_iff, and_true]
  exact hb.accepts_iff h

/-- A listening event. -/
theorem listen_step {e : Event} (hl : e.listens = true) :
    (RadioKept (s, known) e ↔ HandedOver (s, known) e) ∧
      (HandedOver (s, known) e →
        RadioInv (s.handle e).1 (operatorBody.after known (s.handle e).2)) := by
  have hign : ∀ o ∈ (s.handle e).2, operatorBody.Ignores o := by
    intro o ho
    have hkind := isCommand_of_listens hl (handle_emits s e o ho)
    refine operatorBody_ignores ?_ ?_
    all_goals
      intros
      rintro rfl
      exact absurd hkind.symm Bool.false_ne_true
  have hlaw : s.lawSends e = false := by cases e <;> first | rfl | cases hl
  have hinv := h.of_command (handle_command hl s)
  refine law_step h ?_ (by cases e <;> first | rfl | cases hl) (by cases e <;> first | rfl | cases hl)
  rw [hlaw]
  refine ⟨fun _ => .of_ignored hign hinv, fun _ => ⟨Monitor.accepts_of_ignored hign, ?_⟩⟩
  rw [Monitor.after_of_ignored hign]
  exact hinv

theorem step_radio (e : Event) :
    (RadioKept (s, known) e ↔ HandedOver (s, known) e) ∧
      (HandedOver (s, known) e →
        RadioInv (s.handle e).1 (operatorBody.after known (s.handle e).2)) := by
  cases e with
  | pendingTick dt reply => exact law_step h (pendingTick_bears h _ reply) rfl rfl
  | watchdog dt io => exact law_step h (watchdog_bears h _ io) rfl rfl
  | rxAnt dt dt₁ dt₂ r io => exact law_step h (rxAnt_bears h r _ _ _ io) rfl rfl
  | httpCmd dt key value io =>
      have hkept : RadioKept (s, known) (.httpCmd dt key value io) ∧
          RadioInv (s.httpCmd key value (s.clock + dt) io).1
            (operatorBody.after known (s.httpCmd key value (s.clock + dt) io).2) := by
        show (operatorBody.Accepts known (s.httpCmd key value (s.clock + dt) io).2 ∧
          (true = true → _ → (s.httpCmd key value (s.clock + dt) io).1.radioBody = _)) ∧ _
        rw [Lc.httpCmd]
        split
        · exact ⟨⟨trivial, fun _ _ => rfl⟩, h⟩
        · have hs : RadioInv { s with localCmdSeq := s.localCmdSeq + 1 } known := ⟨h.pending, h.fresh⟩
          exact ⟨⟨(dispatch_radio _ known _ _ _ io).1, fun _ _ => rfl⟩, dispatch_inv hs _ _ _ io⟩
      refine ⟨iff_of_true hkept.1 ?_, fun _ => hkept.2⟩
      intro wb _
      exact ⟨fun _ hlaw => absurd hlaw Bool.false_ne_true, fun ho => absurd ho Bool.false_ne_true⟩
  | wcmd dt dt₁ dt₂ req loop io =>
      have hacc : operatorBody.Accepts known (s.handle (.wcmd dt dt₁ dt₂ req loop io)).2 := by
        show operatorBody.Accepts known (s.wcmdFrame req loop _ _ _ io).2
        rw [Lc.wcmdFrame]
        split
        · trivial
        · exact (dispatch_radio s known req loop _ io).1
      have hkept := wcmdFrame_kept s req loop (s.clock + dt) (s.clock + dt + dt₁)
        (s.clock + dt + dt₁ + dt₂) io
      have hiff : HandedOver (s, known) (.wcmd dt dt₁ dt₂ req loop io) ↔
          ∀ wb, s.wcmd.radioWritten = some wb →
            (s.rxAntOpen && !(s.dispatch req loop (s.clock + dt) io).2.any Obs.isOperatorSet) = true →
              wb = s.radioBody := by
        refine forall_congr' fun wb => imp_congr_right fun _ => and_iff_right ?_
        exact fun _ hlaw => absurd hlaw Bool.false_ne_true
      refine ⟨?_, fun ho => wcmdFrame_inv h req loop _ _ _ io (hiff.mp ho)⟩
      rw [hiff, ← hkept]
      exact ⟨fun hr => hr.2 rfl, fun hr => ⟨hacc, fun _ => hr⟩⟩
  | probeTick | subscribe | radioPoll | httpSet | txStats | stale | probeRec | sidecar | external =>
      exact listen_step h rfl

end Step

theorem Boot.init_radio (b : Boot) : RadioInv b.init none where
  pending p hp := by
    rw [Boot.init] at hp
    dsimp only at hp
    split at hp <;> cases hp
  fresh _ hk := nomatch hk

/-- The operator's fields survive every SET_RADIO of the law, and no frame of another key
changes the cache, over exactly the runs in which every outstanding body is handed over
first. -/
theorem operator_radio_iff (b : Boot) (es : List Event) :
    (machine.watch operatorBody).Meets RadioKept (b.init, none) es ↔
      (machine.watch operatorBody).Meets HandedOver (b.init, none) es :=
  Machine.Meets.iff_of_inv
    (fun _ e h _ hq =>
      have hinv := (step_radio h e).2 hq
      ⟨hinv.pending, hinv.fresh⟩)
    (fun _ e h _ => (step_radio h e).1) b.init_radio (Machine.Meets.of_forall fun _ _ => trivial)

/-- The console widens the channel, the next record drops the rung with the old body. -/
theorem operator_radio_broken :
    ¬∀ (b : Boot) (is : List Iter),
      (machine.watch operatorBody).Meets RadioKept (b.init, none) (loopRun is) := by
  intro h
  have hrun := h (.withDefaults { bandwidth := 20, mcsIndex := 3 }) [
    { dt := 1000, served := [.httpCmd 0 8 40 {}] },
    { dt := 1000, served := [.rxAnt 0 0 0 RxAnt.clean {}] },
    { dt := 600000 }]
  have hacc := Machine.Meets.mono (fun _ _ hk => hk.1) hrun
  exact absurd hacc (by decide +kernel)

end Waybeam.Vehicle
