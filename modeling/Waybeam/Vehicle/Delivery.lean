/-
# `Waybeam.Vehicle.Delivery` — the failsafe on its way to the radio

SD_FAILSAFE is an edge of the selector: it is committed once, and from then on the watchdog
is content.  What brings the rung to wfb_tx is the commit that follows the edge:

    no body to send            nothing          the selector stands at the rung
    sent at once, acked        delivered
    sent at once, not acked    nothing          the selector stands, the next realign retries
    deferred                   a queued drop    the pending tick retries until it is acked

So a failsafe that got its body, and was not refused on the spot, is delivered or queued at
every later tick of the watchdog (`failsafe_delivered`); one that was refused waits for the
next record, which finds the realign due.
-/
import Waybeam.Vehicle.Ranges

namespace Waybeam.Vehicle

/-! ## What is owed -/

/-- The rung of the watchdog's latest commit since a failsafe, and whether a SET_RADIO
carrying it was acknowledged since. -/
structure Owed where
  mcs : ℤ
  acked : Bool

/-- A commit of the watchdog takes the debt over; an acknowledged SET_RADIO of the rung pays
it. -/
def Owed.upd (w : Owed) : Obs → Owed
  | .queued _ mcs => ⟨mcs, false⟩
  | .setRadio _ who body acked =>
      if who = .watchdog then ⟨body.mcs, acked⟩
      else { w with acked := w.acked || (acked && decide (body.mcs = w.mcs)) }
  | _ => w

/-- Owed from the failsafe on, until the law sees a record. -/
def owedMonitor : Monitor Obs (Option Owed) where
  upd
    | _, .selectorUpdate .. => none
    | _, .failsafe _ mcs _ => some ⟨mcs, false⟩
    | g, o => g.map (Owed.upd · o)
  ok _ _ := true

/-- A SET_RADIO carrying `mcs`. -/
def Obs.carries (mcs : ℤ) : Obs → Bool
  | .setRadio _ _ body _ => decide (body.mcs = mcs)
  | _ => false

/-- At a tick of the watchdog what is owed was acknowledged, is queued, or is sent. -/
def Delivered (sg : Lc × Option Owed) : Event → Bool
  | .watchdog dt io =>
      !sg.1.watchdogDue (sg.1.clock + dt) || sg.2.all fun w =>
        w.acked || sg.1.coveredByPending w.mcs ||
          (machine.step sg.1 (.watchdog dt io)).2.any (Obs.carries w.mcs)
  | _ => true

/-- A commit of the watchdog has a body to send and, unless it is deferred, gets its ack. -/
def Lc.serves (s : Lc) (now : ℕ) (io : SyncIo) : Bool :=
  (s.radioBodyValid || io.getRadio) &&
    (commitDefers s.cfg (if s.radioBodyValid then s.radioBody else s.air)
        (s.watched now).sel.currentMcs ||
      decide (io.commit.set = .acked))

/-- The failsafe, and every later commit of the watchdog while it is owed, is served. -/
def Served (sg : Lc × Option Owed) : Event → Bool
  | .watchdog dt io =>
      let sd := sg.1.watchdogDecision (sg.1.clock + dt)
      !(sg.1.watchdogDue (sg.1.clock + dt) &&
          (decide (sd = .failsafe) || (decide (sd ≠ .none) && sg.2.isSome))) ||
        sg.1.serves (sg.1.clock + dt) io
  | _ => true

/-- What is owed was acknowledged or is queued. -/
structure OwedInv (s : Lc) (g : Option Owed) : Prop where
  inRange : s.cfg.InRange
  underway : ∀ w, g = some w → w.acked = true ∨
    ∃ p, s.pending = some p ∧ p.targetMcs = w.mcs ∧ p.pendingRadio.mcs = w.mcs

/-! ## The monitor -/

/-- Without a failsafe nothing is owed. -/
theorem owed_none {os : List Obs} (h : ∀ o ∈ os, ∀ now mcs t, o ≠ .failsafe now mcs t) :
    owedMonitor.after none os = none := by
  induction os with
  | nil => rfl
  | cons o os ih =>
      have ho := h o List.mem_cons_self
      have hnone : owedMonitor.upd none o = none := by
        cases o <;> first | rfl | exact absurd rfl (ho _ _ _)
      rw [Monitor.after_cons, hnone]
      exact ih fun o ho => h o (List.mem_cons_of_mem _ ho)

/-- An acknowledgement never goes away but by another commit. -/
structure Owed.Le (g g' : Option Owed) : Prop where
  of_some : ∀ w', g' = some w' → ∃ w, g = some w ∧ w'.mcs = w.mcs ∧ (w.acked = true → w'.acked = true)

theorem Owed.Le.refl (g : Option Owed) : Owed.Le g g := ⟨fun w h => ⟨w, h, rfl, id⟩⟩

theorem Owed.Le.trans {g g' g'' : Option Owed} (h : Owed.Le g g') (h' : Owed.Le g' g'') :
    Owed.Le g g'' where
  of_some w'' hw'' := by
    obtain ⟨w', hw', hmcs', hack'⟩ := h'.of_some w'' hw''
    obtain ⟨w, hw, hmcs, hack⟩ := h.of_some w' hw'
    exact ⟨w, hw, hmcs'.trans hmcs, fun ha => hack' (hack ha)⟩

/-- The observations that make no new commit of the watchdog. -/
def Obs.owesNothing : Obs → Bool
  | .selectorUpdate .. | .failsafe .. | .queued .. | .setRadio _ .watchdog _ _ => false
  | _ => true

theorem owed_upd_le {o : Obs} (ho : o.owesNothing = true) (g : Option Owed) :
    Owed.Le g (owedMonitor.upd g o) := by
  have hmap : owedMonitor.upd g o = g.map (Owed.upd · o) := by
    cases o <;> first | rfl | exact absurd ho Bool.false_ne_true
  rw [hmap]
  constructor
  intro w' hw'
  obtain ⟨w, rfl, rfl⟩ := Option.map_eq_some_iff.mp hw'
  refine ⟨w, rfl, ?_⟩
  cases o
  case setRadio now who body ok =>
    have hwho : who ≠ .watchdog := by
      rintro rfl
      exact absurd ho Bool.false_ne_true
    simp only [Owed.upd, if_neg hwho]
    exact ⟨trivial, fun ha => by simp [ha]⟩
  case queued => exact absurd ho Bool.false_ne_true
  all_goals exact ⟨rfl, id⟩

theorem owed_after_le {os : List Obs} (h : ∀ o ∈ os, o.owesNothing = true) (g : Option Owed) :
    Owed.Le g (owedMonitor.after g os) := by
  induction os generalizing g with
  | nil => exact .refl _
  | cons o os ih =>
      have hhead := owed_upd_le (h o List.mem_cons_self) g
      exact hhead.trans (ih (fun o ho => h o (List.mem_cons_of_mem _ ho)) _)

/-- What stays queued stays underway. -/
theorem OwedInv.of_le {s s' : Lc} {g g' : Option Owed} (h : OwedInv s g) (hle : Owed.Le g g')
    (hc : s'.cfg.InRange)
    (hp : ∀ p, s.pending = some p → ∃ p', s'.pending = some p' ∧ p'.targetMcs = p.targetMcs ∧
      p'.pendingRadio.mcs = p.pendingRadio.mcs) : OwedInv s' g' where
  inRange := hc
  underway w' hw' := by
    obtain ⟨w, hw, hmcs, hack⟩ := hle.of_some w' hw'
    rcases h.underway w hw with ha | ⟨p, hpend, htarget, hbody⟩
    · exact .inl (hack ha)
    · obtain ⟨p', hp', htarget', hbody'⟩ := hp p hpend
      rw [hmcs]
      exact .inr ⟨p', hp', htarget'.trans htarget, hbody'.trans hbody⟩

theorem OwedInv.none_owed {s : Lc} (hc : s.cfg.InRange) : OwedInv s none :=
  ⟨hc, fun _ h => nomatch h⟩

/-! ## Steps -/

theorem owed_kept {o : Obs} (h : o.isAdopted = true ∨ o.isBudget = true ∨ ∃ now m, o = .preDrop now m)
    (g : Option Owed) : owedMonitor.upd g o = g := by
  rcases h with h | h | ⟨now, m, rfl⟩
  · cases o <;> first | exact absurd h Bool.false_ne_true | exact Option.map_id'
  · cases o <;> first | exact absurd h Bool.false_ne_true | exact Option.map_id'
  · exact Option.map_id'

/-- A commit of the watchdog that is deferred or acknowledged is underway. -/
theorem commitStored_owed {s : Lc} {m : ℤ} (h0 : 0 ≤ m) (h11 : m ≤ 11) (hc : s.cfg.InRange)
    (hd : s.cfg.dryRun = false) (w : Owed) (now nowObs : ℕ) (io : CommitIo)
    (hs : commitDefers s.cfg s.radioBody m = true ∨ io.set = .acked) :
    OwedInv (s.commitStored m .watchdog now nowObs io).1
      (owedMonitor.after (some w) (s.commitStored m .watchdog now nowObs io).2) := by
  have hbody : (s.radioBody.withMcs m).mcs = m := RadioBody.mcs_withMcs _ h0 (by omega)
  cases hdef : commitDefers s.cfg s.radioBody m
  · have hack : io.set = .acked := by simpa [hdef] using hs
    rw [commitStored_sent _ now io hdef hd, hack]
    refine ⟨hc, ?_⟩
    intro w' hw'
    obtain rfl := Option.some.inj hw'
    exact .inl rfl
  · rw [commitStored_deferred _ now io hdef]
    refine ⟨hc, ?_⟩
    intro w' hw'
    have hpre : owedMonitor.after (some w) (s.preDrop m now io.venc).2 = some w := by
      refine owedMonitor.after_of_kept fun o ho g => owed_kept ?_ g
      rcases commitMcsPreDropBitrate_obs _ _ _ _ _ _ o ho with rfl | hb
      · exact .inr (.inr ⟨_, _, rfl⟩)
      · exact .inr (.inl hb)
    rw [Monitor.after_append, hpre] at hw'
    obtain rfl := Option.some.inj hw'
    exact .inr ⟨_, rfl, rfl, hbody⟩

/-- A served commit of the watchdog is underway. -/
theorem watchdogCommit_owed {s : Lc} (h0 : 0 ≤ s.sel.currentMcs) (h11 : s.sel.currentMcs ≤ 11)
    (hc : s.cfg.InRange) (hd : s.cfg.dryRun = false) (w : Owed) (now : ℕ) (io : SyncIo)
    (hs : ((s.radioBodyValid || io.getRadio) &&
      (commitDefers s.cfg (if s.radioBodyValid then s.radioBody else s.air) s.sel.currentMcs ||
        decide (io.commit.set = .acked))) = true) :
    OwedInv (s.watchdogCommit now io).1 (owedMonitor.after (some w) (s.watchdogCommit now io).2) := by
  have hd' : ¬s.cfg.dryRun = true := by simp [hd]
  rw [Lc.watchdogCommit]
  rw [if_neg hd']
  simp only [Bool.and_eq_true, Bool.or_eq_true, decide_eq_true_eq] at hs
  obtain ⟨hbody, hsent⟩ := hs
  cases hv : s.radioBodyValid
  · have hget : io.getRadio = true := by simpa [hv] using hbody
    simp only [hv, Bool.false_eq_true, if_false] at hsent
    rw [syncBody_of_invalid hv, hget]
    show OwedInv (s.synced.commitStored _ _ _ _ _).1
      (owedMonitor.after (owedMonitor.upd (some w) _) (s.synced.commitStored _ _ _ _ _).2)
    rw [owed_kept (.inl rfl)]
    exact commitStored_owed (s := s.synced) h0 h11 hc hd w now now io.commit hsent
  · simp only [hv, if_true] at hsent
    rw [syncBody_of_valid hv]
    simp only [andThen, hv, if_true, List.nil_append]
    exact commitStored_owed h0 h11 hc hd w now now io.commit hsent

/-- A tick of the watchdog keeps what is owed underway. -/
theorem watchdog_owed {s : Lc} {g : Option Owed} (h : OwedInv s g) (hd : s.cfg.dryRun = false)
    (now : ℕ) (io : SyncIo)
    (hs : s.watchdogDue now = true → s.watchdogDecision now = .failsafe ∨
      (s.watchdogDecision now ≠ .none ∧ g.isSome = true) → s.serves now io = true) :
    OwedInv (s.watchdog now io).1 (owedMonitor.after g (s.watchdog now io).2) := by
  cases hdue : s.watchdogDue now
  · rw [watchdog_idle hdue]
    exact h
  have hserves := hs hdue
  rw [watchdog_due hdue]
  -- a failsafe starts a debt, any other commit takes over the one there is
  have hcommit (w : Owed) (hsd : s.watchdogDecision now ≠ .none) (hs : s.serves now io = true) :
      OwedInv ((s.watched now).watchdogCommit now io).1
        (owedMonitor.after (some w) ((s.watched now).watchdogCommit now io).2) := by
    obtain ⟨h0, h11⟩ := watched_range h.inRange hsd
    exact watchdogCommit_owed h0 h11 h.inRange hd w now io hs
  have hother (hsd : s.watchdogDecision now ≠ .none) :
      OwedInv ((s.watched now).watchdogCommit now io).1
        (owedMonitor.after g ((s.watched now).watchdogCommit now io).2) := by
    cases g with
    | some w => exact hcommit w hsd (hserves (.inr ⟨hsd, rfl⟩))
    | none =>
        rw [owed_none]
        · exact .none_owed ((watchdogCommit_sensors (s.watched now) now io ▸ h.inRange :
            ((s.watched now).watchdogCommit now io).1.sensors.cfg.InRange))
        · rintro o ho t mcs t' rfl
          have hkind := watchdogCommit_emits (s.watched now) now io _ ho
          exact absurd hkind Bool.false_ne_true
  cases hsd : s.watchdogDecision now
  case none => exact ⟨h.inRange, h.underway⟩
  case failsafe => exact hcommit _ (by simp [hsd]) (hserves (.inl hsd))
  all_goals exact hother (by simp [hsd])

/-- An acknowledged drop pays what is owed, any other outcome leaves it queued. -/
theorem pendingTick_owed {s : Lc} {g : Option Owed} (h : OwedInv s g) (now : ℕ) (reply : SetReply) :
    OwedInv (s.pendingTick now reply).1 (owedMonitor.after g (s.pendingTick now reply).2) := by
  cases hdue : s.dropDue now
  · rw [pendingTick_idle hdue]
    exact h
  obtain ⟨p, hp, hd⟩ := Option.any_eq_true _ _ |>.mp hdue
  rw [pendingTick_due hp (of_decide_eq_true hd)]
  by_cases ha : reply = .acked
  · subst ha
    refine ⟨h.inRange, ?_⟩
    intro w' hw'
    obtain ⟨w, rfl, rfl⟩ := Option.map_eq_some_iff.mp hw'
    rcases h.underway w rfl with hack | ⟨q, hq, -, hbody⟩
    · exact .inl (by simp [Owed.upd, hack])
    · obtain rfl : p = q := Option.some.inj (hp.symm.trans hq)
      exact .inl (by simp [Owed.upd, hbody])
  · have hle : Owed.Le g (owedMonitor.after g
        [.setRadio now .pendingTick p.pendingRadio (decide (reply = .acked))]) :=
      owed_after_le (fun o ho => List.mem_singleton.mp ho ▸ rfl) g
    rw [Lc.dropSent]
    dsimp only
    rw [if_neg ha]
    refine h.of_le hle h.inRange ?_
    intro q hq
    obtain rfl : p = q := Option.some.inj (hp.symm.trans hq)
    exact ⟨_, rfl, rfl, rfl⟩

theorem dispatch_owed {s : Lc} {g : Option Owed} (h : OwedInv s g) (req : WcmdReq) (loop : Bool)
    (now : ℕ) (io : CmdIo) :
    OwedInv (s.dispatch req loop now io).1 (owedMonitor.after g (s.dispatch req loop now io).2) := by
  refine h.of_le (owed_after_le (fun o ho => ?_) g) ?_ fun p hp => ⟨p, hp, rfl, rfl⟩
  · have hkind := dispatch_emits s req loop now io o ho
    cases o <;> first | rfl | exact absurd hkind Bool.false_ne_true | skip
    rename_i who _ _
    cases who <;> first | rfl | exact absurd hkind Bool.false_ne_true
  · exact (wcmdDispatch_toggles s.cfg s.wcmd s.air now io req loop).inRange h.inRange

/-- An adoption carries the queued drop along. -/
theorem adoptOutstanding_owed {s : Lc} {g : Option Owed} (h : OwedInv s g) (now nowObs : ℕ) :
    OwedInv (s.adoptOutstanding now nowObs) g := by
  refine h.of_le (.refl g) (by rw [adoptOutstanding_cfg]; exact h.inRange) fun p hp => ?_
  unfold Lc.adoptOutstanding Lc.adoptWritten
  split
  · exact ⟨p, hp, rfl, rfl⟩
  · rename_i wb _
    refine ⟨p.carry wb, ?_, rfl, rfl⟩
    dsimp only
    split <;> exact congrArg (Option.map fun p => p.carry wb) hp

/-- A record the law sees settles the debt. -/
theorem rxAnt_owed {s : Lc} {g : Option Owed} (h : OwedInv s g) (r : RxAnt)
    (now nowCommit nowObs : ℕ) (io : RxIo) :
    OwedInv (s.rxAnt r now nowCommit nowObs io).1
      (owedMonitor.after g (s.rxAnt r now nowCommit nowObs io).2) := by
  have hcfg : (s.rxAnt r now nowCommit nowObs io).1.cfg = s.cfg :=
    congrArg Sensors.cfg (rxAnt_sensors s r now nowCommit nowObs io)
  rcases hj : s.judged r now with _ | ⟨s', sd⟩
  · obtain ⟨scorer, hr⟩ := rxAnt_none hj nowCommit nowObs io
    rw [hr]
    exact ⟨h.inRange, h.underway⟩
  · have hnone : owedMonitor.after g (s.rxAnt r now nowCommit nowObs io).2 = none := by
      rw [rxAnt_some hj]
      refine owed_none ?_
      rintro o ho t mcs t' rfl
      exact absurd (act_emits s' s.sel sd nowCommit nowObs io _ ho) Bool.false_ne_true
    rw [hnone]
    exact .none_owed (hcfg ▸ h.inRange)

theorem handle_owed {s : Lc} {g : Option Owed} (h : OwedInv s g) (hd : s.cfg.dryRun = false)
    (e : Event) (hs : Served (s, g) e = true) :
    OwedInv (s.handle e).1 (owedMonitor.after g (s.handle e).2) := by
  cases hl : e.listens
  · cases e with
    | pendingTick dt reply => exact pendingTick_owed h _ reply
    | watchdog dt io =>
        refine watchdog_owed h hd _ io ?_
        intro hdue hsd
        rcases Bool.or_eq_true _ _ |>.mp hs with hnot | hserves
        · simp only [Bool.not_eq_true', Bool.and_eq_false_iff, Bool.or_eq_false_iff,
            decide_eq_false_iff_not] at hnot
          rcases hnot with hnot | ⟨hne, hnone⟩
          · exact absurd hdue (by simp [hnot])
          · rcases hsd with hsd | ⟨hsd, hsome⟩
            · exact absurd hsd hne
            · rcases hnone with hnone | hnone
              · exact absurd hsd hnone
              · exact absurd hsome (by simp [hnone])
        · exact hserves
    | httpCmd dt key value io =>
        simp only [Lc.handle, Lc.httpCmd]
        split
        · exact h
        · exact dispatch_owed (s := { s with localCmdSeq := s.localCmdSeq + 1 })
            ⟨h.inRange, h.underway⟩ _ _ _ io
    | wcmd dt dt₁ dt₂ req loop io =>
        simp only [Lc.handle, Lc.wcmdFrame]
        split
        · exact h
        · exact adoptOutstanding_owed (dispatch_owed h req loop _ io) _ _
    | rxAnt dt dt₁ dt₂ r io => exact rxAnt_owed h r _ _ _ io
    | _ => cases hl
  · have hle : Owed.Le g (owedMonitor.after g (s.handle e).2) := by
      refine owed_after_le (fun o ho => ?_) g
      have hkind := isCommand_of_listens hl (handle_emits s e o ho)
      cases o <;> first | rfl | exact absurd hkind.symm Bool.false_ne_true
    have hpending : (s.handle e).1.pending = s.pending :=
      congrArg Command.pending (handle_command hl s)
    exact h.of_le hle (handle_inRange h.inRange e) fun p hp => ⟨p, hpending ▸ hp, rfl, rfl⟩

/-! ## Runs -/

theorem OwedInv.delivered {s : Lc} {g : Option Owed} (h : OwedInv s g) (e : Event) :
    Delivered (s, g) e = true := by
  cases e with
  | watchdog dt io =>
      rw [Delivered]
      rw [Bool.or_eq_true, Option.all_eq_true]
      refine .inr ?_
      intro w hw
      rcases h.underway w hw with ha | ⟨p, hp, htarget, -⟩
      · simp [ha]
      · simp [Lc.coveredByPending, hp, htarget]
  | _ => rfl

/-- The failsafe commits `mcs_min`, bounded by `mcs_max`. -/
theorem failsafe_rung {s : Lc} {now : ℕ} (h : s.watchdogDecision now = .failsafe)
    (hle : s.cfg.mcs.mcsMin ≤ s.cfg.mcs.mcsMax) :
    (s.watched now).sel.currentMcs = s.cfg.mcs.mcsMin := by
  rw [Lc.watchdogDecision, watchdogSelect, Selector.tickNoData] at h
  rw [Lc.watched, watchdogSelect, Selector.tickNoData]
  dsimp only at h ⊢
  split_ifs at h ⊢
  rw [Selector.commit_currentMcs]
  simp only [clampInt]
  split <;> split <;> omega

/-- A failsafe refused on the spot leaves the selector at its rung, and the realign due if the
cache is off it. -/
theorem failsafe_stands {s : Lc} (hc : s.cfg.InRange) (hd : s.cfg.dryRun = false) {now : ℕ}
    (hdue : s.watchdogDue now = true) (hsd : s.watchdogDecision now = .failsafe)
    (hv : s.radioBodyValid = true) (io : SyncIo) (hs : s.serves now io = false) :
    (s.watchdog now io).1.sel.currentMcs = (s.watched now).sel.currentMcs ∧
      (s.watchdog now io).1.realignDue =
        decide ((s.watched now).sel.currentMcs ≠ s.radioBody.mcs) := by
  have hsome : s.watchdogDecision now ≠ .none := by simp [hsd]
  obtain ⟨h0, -⟩ := watched_range hc hsome
  have hd' : ¬(s.watched now).cfg.dryRun = true := by
    show ¬s.cfg.dryRun = true
    simp [hd]
  simp only [Lc.serves, hv, Bool.true_or, Bool.true_and, if_true, Bool.or_eq_false_iff,
    decide_eq_false_iff_not] at hs
  obtain ⟨hdef, hack⟩ := hs
  have hcommit : ((s.watched now).watchdogCommit now io).1 =
      (s.watched now).sentTo (s.watched now).sel.currentMcs now io.commit.set := by
    rw [Lc.watchdogCommit]
    rw [if_neg hd', syncBody_of_valid (s := s.watched now) hv, andThen_pure,
      if_pos (show (s.watched now).radioBodyValid = true from hv),
      commitStored_sent (s := s.watched now) _ now io.commit hdef hd, if_neg hack]
  rw [watchdog_due hdue, hsd]
  dsimp only
  rw [hcommit]
  refine ⟨rfl, ?_⟩
  have hvalid : (s.watched now).radioBodyValid = true := hv
  have hdry : (s.watched now).cfg.dryRun = false := hd
  simp only [Lc.realignDue, Lc.sentTo, Lc.coveredByPending, hvalid, hdry]
  simp [h0]
  rfl

theorem Boot.init_owed (b : Boot) : OwedInv b.init none := .none_owed b.init_inRange

end Waybeam.Vehicle
