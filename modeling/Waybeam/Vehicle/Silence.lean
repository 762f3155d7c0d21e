/-
# `Waybeam.Vehicle.Silence` — what the failsafe takes for silence

The watchdog commits SD_FAILSAFE when `last_datagram_us` is a timeout old.  The field
belongs to the selector, `selector_update` sets it, and a decision whose commit fails
restores the whole selector from the snapshot taken before the update:

    snap := sel          last_datagram_us  t₀
    selector_update      last_datagram_us  now
    sel := snap          last_datagram_us  t₀     the record is forgotten

So the silence the watchdog sees is the time since the last record that was not undone.
The failsafe is raised by real silence over exactly the runs in which it is never raised
within a timeout of an undone record.
-/
import Waybeam.Vehicle.Frame

namespace Waybeam.Vehicle

/-! ## Fed and undone records -/

/-- The instants of the records put to `selector_update`, newest first, and of those whose
update was undone. -/
structure Feeds where
  fed : List ℕ := []
  undone : List ℕ := []

/-- Feed a record at `now`. -/
def Feeds.feed (g : Feeds) (now : ℕ) : Feeds := { g with fed := now :: g.fed }

/-- The newest record is undone. -/
def Feeds.undo (g : Feeds) : Feeds := { g with undone := g.fed.head?.toList ++ g.undone }

/-- No instant of `ts` lies in `(now − timeoutUs, now]`. -/
def silentSince (ts : List ℕ) (now timeoutUs : ℕ) : Bool :=
  ts.all fun t => !(decide (t ≤ now) && decide (now < t + timeoutUs))

/-- Remember the feeds; a failsafe needs silence among all of them. -/
def silenceMonitor : Monitor Obs Feeds where
  upd
    | g, .selectorUpdate now _ _ => g.feed now
    | g, .rolledBack => g.undo
    | g, _ => g
  ok
    | g, .failsafe now _ timeoutUs => silentSince g.fed now timeoutUs
    | _, _ => true

/-- Every record that was not undone is at most as old as `last`, the instant the selector
believes, and that instant has come. -/
structure Feeds.Fit (g : Feeds) (last clock : ℕ) : Prop where
  kept : ∀ t ∈ g.fed, t ∈ g.undone ∨ t ≤ last
  undone : ∀ t ∈ g.undone, t ∈ g.fed
  past : last ≤ clock

section Fit

variable {g : Feeds} {last clock now : ℕ}

theorem Feeds.Fit.mono (h : g.Fit last clock) (hnow : clock ≤ now) : g.Fit last now :=
  ⟨h.kept, h.undone, h.past.trans hnow⟩

/-- A record that is kept is the newest. -/
theorem Feeds.Fit.feed (h : g.Fit last clock) (hnow : clock ≤ now) : (g.feed now).Fit now now where
  kept t ht := by
    rcases List.mem_cons.mp ht with rfl | ht
    · exact .inr le_rfl
    · exact (h.kept t ht).imp_right fun ht => ht.trans (h.past.trans hnow)
  undone t ht := List.mem_cons_of_mem _ (h.undone t ht)
  past := le_rfl

/-- Undoing a record leaves the older ones as they were. -/
theorem Feeds.Fit.undo (h : g.Fit last clock) (hnow : clock ≤ now) :
    (g.feed now).undo.Fit last now where
  kept t ht := by
    rcases List.mem_cons.mp ht with rfl | ht
    · exact .inl List.mem_cons_self
    · exact (h.kept t ht).imp_left (List.mem_cons_of_mem _)
  undone t ht := by
    rcases List.mem_cons.mp ht with rfl | ht
    · exact List.mem_cons_self
    · exact List.mem_cons_of_mem _ (h.undone t ht)
  past := h.past.trans hnow

end Fit

/-! ## Records -/

theorem silenceMonitor_ignores {o : Obs} (hu : ∀ now p sd, o ≠ .selectorUpdate now p sd)
    (hr : o ≠ .rolledBack) (hf : ∀ now mcs t, o ≠ .failsafe now mcs t) : silenceMonitor.Ignores o := by
  intro g
  cases o <;> first
    | exact ⟨rfl, rfl⟩
    | exact absurd rfl (hu _ _ _)
    | exact absurd rfl hr
    | exact absurd rfl (hf _ _ _)

theorem isCommit_ignored {o : Obs} {who : SetBy} (h : o.isCommit who) : silenceMonitor.Ignores o := by
  refine silenceMonitor_ignores ?_ ?_ ?_
  all_goals
    intros
    rintro rfl
    exact absurd h Bool.false_ne_true

theorem isAdopted_ignored {o : Obs} (h : o.isAdopted) : silenceMonitor.Ignores o := by
  refine silenceMonitor_ignores ?_ ?_ ?_
  all_goals
    intros
    rintro rfl
    exact absurd h Bool.false_ne_true

/-- What follows an update keeps the selector and the history, or undoes both. -/
def ActFeeds (sel snap : Selector) (g : Feeds) (s : Lc) (g' : Feeds) : Prop :=
  (s.sel = sel ∧ g' = g) ∨ (s.sel = snap ∧ g' = g.undo)

theorem commitDecision_feeds {s : Lc} (hd : s.cfg.dryRun = false) (snap : Selector)
    (nowCommit nowObs : ℕ) (io : RxIo) (g : Feeds) :
    silenceMonitor.wp g (s.commitDecision snap nowCommit nowObs io) (ActFeeds s.sel snap g) := by
  cases h : commitDefers s.cfg s.radioBody s.sel.currentMcs
  · rw [commitDecision_sent snap nowCommit nowObs io h hd]
    refine wp_andThen (wp_emit rfl ?_)
    split
    · exact wp_andThen (wp_ignored (fun o ho => isAdopted_ignored (adopt_emits _ _ o ho))
        (wp_pure (.inl ⟨adopt_sel _ _, rfl⟩)))
    · exact wp_emit rfl (.inr ⟨rfl, rfl⟩)
  · rw [commitDecision_deferred snap nowCommit nowObs io h]
    exact wp_ignored (fun o ho => isCommit_ignored (preDrop_emits s _ _ _ .decision o ho))
      (.inl ⟨rfl, rfl⟩)

theorem act_feeds (s : Lc) (snap : Selector) (sd : SelectDecision) (nowCommit nowObs : ℕ)
    (io : RxIo) (g : Feeds) :
    silenceMonitor.wp g (s.act snap sd nowCommit nowObs io) (ActFeeds s.sel snap g) := by
  rw [Lc.act]
  split
  · refine wp_ignored (fun o ho => isCommit_ignored (realign_emits s _ _ _ o ho)) (.inl ⟨?_, rfl⟩)
    rw [realign_eq]
    split
    · exact commitStored_sel _ _ _ _ _ _
    · rfl
  · rw [Lc.decision]
    split_ifs with hd
    · exact wp_pure (.inl ⟨rfl, rfl⟩)
    · refine wp_andThen (wp_ignored (fun o ho => isAdopted_ignored (syncBody_emits _ _ o ho)) ?_)
      split
      · have hcommit := commitDecision_feeds (s := (s.syncBody io.getRadio).1) (by simpa using hd)
          snap nowCommit nowObs io g
        rwa [syncBody_sel] at hcommit
      · exact wp_emit rfl (.inr ⟨rfl, rfl⟩)

/-- A record keeps the feeds fit, undone or not. -/
theorem rxAnt_feeds {s : Lc} {g : Feeds} (h : g.Fit s.sel.lastDatagramUs s.clock) (r : RxAnt)
    {now : ℕ} (hnow : s.clock ≤ now) (nowCommit nowObs : ℕ) (io : RxIo) :
    silenceMonitor.wp g (s.rxAnt r now nowCommit nowObs io) fun s' g' =>
      g'.Fit s'.sel.lastDatagramUs now := by
  rcases hj : s.judged r now with _ | ⟨s', sd⟩
  · obtain ⟨scorer, hr⟩ := rxAnt_none hj nowCommit nowObs io
    rw [hr]
    exact wp_pure (h.mono hnow)
  · obtain ⟨scorer, score, -, hs'⟩ := judged_some hj
    have hlast : s'.sel.lastDatagramUs = now := by
      rw [hs']
      exact Selector.update_lastDatagramUs _ _ _ _ _ _
    have hact : silenceMonitor.wp (g.feed now) (s'.act s.sel sd nowCommit nowObs io) fun s'' g' =>
        g'.Fit s''.sel.lastDatagramUs now := by
      refine wp_mono (act_feeds s' s.sel sd nowCommit nowObs io (g.feed now)) ?_
      intro s'' g' hq
      rcases hq with ⟨hsel, rfl⟩ | ⟨hsel, rfl⟩
      · rw [hsel, hlast]
        exact h.feed hnow
      · rw [hsel]
        exact h.undo hnow
    rw [rxAnt_some hj]
    exact ⟨⟨rfl, hact.1⟩, hact.2⟩

/-! ## The watchdog -/

/-- The failsafe is raised when the instant the selector believes is a timeout old. -/
theorem raises_spec {s : Lc} {now : ℕ} (h : s.raises now = true)
    (hlast : s.sel.lastDatagramUs ≤ now) :
    s.sel.lastDatagramUs + usOf s.cfg.mcs.failsafeTimeoutS ≤ now := by
  simp only [Lc.raises, Bool.and_eq_true, decide_eq_true_eq] at h
  have hsd := h.2
  rw [Lc.watchdogDecision, watchdogSelect, Selector.tickNoData] at hsd
  simp only [Selector.expireChanges_lastDatagramUs] at hsd
  split_ifs at hsd
  omega

theorem watchdogCommit_ignored (s : Lc) (now : ℕ) (io : SyncIo) :
    ∀ o ∈ (s.watchdogCommit now io).2, silenceMonitor.Ignores o := by
  intro o ho
  have hkind := watchdogCommit_emits s now io o ho
  rcases Bool.or_eq_true _ _ |>.mp hkind with h | h
  · exact isAdopted_ignored h
  · exact isCommit_ignored h

/-- The watchdog needs silence iff it raises the failsafe, and remembers nothing. -/
theorem watchdog_feeds (s : Lc) (g : Feeds) (now : ℕ) (io : SyncIo) :
    silenceMonitor.after g (s.watchdog now io).2 = g ∧
      (silenceMonitor.Accepts g (s.watchdog now io).2 ↔ (s.raises now = true →
        silentSince g.fed now (usOf s.cfg.mcs.failsafeTimeoutS) = true)) := by
  have hrest := watchdogCommit_ignored (s.watched now) now io
  rw [Lc.raises]
  cases hdue : s.watchdogDue now
  · rw [watchdog_idle hdue]
    exact ⟨rfl, by simp⟩
  · rw [watchdog_due hdue]
    cases s.watchdogDecision now
    case failsafe =>
      simp only [Monitor.after_cons, Monitor.accepts_cons]
      rw [and_iff_left (Monitor.accepts_of_ignored hrest)]
      exact ⟨Monitor.after_of_ignored hrest, by simp [silenceMonitor]⟩
    case none => exact ⟨rfl, by simp⟩
    all_goals exact ⟨Monitor.after_of_ignored hrest, by simp [Monitor.accepts_of_ignored hrest]⟩

/-! ## Runs -/

/-- Every event but a record keeps the instant the selector believes. -/
theorem handle_lastDatagramUs (s : Lc) (e : Event) (hr : e.isRecord = false) :
    (s.handle e).1.sel.lastDatagramUs = s.sel.lastDatagramUs := by
  cases hl : e.listens
  · cases e with
    | pendingTick dt reply =>
        simp only [Lc.handle, Lc.pendingTick]
        split
        · rfl
        · split_ifs <;> rfl
    | watchdog dt io =>
        have hsel : (s.watched (s.clock + dt)).sel.lastDatagramUs = s.sel.lastDatagramUs := by
          rw [Lc.watched, watchdogSelect, Selector.tickNoData]
          dsimp only
          split_ifs <;> simp
        cases hdue : s.watchdogDue (s.clock + dt)
        · simp only [Lc.handle, watchdog_idle hdue]
        · simp only [Lc.handle, watchdog_due hdue]
          cases s.watchdogDecision (s.clock + dt)
          case none => exact hsel
          all_goals
            refine Eq.trans ?_ hsel
            exact congrArg Selector.lastDatagramUs (watchdogCommit_sel _ _ _)
    | httpCmd dt key value io =>
        simp only [Lc.handle, Lc.httpCmd]
        split_ifs <;> rfl
    | wcmd dt dt₁ dt₂ req loop io =>
        simp only [Lc.handle, Lc.wcmdFrame]
        split_ifs
        · rfl
        · simp only [Lc.adoptOutstanding, Lc.adoptWritten]
          split
          · rfl
          · split_ifs
            · exact Selector.commit_lastDatagramUs _ _ _ _
            · rfl
    | rxAnt => exact absurd hr.symm Bool.false_ne_true
    | _ => exact absurd hl.symm Bool.false_ne_true
  · exact congrArg (fun c => c.sel.lastDatagramUs) (handle_command hl s)

/-- Every step keeps the feeds fit. -/
theorem step_fit {s : Lc} {g : Feeds} (h : g.Fit s.sel.lastDatagramUs s.clock) (e : Event) :
    (silenceMonitor.after g (machine.step s e).2).Fit (machine.step s e).1.sel.lastDatagramUs
      (machine.step s e).1.clock := by
  show (silenceMonitor.after g (s.handle e).2).Fit (s.handle e).1.sel.lastDatagramUs
    (s.clock + e.elapsed)
  cases hr : e.isRecord
  · have hafter : silenceMonitor.after g (s.handle e).2 = g := by
      refine silenceMonitor.after_of_kept ?_
      intro o ho g
      have hkind := handle_emits s e o ho
      cases o <;> first | rfl | skip
      all_goals
        cases e <;> first
          | exact absurd hr.symm Bool.false_ne_true
          | exact absurd hkind Bool.false_ne_true
    rw [hafter, handle_lastDatagramUs s e hr]
    exact h.mono (Nat.le_add_right _ _)
  · cases e with
    | rxAnt dt dt₁ dt₂ r io =>
        have hfed := rxAnt_feeds h r (Nat.le_add_right s.clock dt) (s.clock + dt + dt₁)
          (s.clock + dt + dt₁ + dt₂) io
        exact hfed.2.mono (by simp only [Event.elapsed]; omega)
    | _ => exact absurd hr Bool.false_ne_true

/-- Under the invariant silence among the undone records is silence among all. -/
theorem silentSince_undone {g : Feeds} {last clock now timeoutUs : ℕ} (h : g.Fit last clock)
    (hlast : last + timeoutUs ≤ now) :
    silentSince g.fed now timeoutUs = true ↔ silentSince g.undone now timeoutUs = true := by
  simp only [silentSince, List.all_eq_true, Bool.not_eq_true', Bool.and_eq_false_iff,
    decide_eq_false_iff_not]
  constructor
  · intro hfed t ht
    exact hfed t (h.undone t ht)
  · intro hundone t ht
    rcases h.kept t ht with hu | hle
    · exact hundone t hu
    · exact .inr (by omega)

/-- A failsafe that is raised has no undone record within its timeout. -/
def FailsafeClear (sg : Lc × Feeds) : Event → Prop
  | .watchdog dt _ => sg.1.raises (sg.1.clock + dt) = true →
      silentSince sg.2.undone (sg.1.clock + dt) (usOf sg.1.cfg.mcs.failsafeTimeoutS) = true
  | _ => True

theorem step_clear {s : Lc} {g : Feeds} (h : g.Fit s.sel.lastDatagramUs s.clock) (e : Event) :
    silenceMonitor.Accepts g (machine.step s e).2 ↔ FailsafeClear (s, g) e := by
  show silenceMonitor.Accepts g (s.handle e).2 ↔ _
  cases e with
  | watchdog dt io =>
      refine (watchdog_feeds s g (s.clock + dt) io).2.trans ?_
      refine imp_congr_right fun hraise => silentSince_undone h ?_
      exact raises_spec hraise (h.past.trans (Nat.le_add_right _ _))
  | rxAnt dt dt₁ dt₂ r io =>
      exact iff_of_true (rxAnt_feeds h r (Nat.le_add_right s.clock dt) _ _ io).1 trivial
  | _ =>
      refine iff_of_true (Monitor.accepts_of_ignored fun o ho => ?_) trivial
      have hkind := handle_emits s _ o ho
      refine silenceMonitor_ignores ?_ ?_ ?_
      all_goals
        intros
        rintro rfl
        exact absurd hkind Bool.false_ne_true

theorem Boot.init_fit (b : Boot) : (Feeds.mk [] []).Fit b.init.sel.lastDatagramUs b.init.clock where
  kept := by simp
  undone := by simp
  past := by
    rw [Boot.init]
    dsimp only
    split_ifs <;> exact le_rfl

/-- The failsafe is raised by real silence, none of the records put to the selector within
its timeout, over exactly the runs in which it is never raised within a timeout of a record
that was undone. -/
theorem failsafe_silence_iff (b : Boot) (es : List Event) :
    silenceMonitor.Accepts {} (machine.trace b.init es) ↔
      (machine.watch silenceMonitor).Meets FailsafeClear (b.init, {}) es :=
  Machine.accepts_trace_iff (fun _ _ e h _ => step_fit h e) (fun _ _ e h => step_clear h e)
    b.init_fit es

/-- A record whose commit failed 0.2 s before the failsafe is raised. -/
theorem failsafe_without_silence :
    ¬∀ (b : Boot) (is : List Iter),
      silenceMonitor.Accepts {} (machine.trace b.init (loopRun is)) := fun h =>
  absurd
    (h (.withDefaults { bandwidth := 20 }) [
      { dt := 400000, served := [.rxAnt 0 0 0 RxAnt.clean { commit := { set := .lost } }] },
      { dt := 200000 }])
    (by decide +kernel)

end Waybeam.Vehicle
