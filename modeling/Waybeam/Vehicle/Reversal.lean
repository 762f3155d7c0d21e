/-
# `Waybeam.Vehicle.Reversal` — taking back a drop that has not been sent

While a drop is queued the radio is still on the rung above, and the cached body says so.  A
commit is told up from down by that body, not by the drop it overtakes:

    above the body     the drop is cancelled, the up-lock cut to `mcs_up_grace_s`
    on the body        the drop is cancelled, the up-lock of the drop stays
    below the body     the drop is queued anew, the up-lock armed again

So a reversal frees the encoder over exactly the runs in which it climbs past the rung on the
air, or finds no lock left to cut.
-/
import Waybeam.Vehicle.Ordered

namespace Waybeam.Vehicle

/-! ## Reversals -/

/-- Whether the queued drop asserted its bitrate and armed the up-lock, and is still unsent. -/
structure QueueHist where
  lowered : Option (ℕ × ℤ) := none
  unsent : Bool := false

def queueMonitor : Monitor Obs QueueHist where
  upd
    | g, .preDrop now mcs => { g with lowered := some (now, mcs) }
    | g, .queued now mcs => { g with unsent := g.lowered = some (now, mcs) }
    | g, .setRadio _ .pendingTick _ _ => { g with unsent := false }
    | g, _ => g
  ok _ _ := true

/-- Off dry-run and with an up-grace, the law commits a rung above the drop that is queued and
unsent: the state with that rung, and the clock reading. -/
def reversing (sg : Lc × QueueHist) (e : Event) : Option (Lc × ℕ) :=
  if !sg.1.cfg.dryRun && decide (0 < sg.1.cfg.fec.mcsUpGraceS) && sg.2.unsent then
    sg.1.pending.bind fun p =>
      (sg.1.committing e).filter fun c => decide (p.targetMcs < c.1.sel.currentMcs)
  else none

/-- The drop is gone, and the up-lock ends within the up-grace. -/
def Lc.freed (s : Lc) (now : ℕ) (graceS : ℚ) : Bool :=
  s.pending.isNone && decide (s.fec.ctrl.bitrateUpLockUntilUs ≤ now + usOf graceS)

/-- Every reversal frees the encoder. -/
def Recovers (sg : Lc × QueueHist) (e : Event) : Bool :=
  (reversing sg e).all fun c =>
    (machine.step sg.1 e).1.freed c.2 sg.1.cfg.fec.mcsUpGraceS

/-- Every reversal goes above the cached body, or is sent at once and finds the up-lock already
inside the up-grace. -/
def ClimbsOff (sg : Lc × QueueHist) (e : Event) : Bool :=
  (reversing sg e).all fun c =>
    decide (c.1.radioBody.mcs < c.1.sel.currentMcs) ||
      (!commitDefers c.1.cfg c.1.radioBody c.1.sel.currentMcs &&
        decide (sg.1.fec.ctrl.bitrateUpLockUntilUs ≤ c.2 + usOf sg.1.cfg.fec.mcsUpGraceS))

/-! ## What a commit leaves -/

theorem commitTo_freed {s : Lc} (hd : s.cfg.dryRun = false) (hgrace : 0 < s.cfg.fec.mcsUpGraceS)
    (m : ℤ) (who : SetBy) (now : ℕ) (io : CommitIo) :
    (s.commitTo m who now io).2.1.freed now s.cfg.fec.mcsUpGraceS =
      (decide (s.radioBody.mcs < m) || (!commitDefers s.cfg s.radioBody m &&
        decide (s.fec.ctrl.bitrateUpLockUntilUs ≤ now + usOf s.cfg.fec.mcsUpGraceS))) := by
  cases hdef : commitDefers s.cfg s.radioBody m
  · rw [commitTo_sent who now io hdef hd]
    simp only [Lc.freed, Lc.sentTo, upGraceLock, hd, hgrace]
    by_cases hup : s.radioBody.mcs < m
    · simp [hup]
    · simp [hup]
  · have hdown : m < s.radioBody.mcs := by
      simp only [commitDefers, Bool.and_eq_true, decide_eq_true_eq] at hdef
      exact hdef.1.1
    rw [commitTo_deferred who now io hdef]
    simp [Lc.freed, Lc.deferredTo, hdown.le]

theorem SameEncoder.freed {s s' : Lc} (h : SameEncoder s s') (now : ℕ) (graceS : ℚ) :
    s'.freed now graceS = s.freed now graceS := by
  rw [Lc.freed, Lc.freed, h.pending, h.lock]

theorem commitStored_same (s : Lc) (m : ℤ) (who : SetBy) (now nowObs : ℕ) (io : CommitIo) :
    SameEncoder (s.commitTo m who now io).2.1 (s.commitStored m who now nowObs io).1 := by
  rw [Lc.commitStored]
  dsimp only
  split
  · exact sameEncoder_stored _ m nowObs
  · exact ⟨rfl, rfl, rfl, rfl⟩

theorem commitDecision_same (s : Lc) (snap : Selector) (now nowObs : ℕ) (io : RxIo) :
    SameEncoder (s.commitTo s.sel.currentMcs .decision now io.commit).2.1
      (s.commitDecision snap now nowObs io).1 := by
  rw [Lc.commitDecision]
  generalize s.commitTo s.sel.currentMcs .decision now io.commit = out
  obtain ⟨rc, s', os⟩ := out
  cases rc with
  | failed => exact ⟨rfl, rfl, rfl, rfl⟩
  | deferred => exact ⟨rfl, rfl, rfl, rfl⟩
  | acked => exact (readBack_spec s' s.sel.currentMcs io.readBack nowObs).1

/-- A body to commit with comes with the rest of the state. -/
theorem withBody_some {s s' : Lc} {ok : Bool} (h : s.withBody ok = some s') :
    s' = (s.syncBody ok).1 ∧ s'.radioBodyValid = true ∧ s'.cfg = s.cfg ∧ s'.fec = s.fec := by
  rw [Lc.withBody] at h
  split at h
  · next hv =>
      obtain rfl := Option.some.inj h
      exact ⟨rfl, hv, syncBody_cfg ok, syncBody_fec s ok⟩
  · cases h

theorem watchdogCommit_of_body {s s' : Lc} {io : SyncIo} (hd : s.cfg.dryRun = false)
    (h : s.withBody io.getRadio = some s') (now : ℕ) :
    (s.watchdogCommit now io).1
      = (s'.commitStored s'.sel.currentMcs .watchdog now now io.commit).1 := by
  obtain ⟨rfl, hv, -, -⟩ := withBody_some h
  rw [Lc.watchdogCommit, if_neg (by rw [hd]; exact Bool.false_ne_true), andThen, if_pos hv]

theorem decision_of_body {s s' : Lc} {io : RxIo} (hd : s.cfg.dryRun = false)
    (h : s.withBody io.getRadio = some s') (snap : Selector) (now nowObs : ℕ) :
    (s.decision snap now nowObs io).1 = (s'.commitDecision snap now nowObs io).1 := by
  obtain ⟨rfl, hv, -, -⟩ := withBody_some h
  rw [Lc.decision, if_neg (by rw [hd]; exact Bool.false_ne_true), andThen, if_pos hv]

/-- A watchdog that decides something commits it. -/
theorem watchdog_commits {s : Lc} {now : ℕ} (h : s.watchdogDue now = true)
    (hsd : s.watchdogDecision now ≠ .none) (io : SyncIo) :
    (s.watchdog now io).1 = ((s.watched now).watchdogCommit now io).1 := by
  rw [watchdog_due h]
  cases hdec : s.watchdogDecision now with
  | none => exact absurd hdec hsd
  | _ => rfl

/-- Where the law commits, the step ends as the commit does. -/
theorem committing_ends {s : Lc} {e : Event} {c : Lc × ℕ} (h : s.committing e = some c)
    (hd : s.cfg.dryRun = false) : c.1.cfg = s.cfg ∧ c.1.fec = s.fec ∧ ∃ who io,
      SameEncoder (c.1.commitTo c.1.sel.currentMcs who c.2 io).2.1 (machine.step s e).1 := by
  cases e with
  | watchdog dt io =>
      rw [Lc.committing] at h
      split at h
      · next hdue =>
          rw [Bool.and_eq_true, decide_eq_true_eq] at hdue
          obtain ⟨s', hs', rfl⟩ := Option.map_eq_some_iff.mp h
          obtain ⟨-, -, hcfg, hfec⟩ := withBody_some hs'
          have hend : (s.watchdog (s.clock + dt) io).1 = (s'.commitStored s'.sel.currentMcs .watchdog
              (s.clock + dt) (s.clock + dt) io.commit).1 := by
            rw [watchdog_commits hdue.1 hdue.2]
            exact watchdogCommit_of_body (s := s.watched (s.clock + dt)) hd hs' _
          have hsame := commitStored_same s' s'.sel.currentMcs .watchdog (s.clock + dt)
            (s.clock + dt) io.commit
          rw [← hend] at hsame
          exact ⟨hcfg, hfec, .watchdog, io.commit, hsame.trans ⟨rfl, rfl, rfl, rfl⟩⟩
      · cases h
  | rxAnt dt dt₁ dt₂ r io =>
      obtain ⟨⟨s₁, sd⟩, hj, hc⟩ := Option.bind_eq_some_iff.mp h
      obtain ⟨scorer, score, -, hs₁⟩ := judged_some hj
      have hrx := congrArg Prod.fst (rxAnt_some hj (s.clock + dt + dt₁) (s.clock + dt + dt₁ + dt₂) io)
      dsimp only at hc hrx
      rw [Lc.act] at hrx
      split at hc
      · next hsd =>
          split at hc
          · next hdue =>
              obtain rfl := Option.some.inj hc
              have hsame := commitStored_same s₁ s₁.sel.currentMcs .realign (s.clock + dt + dt₁)
                (s.clock + dt + dt₁ + dt₂) io.commit
              rw [if_pos hsd, realign_eq, if_pos hdue] at hrx
              rw [← hrx] at hsame
              exact ⟨hs₁ ▸ rfl, hs₁ ▸ rfl, .realign, io.commit, hsame.trans ⟨rfl, rfl, rfl, rfl⟩⟩
          · cases hc
      · next hsd =>
          obtain ⟨s', hs', rfl⟩ := Option.map_eq_some_iff.mp hc
          obtain ⟨-, -, hcfg, hfec⟩ := withBody_some hs'
          have hd₁ : s₁.cfg.dryRun = false := by
            rw [hs₁]
            exact hd
          have hsame := commitDecision_same s' s.sel (s.clock + dt + dt₁) (s.clock + dt + dt₁ + dt₂) io
          rw [if_neg hsd, decision_of_body hd₁ hs'] at hrx
          rw [← hrx] at hsame
          exact ⟨hcfg.trans (hs₁ ▸ rfl), hfec.trans (hs₁ ▸ rfl), .decision, io.commit,
            hsame.trans ⟨rfl, rfl, rfl, rfl⟩⟩
  | _ => cases h

/-! ## The runs -/

theorem recovers_eq (sg : Lc × QueueHist) (e : Event) : Recovers sg e = ClimbsOff sg e := by
  rw [Recovers, ClimbsOff]
  cases hr : reversing sg e with
  | none => rfl
  | some c =>
      rw [reversing] at hr
      split at hr
      · next hon =>
          simp only [Bool.and_eq_true, Bool.not_eq_true', decide_eq_true_eq] at hon
          obtain ⟨p, -, hp⟩ := Option.bind_eq_some_iff.mp hr
          obtain ⟨hc, -⟩ := Option.filter_eq_some_iff.mp hp
          obtain ⟨hcfg, hfec, who, io, hend⟩ := committing_ends hc hon.1.1
          rw [Option.all_some, Option.all_some, hend.freed, ← hcfg, ← hfec]
          exact commitTo_freed (hcfg ▸ hon.1.1) (hcfg ▸ hon.1.2) ..
      · cases hr

/-- The law that takes back a queued, unsent drop cancels it and frees the encoder within the
up-grace, over exactly the runs in which it climbs above the cached body whenever it does, or
finds no longer lock. -/
theorem reversal_iff (b : Boot) (es : List Event) :
    (machine.watch queueMonitor).Meets (fun sg e => Recovers sg e = true)
        (b.init, queueMonitor.after {} b.obs) es ↔
      (machine.watch queueMonitor).Meets (fun sg e => ClimbsOff sg e = true)
        (b.init, queueMonitor.after {} b.obs) es :=
  Machine.Meets.congr fun sg e => by rw [recovers_eq]

/-- A drop from MCS 1 to 0 is queued; half a second later, and a millisecond before it is due,
a clean probe takes the selector back to 1. -/
def earlyReturn : List Iter :=
  [{ dt := 1000, served := [.httpSet [("fec.startup_grace_s", .float 0)],
      .sidecar 0 0 (.sized 1000000 12500) true true] },
    { dt := 1000, served := [.rxAnt 0 1000 0 RxAnt.clean {}] },
    { dt := 100000
      served := [.rxAnt 0 0 0 RxAnt.clean {},
        .probeRec 0 { mcs := some 2, accounted := some 100, lost := some 0 }] },
    { dt := 399000, served := [.rxAnt 0 1 0 RxAnt.clean {}] }]

/-- The drop is cancelled and its up-lock stays. -/
theorem reversal_held :
    ¬∀ (b : Boot) (is : List Iter), (machine.watch queueMonitor).Meets
      (fun sg e => Recovers sg e = true) (b.init, queueMonitor.after {} b.obs) (loopRun is) := by
  intro hall
  have hrun := hall (.withDefaults { bandwidth := 20, mcsIndex := 1 }) earlyReturn
  revert hrun
  decide +kernel

end Waybeam.Vehicle
