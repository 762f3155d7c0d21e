/-
# `Waybeam.Vehicle.Realign` — bringing the radio back to the selector's rung

A record on which the law decides nothing realigns wfb_tx with the selector.  Two records
of the radio's MCS exist by then:

    radio.mcs         every tx_stats datagram and every poll    what wfb_tx transmits with
    radioBody.mcs     own commits, read-backs, adoptions        what was last asked for

The realign compares the selector with the second.  An external change of the radio shows
in the first, so it is repaired over exactly the runs in which the second strays with it.
-/
import Waybeam.Vehicle.Frame

namespace Waybeam.Vehicle

/-- The MCS last observed, if the observation is newer than the last acknowledged
SET_RADIO. -/
def seenMonitor : Monitor Obs (Option ℤ) where
  upd
    | _, .radioSeen mcs => some mcs
    | _, .setRadio _ _ _ true => none
    | seen, _ => seen
  ok _ _ := true

/-- Under MCS control, off dry-run and with a body to send, an observation has the radio off
the rung `want`, and no queued drop is to bring it there. -/
def Lc.astray (s : Lc) (seen : Option ℤ) (want : ℤ) : Bool :=
  s.cfg.mcs.enabled && !s.cfg.dryRun && s.radioBodyValid &&
    (seen.any fun mcs => decide (mcs ≠ want)) && !s.coveredByPending want

/-- A SET_RADIO to `want`, or an ordered drop to it. -/
def Obs.asksFor (want : ℤ) : Obs → Bool
  | .setRadio _ _ body _ => decide (body.mcsIndex = u8 want)
  | .queued _ mcs => decide (mcs = want)
  | _ => false

/-- The law sees the record and decides nothing. -/
def Lc.undecided (s : Lc) (r : RxAnt) (now : ℕ) : Bool :=
  (s.judged r now).any fun j => decide (j.2 = .none)

/-- A record on which the law decides nothing, with the radio astray, asks for its rung. -/
def Repairs (sg : Lc × Option ℤ) : Event → Bool
  | .rxAnt dt dt₁ dt₂ r io =>
      !(sg.1.undecided r (sg.1.clock + dt) && sg.1.astray sg.2 sg.1.sel.currentMcs) ||
        (machine.step sg.1 (.rxAnt dt dt₁ dt₂ r io)).2.any (Obs.asksFor sg.1.sel.currentMcs)
  | _ => true

/-- Such a record finds the cached body off the rung too. -/
def CacheAstray (sg : Lc × Option ℤ) : Event → Bool
  | .rxAnt dt _ _ r _ =>
      !(sg.1.undecided r (sg.1.clock + dt) && sg.1.astray sg.2 sg.1.sel.currentMcs) ||
        decide (sg.1.radioBody.mcs ≠ sg.1.sel.currentMcs)
  | _ => true

theorem commitStored_asks {s : Lc} (hd : s.cfg.dryRun = false) (m : ℤ) (who : SetBy)
    (now nowObs : ℕ) (io : CommitIo) :
    (s.commitStored m who now nowObs io).2.any (Obs.asksFor m) = true := by
  cases h : commitDefers s.cfg s.radioBody m
  · rw [commitStored_sent who now io h hd]
    simp [Obs.asksFor]
  · rw [commitStored_deferred who now io h]
    simp [Obs.asksFor]

/-- With a body to send, off dry-run and no drop queued to it, the realign asks for the rung
iff the cached body is off it. -/
theorem realign_asks {s : Lc} (hwant : 0 ≤ s.sel.currentMcs) (hv : s.radioBodyValid = true)
    (hd : s.cfg.dryRun = false) (hp : s.coveredByPending s.sel.currentMcs = false)
    (nowCommit nowObs : ℕ) (io : CommitIo) :
    (s.realign nowCommit nowObs io).2.any (Obs.asksFor s.sel.currentMcs) =
      decide (s.radioBody.mcs ≠ s.sel.currentMcs) := by
  have hdue : s.realignDue = decide (s.radioBody.mcs ≠ s.sel.currentMcs) := by
    simp [Lc.realignDue, hwant, hv, hd, hp, eq_comm]
  rw [realign_eq, ← hdue]
  cases s.realignDue
  · rfl
  · exact commitStored_asks hd _ _ _ _ _

/-- On a record without a decision, in a state the radio is astray of, asking for the rung
comes down to the cache. -/
theorem rxAnt_asks {s : Lc} {seen : Option ℤ} {r : RxAnt} {now : ℕ}
    (hu : s.undecided r now = true) (ha : s.astray seen s.sel.currentMcs = true)
    (nowCommit nowObs : ℕ) (io : RxIo) :
    (s.rxAnt r now nowCommit nowObs io).2.any (Obs.asksFor s.sel.currentMcs) =
      decide (s.radioBody.mcs ≠ s.sel.currentMcs) := by
  obtain ⟨⟨s', sd⟩, hj, hsd⟩ := Option.any_eq_true _ _ |>.mp hu
  obtain rfl : sd = .none := of_decide_eq_true hsd
  obtain ⟨scorer, score, hnone, hs'⟩ := judged_some hj
  obtain ⟨hkeep, hwant⟩ := Selector.update_none hnone
  simp only [Lc.astray, Bool.and_eq_true, Bool.not_eq_true'] at ha
  obtain ⟨⟨⟨⟨-, hd⟩, hv⟩, -⟩, hp⟩ := ha
  have hsel : s'.sel.currentMcs = s.sel.currentMcs := by
    rw [hs']
    exact hkeep
  have hbody : s'.radioBody = s.radioBody := hs' ▸ rfl
  have hask := realign_asks (s := s') (hsel ▸ hwant) (hs' ▸ hv) (hs' ▸ hd)
    (by rw [hsel, hs']; exact hp) nowCommit nowObs io.commit
  rw [rxAnt_some hj, List.any_cons, ← hsel, ← hbody]
  exact hask

theorem repairs_eq (sg : Lc × Option ℤ) (e : Event) : Repairs sg e = CacheAstray sg e := by
  cases e with
  | rxAnt dt dt₁ dt₂ r io =>
      unfold Repairs CacheAstray
      dsimp only
      cases hu : sg.1.undecided r (sg.1.clock + dt)
      · rfl
      · cases ha : sg.1.astray sg.2 sg.1.sel.currentMcs
        · rfl
        · exact rxAnt_asks hu ha _ _ io
  | _ => rfl

/-- An external change of the radio's MCS is repaired by the next record on which the law
decides nothing, over exactly the runs in which each such record finds the cached body off
the selector's rung too. -/
theorem realign_iff (b : Boot) (es : List Event) :
    (machine.watch seenMonitor).Meets (fun sg e => Repairs sg e = true) (b.init, none) es ↔
      (machine.watch seenMonitor).Meets (fun sg e => CacheAstray sg e = true) (b.init, none) es :=
  Machine.Meets.congr fun sg e => by rw [repairs_eq]

/-- wfb_tx moved to MCS 5 by another party; the poll sees it, the next record does not act. -/
theorem realign_blind :
    ¬∀ (b : Boot) (is : List Iter), (machine.watch seenMonitor).Meets
      (fun sg e => Repairs sg e = true) (b.init, none) (loopRun is) := fun h =>
  absurd
    (h (.withDefaults { bandwidth := 20 }) [
      { dt := 1000, served := [.rxAnt 0 0 0 RxAnt.clean {}] },
      { dt := 400000, served := [.rxAnt 0 0 0 RxAnt.clean {}] },
      { dt := 400000
        served := [.external { bandwidth := 20, mcsIndex := 5 }, .rxAnt 0 0 0 RxAnt.clean {}] },
      { dt := 400000, served := [.rxAnt 0 0 0 RxAnt.clean {}] }])
    (by decide +kernel)

end Waybeam.Vehicle
