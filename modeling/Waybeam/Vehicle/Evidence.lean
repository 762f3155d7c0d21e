/-
# `Waybeam.Vehicle.Evidence` — probe records and the commit gate

The probe at `current + 2` measures the rung above the next one.  A record of it speaks for
the rung the selector is on while the probe is measured; once the rung changes, the record
is about another question.  The commit gate keeps such records out: every turn of the loop
compares the selector's rung with the one the turn before found, and if they differ no
record older than this turn is acted on.

    turn n      check: rung 0                     gate stamped
                records of rungs 2 and 3 drained
                rx_ant: promote to 1              the record of rung 3 is now stale
                rx_ant: …                         and the gate has not heard of it
    turn n+1    check: rung 1                     gate stamped

`evidence` is the machine with a log of its records: when each was received, whether the
rung has changed since, and which change a check has noticed.  The law acts on current
records only, over exactly the runs in which the check has noticed every change between a
record and its use (`probe_evidence_iff`).  Several rx_ant records in one turn, or a rung
left and returned to between two checks, are the changes it does not notice.
-/
import Waybeam.Vehicle.Frame

namespace Waybeam.Vehicle

/-! ## Acting on a probe record -/

/-- The gate lifted. -/
def ProbeState.ungated (p : ProbeState) : ProbeState := { p with gateUs := 0 }

/-- The record of `v2` passes the gate. -/
def ProbeState.passes (p : ProbeState) (v2 : ℤ) : Bool := decide (p.gateUs ≤ (p.rung v2).lastUs)

theorem probeUsable_eq (p : ProbeState) (cfg : McsConfig) (v2 : ℤ) (now : ℕ) :
    probeUsable p cfg v2 now = (p.passes v2 && probeUsable p.ungated cfg v2 now) := by
  have hlifted : p.ungated.passes v2 = true := decide_eq_true (Nat.zero_le _)
  show (_ && p.passes v2 && _) = (p.passes v2 && (_ && p.ungated.passes v2 && _))
  rw [hlifted, Bool.and_true, Bool.and_comm _ (p.passes v2), Bool.and_assoc]
  rfl

theorem probeUsable_unprobed (cfg : McsConfig) (v2 : ℤ) (now : ℕ) :
    probeUsable {} cfg v2 now = false := by
  simp [probeUsable]

namespace Selector

variable {s : Selector} {cfg : McsConfig} {score : Score} {probe : ProbeState}
  {inPressure : Bool} {now : ℕ}

/-- A record that passes the gate is read as if there were none. -/
theorem verdict_passes (h : probe.passes (s.currentMcs + 2)) :
    s.verdict cfg score probe inPressure now = s.verdict cfg score probe.ungated inPressure now := by
  simp only [verdict, probeUsable_eq probe, h, Bool.true_and]
  rfl

/-- A record the gate holds back is not read at all. -/
theorem verdict_held (h : probe.passes (s.currentMcs + 2) = false) :
    s.verdict cfg score probe inPressure now = s.verdict cfg score {} inPressure now := by
  simp only [verdict, probeUsable_eq probe, h, Bool.false_and, probeUsable_unprobed,
    Bool.false_eq_true, if_false]

/-- Two probe states that agree on the verdict agree on the update. -/
theorem update_congr {probe' : ProbeState}
    (h : ∀ s' : Selector, s'.currentMcs = s.currentMcs →
      s'.verdict cfg score probe inPressure now = s'.verdict cfg score probe' inPressure now) :
    s.update cfg score probe inPressure now = s.update cfg score probe' inPressure now := by
  have hrung : ((s.intake inPressure now).noteGuards cfg score).currentMcs = s.currentMcs :=
    s.intake_currentMcs inPressure now
  simp only [update, h _ hrung]

variable (s cfg score probe inPressure now)

/-- Where a record changes the verdict, the verdict without it is to hold. -/
theorem verdict_unprobed :
    s.verdict cfg score {} inPressure now = .hold ∨
      s.verdict cfg score probe inPressure now = s.verdict cfg score {} inPressure now := by
  simp only [verdict, probeUsable_unprobed, Bool.false_eq_true, if_false]
  split_ifs <;> simp

/-- The law acts on a probe record: without one it would decide otherwise. -/
def restsOnProbe : Bool :=
  decide ((s.update cfg score probe inPressure now).2 ≠ (s.update cfg score {} inPressure now).2)

/-- Such a decision is a step of one rung, and without the record the law would hold. -/
theorem restsOnProbe_moves (h : s.restsOnProbe cfg score probe inPressure now) :
    ((s.update cfg score probe inPressure now).2 = .up ∨
      (s.update cfg score probe inPressure now).2 = .down) ∧
    (s.update cfg score {} inPressure now).2 = .none := by
  have hne := of_decide_eq_true h
  simp only [update] at hne ⊢
  split_ifs at hne ⊢
  · exact absurd rfl hne
  · have hor := verdict_unprobed ((s.intake inPressure now).noteGuards cfg score) cfg score probe
      inPressure now
    rcases hor with hor | hor
    · cases hv : ((s.intake inPressure now).noteGuards cfg score).verdict cfg score probe inPressure
        now <;> simp [hor, hv] at hne ⊢
    · exact absurd (by rw [hor]) hne

/-- The law acts on the record of `current + 2`, and only if it passes the gate. -/
theorem restsOnProbe_eq :
    s.restsOnProbe cfg score probe inPressure now =
      (probe.passes (s.currentMcs + 2) && s.restsOnProbe cfg score probe.ungated inPressure now) := by
  cases h : probe.passes (s.currentMcs + 2)
  · have hheld : s.update cfg score probe inPressure now = s.update cfg score {} inPressure now :=
      update_congr fun s' hs' => verdict_held (hs' ▸ h)
    simp [restsOnProbe, hheld]
  · have hpass :
        s.update cfg score probe inPressure now = s.update cfg score probe.ungated inPressure now :=
      update_congr fun s' hs' => verdict_passes (hs' ▸ h)
    simp [restsOnProbe, hpass]

end Selector

/-- The law acts on a probe record when it is given the rx_ant record `r`. -/
def Lc.heeds (s : Lc) (r : RxAnt) (now : ℕ) (probe : ProbeState) : Bool :=
  s.rxAntOpen && r.ver1 &&
    match (s.scoreOf r now).2 with
    | none => false
    | some score => s.sel.restsOnProbe s.cfg.mcs score probe s.transport.inPressure now

theorem heeds_eq (s : Lc) (r : RxAnt) (now : ℕ) (probe : ProbeState) :
    s.heeds r now probe =
      (probe.passes (s.sel.currentMcs + 2) && s.heeds r now probe.ungated) := by
  unfold Lc.heeds
  cases (s.scoreOf r now).2 with
  | none => simp
  | some score =>
      dsimp only
      rw [Selector.restsOnProbe_eq, Bool.and_left_comm]

/-! ## The log -/

/-- What happened to the probe records and at the gate checks. -/
structure ProbeLog where
  /-- when the last record of a rung was received -/
  receivedUs : ℤ → ℕ := fun _ => 0
  /-- the selector has stayed on its rung since -/
  current : ℤ → Bool := fun _ => false
  /-- the rung the last check found; none so far -/
  checked : ℤ := -2
  /-- when a check last found another rung than the check before it -/
  noticedUs : ℕ := 0

/-- The event changes `sel.current_mcs`, be it only until a failed commit is undone. -/
def Lc.moves (s : Lc) : Event → Bool
  | .rxAnt dt _ _ r _ =>
      (s.judged r (s.clock + dt)).any fun j => decide (j.1.sel.currentMcs ≠ s.sel.currentMcs)
  | e => decide ((s.handle e).1.sel.currentMcs ≠ s.sel.currentMcs)

/-- The log after an event met in `s`. -/
def ProbeLog.note (g : ProbeLog) (s : Lc) : Event → ProbeLog
  | .probeTick dt _ =>
      if s.sel.currentMcs ≠ g.checked then
        { g with checked := s.sel.currentMcs, noticedUs := s.clock + dt }
      else g
  | .probeRec dt r =>
      let mcs := r.mcs.getD (-1)
      if s.rxAntOpen ∧ 0 ≤ mcs ∧ mcs < probeMcsMax then
        { g with
          receivedUs := Function.update g.receivedUs mcs (s.clock + dt)
          current := Function.update g.current mcs true }
      else g
  | e => if s.moves e then { g with current := fun _ => false } else g

/-- The link controller with its log. -/
def evidence : Machine (Lc × ProbeLog) Event Obs where
  step sg e := (((machine.step sg.1 e).1, sg.2.note sg.1 e), (machine.step sg.1 e).2)

/-! ## The events that leave the gate alone -/

/-- The events of the probe stream: the gate check and its records. -/
def Event.probes : Event → Bool
  | .probeTick .. | .probeRec .. => true
  | _ => false

/-- Every other event leaves the records and the gate as they are. -/
theorem handle_steady {e : Event} (h : e.probes = false) (s : Lc) :
    (s.handle e).1.steady.2 = s.steady.2 := by
  cases e with
  | probeTick | probeRec => cases h
  | subscribe dt =>
      simp only [Lc.handle, Lc.subscribe]
      split_ifs <;> rfl
  | radioPoll dt getRadio venc =>
      simp only [Lc.handle, Lc.radioPoll]
      split_ifs <;> rfl
  | httpSet qs => rfl
  | txStats dt dt₁ d venc =>
      simp only [Lc.handle, Lc.txStats]
      split
      · rfl
      · split_ifs <;> rfl
  | stale dt =>
      simp only [Lc.handle, Lc.stale]
      split_ifs <;> rfl
  | sidecar dt dt₁ d setFec venc => exact congrArg Prod.snd (sidecar_steady s d _ _ setFec venc)
  | external air => rfl
  | pendingTick | watchdog | rxAnt =>
      exact congrArg (fun x : Sensors => (x.probe, x.probeGateMcs)) (handle_sensors rfl rfl s)
  | httpCmd | wcmd =>
      exact congrArg (fun x : Sensors => (x.probe, x.probeGateMcs)) (command_sensors rfl rfl s)

/-! ## The claim of the gate -/

/-- The law acts on a record only if the rung has not changed since it was received. -/
def ActsCurrent (sg : Lc × ProbeLog) : Event → Prop
  | .rxAnt dt _ _ r _ =>
      sg.1.heeds r (sg.1.clock + dt) sg.1.probe → sg.2.current (sg.1.sel.currentMcs + 2)
  | _ => True

/-- Where the law would act on a record if there were no gate, and the rung has changed since,
a check has noticed a change after the record was received. -/
def GateNotices (sg : Lc × ProbeLog) : Event → Prop
  | .rxAnt dt _ _ r _ =>
      let v2 := sg.1.sel.currentMcs + 2
      sg.1.heeds r (sg.1.clock + dt) sg.1.probe.ungated → sg.2.current v2 = false →
        sg.2.receivedUs v2 < sg.2.noticedUs
  | _ => True

instance (sg : Lc × ProbeLog) (e : Event) : Decidable (ActsCurrent sg e) := by
  cases e <;> unfold ActsCurrent <;> infer_instance

/-- The gate is stamped by the checks the log noticed, the records by their reception. -/
structure LogInv (s : Lc) (g : ProbeLog) : Prop where
  checked : s.probeGateMcs = g.checked
  noticed : s.probe.gateUs = g.noticedUs
  received : ∀ m, (s.probe.rung m).lastUs = g.receivedUs m

section Step

variable {s : Lc} {g : ProbeLog}

theorem LogInv.passes (h : LogInv s g) (m : ℤ) :
    s.probe.passes m = true ↔ g.noticedUs ≤ g.receivedUs m := by
  rw [ProbeState.passes]
  rw [decide_eq_true_eq, h.noticed, h.received]

/-- Only the gate and the log's own fields are in the invariant. -/
theorem LogInv.of_steady {s' : Lc} {g' : ProbeLog} (h : LogInv s g)
    (hs : s'.steady.2 = s.steady.2) (hc : g'.checked = g.checked)
    (hn : g'.noticedUs = g.noticedUs) (hr : g'.receivedUs = g.receivedUs) : LogInv s' g' := by
  have hp : s'.probe = s.probe := congrArg Prod.fst hs
  have hg : s'.probeGateMcs = s.probeGateMcs := congrArg Prod.snd hs
  constructor
  · rw [hg, hc, h.checked]
  · rw [hp, hn, h.noticed]
  · intro m
    rw [hp, hr, h.received]

theorem probeTick_log (h : LogInv s g) (dt : ℕ) (acked : Bool) :
    LogInv (s.probeTick (s.clock + dt) acked).1 (g.note s (.probeTick dt acked)) := by
  have hgate : LogInv
      (if s.sel.currentMcs ≠ s.probeGateMcs then
        { s with
          probe := { s.probe with gateUs := s.clock + dt }, probeGateMcs := s.sel.currentMcs }
      else s) (g.note s (.probeTick dt acked)) := by
    simp only [ProbeLog.note, ← h.checked]
    by_cases hne : s.sel.currentMcs ≠ s.probeGateMcs
    · rw [if_pos hne, if_pos hne]
      exact ⟨rfl, rfl, h.received⟩
    · rw [if_neg hne, if_neg hne]
      exact h
  unfold Lc.probeTick
  generalize (if s.sel.currentMcs ≠ s.probeGateMcs then _ else s : Lc) = s' at hgate ⊢
  have hkeep {s'' : Lc} (hs : s''.steady.2 = s'.steady.2) :
      LogInv s'' (g.note s (.probeTick dt acked)) := hgate.of_steady hs rfl rfl rfl
  dsimp only
  split_ifs <;> exact hkeep rfl

theorem probeRec_log (h : LogInv s g) (dt : ℕ) (r : ProbeRec) :
    LogInv (s.probeRec r (s.clock + dt)).1 (g.note s (.probeRec dt r)) := by
  simp only [Lc.probeRec, ProbeLog.note]
  by_cases hopen : s.rxAntOpen
  · simp only [hopen, if_true, true_and]
    by_cases hm : 0 ≤ r.mcs.getD (-1) ∧ r.mcs.getD (-1) < probeMcsMax
    · simp only [ProbeState.ingest, if_pos hm]
      refine ⟨h.checked, h.noticed, fun m => ?_⟩
      by_cases hmcs : m = r.mcs.getD (-1)
      · subst hmcs
        simp only [Function.update_self]
      · simp only [Function.update_of_ne hmcs]
        exact h.received m
    · simp only [ProbeState.ingest, if_neg hm]
      exact ⟨h.checked, h.noticed, h.received⟩
  · simp only [hopen, Bool.false_eq_true, if_false, false_and]
    exact h

/-- Every event keeps the log and the gate in step. -/
theorem step_log (h : LogInv s g) (e : Event) : LogInv (s.handle e).1 (g.note s e) := by
  have hother (he : e.probes = false) : LogInv (s.handle e).1
      (if s.moves e then { g with current := fun _ => false } else g) := by
    refine h.of_steady (handle_steady he s) ?_ ?_ ?_ <;> split_ifs <;> rfl
  cases e with
  | probeTick dt acked => exact probeTick_log h dt acked
  | probeRec dt r => exact probeRec_log h dt r
  | _ => exact hother rfl

theorem actsCurrent_iff (h : LogInv s g) (e : Event) :
    ActsCurrent (s, g) e ↔ GateNotices (s, g) e := by
  cases e with
  | rxAnt dt dt₁ dt₂ r io =>
      simp only [ActsCurrent, GateNotices]
      rw [heeds_eq, Bool.and_eq_true, h.passes]
      constructor
      · intro hacts hheeds hold
        by_contra hle
        have hcur := hacts ⟨Nat.not_lt.mp hle, hheeds⟩
        rw [hold] at hcur
        cases hcur
      · rintro hnotices ⟨hpasses, hheeds⟩
        by_contra hold
        exact absurd hpasses (Nat.not_le.mpr (hnotices hheeds (Bool.eq_false_of_not_eq_true hold)))
  | _ => exact Iff.rfl

end Step

theorem Boot.init_log (b : Boot) : LogInv b.init {} := by
  rw [Boot.init]
  dsimp only
  split_ifs <;> exact ⟨rfl, rfl, fun _ => rfl⟩

/-- No probe record is acted on after the rung has changed, over exactly the runs in which a
gate check has noticed every change between a record and its use. -/
theorem probe_evidence_iff (b : Boot) (es : List Event) :
    evidence.Meets ActsCurrent (b.init, {}) es ↔ evidence.Meets GateNotices (b.init, {}) es := by
  have hinv : ∀ (sg : Lc × ProbeLog) (e : Event), LogInv sg.1 sg.2 → True → GateNotices sg e →
      LogInv (evidence.step sg e).1.1 (evidence.step sg e).1.2 := by
    intro sg e h _ _
    have hstep := step_log h e
    exact ⟨hstep.checked, hstep.noticed, hstep.received⟩
  have hiff : ∀ (sg : Lc × ProbeLog) (e : Event), LogInv sg.1 sg.2 → True →
      (ActsCurrent sg e ↔ GateNotices sg e) := fun sg e h _ => actsCurrent_iff h e
  exact Machine.Meets.iff_of_inv hinv hiff b.init_log (Machine.Meets.of_forall fun _ _ => trivial)

/-- The clean record of rung 2 promotes to rung 1, with a SET_RADIO that takes 200 ms to answer;
the record of rung 3, received before that, takes the selector back down in the same turn. -/
def staleTurn : Iter where
  dt := 600000
  served := [
    .probeRec 0 { mcs := some 3, lost := some 50, accounted := some 100 },
    .probeRec 0 { mcs := some 2, lost := some 0, accounted := some 100 },
    .rxAnt 0 0 200000 RxAnt.clean {},
    .rxAnt 0 0 0 RxAnt.clean {}]

theorem probe_evidence_broken :
    ¬∀ (b : Boot) (is : List Iter), evidence.Meets ActsCurrent (b.init, {}) (loopRun is) := by
  intro h
  have hrun := h (.withDefaults { bandwidth := 20 })
    [{ dt := 1000, served := [.rxAnt 0 0 0 RxAnt.clean {}] }, staleTurn]
  exact absurd hrun (by decide +kernel)

end Waybeam.Vehicle
