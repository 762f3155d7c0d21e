/-
# `Waybeam.Vehicle.Pressure` — the age of the backpressure evidence

`in_pressure` reaches the selector through two streams: a sidecar trailer stores it in
`transport`, an rx_ant record hands the stored flag to `selector_update`.  Nothing in
between asks how old it is: `transport.lastUs` is written and never read.

    trailer t, b      transport := (b, t)
    rx_ant now        selector_update … transport.inPressure …

The evidence is fresh when the last trailer said so and is not older than the lifetime of
the sidecar subscription.  It is fresh at every record over exactly the runs in which each
record scored under pressure comes within that lifetime of the stored trailer.
-/
import Waybeam.Vehicle.Frame

namespace Waybeam.Vehicle

/-- The last trailer reported pressure, within the subscription's lifetime. -/
def freshPressure (last : Option (ℕ × Bool)) (now : ℕ) : Bool :=
  last.any fun t => t.2 && decide (now ≤ t.1 + sidecarSubTtlUs)

/-- Remember the last trailer; an update of the selector under pressure needs a fresh one. -/
def pressureMonitor : Monitor Obs (Option (ℕ × Bool)) where
  upd
    | _, .trailer now inPressure => some (now, inPressure)
    | last, _ => last
  ok
    | last, .selectorUpdate now true _ => freshPressure last now
    | _, _ => true

/-- A record scored under pressure comes within the subscription's lifetime of the stored
trailer. -/
def Lc.pressureFresh (s : Lc) : Event → Bool
  | .rxAnt dt _ _ r _ =>
      !(s.judged r (s.clock + dt)).isSome || !s.transport.inPressure ||
        decide (s.clock + dt ≤ s.transport.lastUs + sidecarSubTtlUs)
  | _ => true

/-- The stored transport state is the last trailer. -/
def TransportState.Holds (t : TransportState) (last : Option (ℕ × Bool)) : Prop :=
  (last = none ∧ t.inPressure = false) ∨ last = some (t.lastUs, t.inPressure)

/-- Neither a trailer nor an update of the selector. -/
theorem pressureMonitor_ignores {o : Obs} (ht : ∀ now p, o ≠ .trailer now p)
    (hs : ∀ now p sd, o ≠ .selectorUpdate now p sd) : pressureMonitor.Ignores o := by
  intro last
  cases o <;> first | exact ⟨rfl, rfl⟩ | skip
  · exact absurd rfl (ht _ _)
  · exact absurd rfl (hs _ _ _)

/-- Under the invariant the evidence is what the stored state says. -/
theorem freshPressure_of_holds {t : TransportState} {last : Option (ℕ × Bool)} (h : t.Holds last)
    (hp : t.inPressure = true) (now : ℕ) :
    freshPressure last now = decide (now ≤ t.lastUs + sidecarSubTtlUs) := by
  rcases h with ⟨-, hf⟩ | h
  · rw [hp] at hf
    cases hf
  · rw [h, freshPressure, Option.any_some, hp, Bool.true_and]

/-! ## Steps -/

/-- Every event but a sidecar frame keeps the stored trailer. -/
theorem handle_transport (s : Lc) (e : Event) (hs : e.isSidecar = false) :
    (s.handle e).1.transport = s.transport := by
  cases e with
  | probeTick dt acked =>
      simp only [Lc.handle, Lc.probeTick]
      split_ifs <;> rfl
  | subscribe dt =>
      simp only [Lc.handle, Lc.subscribe]
      split_ifs <;> rfl
  | radioPoll dt getRadio venc =>
      simp only [Lc.handle, Lc.radioPoll]
      split_ifs <;> rfl
  | txStats dt dt₁ d venc =>
      simp only [Lc.handle, Lc.txStats]
      split
      · rfl
      · split_ifs <;> rfl
  | stale dt =>
      simp only [Lc.handle, Lc.stale]
      split_ifs <;> rfl
  | probeRec dt r =>
      simp only [Lc.handle, Lc.probeRec]
      split_ifs <;> rfl
  | httpSet qs => rfl
  | external air => rfl
  | sidecar dt dt₁ d f v => cases hs
  | pendingTick | watchdog | rxAnt => exact congrArg Sensors.transport (handle_sensors rfl rfl s)
  | httpCmd | wcmd => exact congrArg Sensors.transport (command_sensors rfl rfl s)

/-- Past its trailer a frame does not move the stored one. -/
theorem sizeTick_transport (s : Lc) (d : SidecarDgram) (skip : Bool) (now : ℕ)
    (setFec venc : Bool) : (s.sizeTick d skip now setFec venc).1.transport = s.transport := by
  rw [Lc.sizeTick]
  split
  · rfl
  · split
    · rw [Lc.skipped]
      dsimp only
      split
      · split <;> rfl
      · rfl
    · rw [Lc.cleanFrame]
      dsimp only
      split
      · rfl
      · rw [Lc.sendFec]
        simp only [andThen]
        split_ifs <;> rfl

theorem sizeTick_ignored (s : Lc) (d : SidecarDgram) (skip : Bool) (now : ℕ)
    (setFec venc : Bool) :
    ∀ o ∈ (s.sizeTick d skip now setFec venc).2, pressureMonitor.Ignores o := by
  intro o ho
  have hkind := sizeTick_emits s d skip now setFec venc o ho
  refine pressureMonitor_ignores ?_ ?_
  · rintro _ _ rfl
    cases hkind
  · rintro _ _ _ rfl
    cases hkind

/-- A frame leaves the stored trailer the last one, and never needs a fresh one. -/
theorem sidecar_holds {s : Lc} {last : Option (ℕ × Bool)} (h : s.transport.Holds last)
    (d : SidecarDgram) (now nowFec : ℕ) (setFec venc : Bool) :
    pressureMonitor.wp last (s.sidecar d now nowFec setFec venc) fun s' last' =>
      s'.transport.Holds last' := by
  rw [Lc.sidecar]
  split
  · exact wp_pure h
  · refine wp_andThen ?_
    have hrest (s' : Lc) (last' : Option (ℕ × Bool)) (h' : s'.transport.Holds last') :
        pressureMonitor.wp last' (s'.sizeTick d (s.skipFec d) nowFec setFec venc) fun s' last' =>
          s'.transport.Holds last' := by
      refine wp_ignored (sizeTick_ignored _ _ _ _ _ _) ?_
      rw [sizeTick_transport]
      exact h'
    rw [Lc.heard, Lc.readTransport]
    split
    · exact wp_emit rfl (hrest _ _ (.inr rfl))
    · exact wp_pure (hrest _ _ h)

/-- An event that is neither a frame nor a record is not looked at. -/
theorem handle_ignored (s : Lc) (e : Event) (hs : e.isSidecar = false)
    (hr : e.isRecord = false) : ∀ o ∈ (s.handle e).2, pressureMonitor.Ignores o := by
  intro o ho
  have hkind := handle_emits s e o ho
  refine pressureMonitor_ignores ?_ ?_
  · rintro _ _ rfl
    cases e <;> first | exact absurd hs.symm Bool.false_ne_true | exact absurd hkind Bool.false_ne_true
  · rintro _ _ _ rfl
    cases e <;> first | exact absurd hr.symm Bool.false_ne_true | exact absurd hkind Bool.false_ne_true

/-- A record needs fresh evidence iff the law sees it under pressure. -/
theorem rxAnt_accepts (s : Lc) (last : Option (ℕ × Bool)) (r : RxAnt)
    (now nowCommit nowObs : ℕ) (io : RxIo) :
    pressureMonitor.Accepts last (s.rxAnt r now nowCommit nowObs io).2 ↔
      ((s.judged r now).isSome → s.transport.inPressure = true → freshPressure last now = true) := by
  rcases h : s.judged r now with _ | ⟨s', sd⟩
  · obtain ⟨scorer, hr⟩ := rxAnt_none h nowCommit nowObs io
    rw [hr]
    simp
  · have hrest : ∀ o ∈ (s'.act s.sel sd nowCommit nowObs io).2, pressureMonitor.Ignores o := by
      intro o ho
      have hkind := act_emits s' s.sel sd nowCommit nowObs io o ho
      refine pressureMonitor_ignores ?_ ?_
      · rintro _ _ rfl
        cases hkind
      · rintro _ _ _ rfl
        cases hkind
    rw [rxAnt_some h, Monitor.accepts_cons, and_iff_left (Monitor.accepts_of_ignored hrest)]
    cases s.transport.inPressure <;> simp [pressureMonitor]

/-- Every step keeps the stored trailer the last one. -/
theorem step_holds {s : Lc} {last : Option (ℕ × Bool)} (h : s.transport.Holds last) (e : Event) :
    (machine.step s e).1.transport.Holds (pressureMonitor.after last (machine.step s e).2) := by
  cases hs : e.isSidecar
  · have hafter : pressureMonitor.after last (machine.step s e).2 = last := by
      refine pressureMonitor.after_of_kept ?_
      intro o ho last
      have hkind := handle_emits s e o ho
      cases o <;> first | rfl | skip
      cases e <;> first
        | exact absurd hs.symm Bool.false_ne_true
        | exact absurd hkind Bool.false_ne_true
    rw [hafter]
    show (s.handle e).1.transport.Holds last
    rw [handle_transport s e hs]
    exact h
  · cases e with
    | sidecar dt dt₁ d f v => exact (sidecar_holds h d _ _ f v).2
    | _ => cases hs

/-- A step passes the check iff it is no record scored under stale pressure. -/
theorem step_accepts {s : Lc} {last : Option (ℕ × Bool)} (h : s.transport.Holds last) (e : Event) :
    pressureMonitor.Accepts last (machine.step s e).2 ↔ s.pressureFresh e = true := by
  cases hr : e.isRecord
  · have htrue : s.pressureFresh e = true := by
      cases e <;> first | rfl | exact absurd hr.symm Bool.false_ne_true
    refine iff_of_true ?_ htrue
    cases hs : e.isSidecar
    · exact Monitor.accepts_of_ignored (handle_ignored s e hs hr)
    · cases e with
      | sidecar dt dt₁ d f v => exact (sidecar_holds h d _ _ f v).1
      | _ => cases hs
  · cases e with
    | rxAnt dt dt₁ dt₂ r io =>
        refine (rxAnt_accepts s last r _ _ _ io).trans ?_
        cases hp : s.transport.inPressure
        · simp [Lc.pressureFresh, hp]
        · rw [freshPressure_of_holds h hp]
          cases hj : s.judged r (s.clock + dt) <;> simp [Lc.pressureFresh, hj, hp]
    | _ => cases hr

theorem Boot.init_holds (b : Boot) : b.init.transport.Holds none := by
  refine .inl ⟨rfl, ?_⟩
  rw [Boot.init]
  dsimp only
  split_ifs <;> rfl

/-- Without pressure neither rule it gates is in the way: no escape, and a loss rate past the
threshold demotes as soon as a demotion is possible. -/
theorem verdict_of_no_pressure (s : Selector) (cfg : McsConfig) (score : Score)
    (probe : ProbeState) (now : ℕ) :
    s.verdict cfg score probe false now ≠ .escape ∧
      ((cfg.demotePerMilli : ℚ) ≤ score.smoothedLostRatio * 1000 → s.canDemote cfg now = true →
        s.verdict cfg score probe false now = .demote) := by
  constructor
  · rw [Selector.verdict, Selector.escapes]
    simp only [Bool.false_and, Bool.not_false, Bool.true_and]
    split_ifs <;> simp_all
  · intro hloss hcan
    simp [Selector.verdict, hloss, hcan]

/-- Every `selector_update` under pressure has fresh evidence over exactly the runs in which
each record the law sees under pressure comes within the subscription's lifetime of the
stored trailer; without pressure, neither rule it gates is in the way. -/
theorem pressure_fresh_iff (b : Boot) (es : List Event) :
    (pressureMonitor.Accepts none (machine.trace b.init es) ↔
      machine.Meets (fun s e => s.pressureFresh e = true) b.init es) ∧
    ∀ (s : Selector) (cfg : McsConfig) (score : Score) (probe : ProbeState) (now : ℕ),
      s.verdict cfg score probe false now ≠ .escape ∧
        ((cfg.demotePerMilli : ℚ) ≤ score.smoothedLostRatio * 1000 → s.canDemote cfg now = true →
          s.verdict cfg score probe false now = .demote) := by
  refine ⟨?_, verdict_of_no_pressure⟩
  rw [← machine.watch_meets pressureMonitor _ b.init none es]
  exact Machine.accepts_trace_iff (q := fun (sg : Lc × _) e => sg.1.pressureFresh e = true)
    (fun s last e h _ => step_holds h e) (fun s last e h => step_accepts h e) b.init_holds es

/-- A record under pressure six seconds after the only trailer. -/
theorem pressure_stale :
    ¬∀ (b : Boot) (is : List Iter),
      pressureMonitor.Accepts none (machine.trace b.init (loopRun is)) := fun h =>
  absurd
    (h (.withDefaults { bandwidth := 20 }) [
      { dt := 1000
        served := [.sidecar 0 0 ⟨80, true, true, true, 1000000, 12000, ⟨90, true, 0⟩⟩ true true] },
      { dt := 6000000
        served := [.rxAnt 0 0 0 RxAnt.clean {}] }])
    (by decide +kernel)

end Waybeam.Vehicle
