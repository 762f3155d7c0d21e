/-
# `Waybeam.Vehicle.Ticks` — the FEC controller, tick by tick

Between two ticks others may extend the settling window; nothing else they do to the controller is
read by a tick.  What a tick sees and does is kept as a `TickObs`, so that what is asked of a run can
be asked of these.

    current none         first        out of every grace
    feed-forward applies              unless a step is too recent
    in a grace           -
    settling just over   settled      when the block differs
    otherwise            dwell        `hysteresis`
-/
import Waybeam.Vehicle.Override

namespace Waybeam.Vehicle

/-! ## One decision -/

namespace Controller

variable (c : Controller) (cfg : FecConfig) (now : ℕ) (cand : FecParams)

/-- The anchor and the grace marker follow every tick. -/
def noted (committedKbps : ℤ) : Controller :=
  { c with
    wasInGrace := c.inSettleGrace now
    lastCommittedKbps := if 0 < committedKbps then committedKbps else c.lastCommittedKbps }

/-- A feed-forward step has been committed too recently for another. -/
def ffCooling : Bool :=
  decide (c.ffLastCommitUs ≠ 0) && decide (usOf cfg.ffCooldownS ≠ 0) &&
    decide (now - c.ffLastCommitUs < usOf cfg.ffCooldownS)

theorem judge_none (h : c.current = none) (ffActive : Bool) (committedKbps : ℤ) :
    c.judge cfg now cand ffActive committedKbps =
      if c.inStartupGrace cfg now || c.inSettleGrace now then
        ({ c with wasInGrace := c.inSettleGrace now }, none)
      else ({ c with wasInGrace := c.inSettleGrace now }.commit cand now, some cand) := by
  rw [judge]
  split
  · rfl
  · next cur hcur => cases h.symm.trans hcur

theorem judge_current {cur : FecParams} (h : c.current = some cur) (ffActive : Bool) (committedKbps : ℤ) :
    c.judge cfg now cand ffActive committedKbps =
      if c.ffApplies cfg now cand ffActive cur committedKbps then
        if c.ffCooling cfg now then (c.noted now committedKbps, none)
        else ({ c.noted now committedKbps with ffLastCommitUs := now }.commit cand now, some cand)
      else if c.inStartupGrace cfg now || c.inSettleGrace now then (c.noted now committedKbps, none)
      else if c.wasInGrace && !c.inSettleGrace now then
        if cand.k = cur.k ∧ cand.n = cur.n then (c.noted now committedKbps, none)
        else ((c.noted now committedKbps).commit cand now, some cand)
      else (c.noted now committedKbps).hysteresis cfg now cand cur := by
  have hcool : c.ffCooling cfg now = true ↔ ¬(c.ffLastCommitUs = 0 ∨ usOf cfg.ffCooldownS = 0 ∨
      usOf cfg.ffCooldownS ≤ now - c.ffLastCommitUs) := by
    simp only [ffCooling, Bool.and_eq_true, decide_eq_true_eq, not_or, not_le, and_assoc, ne_eq]
  rw [judge]
  split
  · next hnone => cases hnone.symm.trans h
  · next cur' hcur =>
      obtain rfl : cur = cur' := Option.some.inj (h.symm.trans hcur)
      by_cases hc : c.ffLastCommitUs = 0 ∨ usOf cfg.ffCooldownS = 0 ∨
          usOf cfg.ffCooldownS ≤ now - c.ffLastCommitUs
      · have hno : c.ffCooling cfg now = false := Bool.eq_false_iff.mpr fun hyes => hcool.mp hyes hc
        rw [hno]
        dsimp only
        rw [if_pos hc]
        rfl
      · rw [hcool.mpr hc]
        dsimp only
        rw [if_neg hc]
        rfl

end Controller

/-! ## Runs of ticks -/

/-- Why a block is committed. -/
inductive CommitKind where
  | first
  | feedForward
  | settled
  | dwell
  deriving DecidableEq

/-- What a tick sees, and the commit it makes. -/
structure TickObs where
  now : ℕ
  kbps : ℤ
  /-- the block in force, and the one that is asked for -/
  cur : Option FecParams
  cand : FecParams
  ffActive : Bool
  startup : Bool
  settle : Bool
  cooling : Bool
  moved : Bool
  kind : Option CommitKind

/-- The controller, its window of frame sizes, and the clock. -/
structure Sizer where
  ctrl : Controller := {}
  ring : HeadroomRing := HeadroomRing.init
  clock : ℕ

/-- What happens to it, `dt` after the last time. -/
inductive SizerEvent where
  /-- `controller_update` -/
  | tick (dt frameSize : ℕ) (fps : ℚ) (committedKbps : ℤ)
  /-- `controller_arm_settle`, or what `bitrate_assert` does in its place -/
  | settle (dt : ℕ) (secs : ℚ)

/-- The path that would commit. -/
def Controller.kind (c : Controller) (cfg : FecConfig) (now : ℕ) (cand : FecParams) (ffActive : Bool)
    (committedKbps : ℤ) : CommitKind :=
  match c.current with
  | none => .first
  | some cur =>
      if c.ffApplies cfg now cand ffActive cur committedKbps then .feedForward
      else if c.wasInGrace && !c.inSettleGrace now then .settled
      else .dwell

/-- What the controller sees after it has taken in the frame. -/
def Controller.observe (c : Controller) (cfg : FecConfig) (now : ℕ) (cand : FecParams) (ffActive : Bool)
    (committedKbps : ℤ) : TickObs where
  now := now
  kbps := committedKbps
  cur := c.current
  cand := cand
  ffActive := ffActive
  startup := c.inStartupGrace cfg now
  settle := c.inSettleGrace now
  cooling := c.ffCooling cfg now
  moved := c.opPointMoved cfg committedKbps
  kind :=
    if (c.judge cfg now cand ffActive committedKbps).2.isSome then
      some (c.kind cfg now cand ffActive committedKbps)
    else none

theorem Controller.observe_kind (c : Controller) (cfg : FecConfig) (now : ℕ) (cand : FecParams)
    (ffActive : Bool) (committedKbps : ℤ) :
    (c.observe cfg now cand ffActive committedKbps).kind.isSome =
      c.commitDue cfg now cand ffActive committedKbps := by
  rw [← judge_isSome]
  show (if (c.judge cfg now cand ffActive committedKbps).2.isSome = true then some _ else none).isSome = _
  split
  · next hsome => rw [hsome]; rfl
  · next hnone => rw [Bool.eq_false_iff.mpr hnone]; rfl

/-- A tick after the frame has been taken in: the decision, and what is seen of it. -/
def Controller.tick (c : Controller) (cfg : FecConfig) (ring : HeadroomRing) (now : ℕ) (fps : ℚ)
    (committedKbps : ℤ) : Controller × TickObs :=
  let (cand, ffActive) := c.candidate cfg ring fps committedKbps
  ((c.judge cfg now cand ffActive committedKbps).1, c.observe cfg now cand ffActive committedKbps)

/-- The controller over its ticks. -/
def sizerMachine (cfg : FecConfig) : Machine Sizer SizerEvent TickObs where
  step s
    | .tick dt frameSize fps committedKbps =>
        let now := s.clock + dt
        let (c, ring) := s.ctrl.intake cfg frameSize s.ring now
        let (ctrl, o) := c.tick cfg ring now fps committedKbps
        ({ ctrl, ring, clock := now }, [o])
    | .settle dt secs =>
        let now := s.clock + dt
        ({ s with ctrl := s.ctrl.armSettle now secs, clock := now }, [])

/-- A tick is `controller_update`. -/
theorem sizer_tick (cfg : FecConfig) (s : Sizer) (dt frameSize : ℕ) (fps : ℚ) (committedKbps : ℤ) :
    ((sizerMachine cfg).step s (.tick dt frameSize fps committedKbps)).1 =
      { ctrl := (controllerUpdate s.ctrl cfg frameSize s.ring (s.clock + dt) fps committedKbps).1
        ring := (controllerUpdate s.ctrl cfg frameSize s.ring (s.clock + dt) fps committedKbps).2.1
        clock := s.clock + dt } :=
  rfl

end Waybeam.Vehicle
