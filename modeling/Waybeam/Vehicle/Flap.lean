/-
# `Waybeam.Vehicle.Flap` — the hard flap-freeze

A rung that is demoted from `flap_freeze_count` times in a row, each time within
`flap_freeze_window_s` of the last, is frozen out for `flap_freeze_s`: nothing steps into or
above it.  There is one slot for the frozen rung and its deadline, and the streak is counted
against the re-entry guard.

    the pin           once a rung is frozen until `u`, the selector stays below it before `u`,
                      whatever is latched over it                     (`freeze_pin`)
    the detection     a streak is seen where the guard is on its rung and no freeze is lifted
                      while it grows                                  (`flap_freeze_detected`)

Under a live guard of a higher rung the streak of a lower one stays at one.
-/
import Waybeam.Vehicle.Law

namespace Waybeam.Vehicle

/-! ## What a call does to the freeze -/

/-- Where the law falls back to: `mcs_min`, or `mcs_max` where that is lower. -/
def McsConfig.floor (cfg : McsConfig) : ℤ := clampInt cfg.mcsMin cfg.mcsMax cfg.mcsMin

/-- Records have stopped and the watchdog has not acted on it. -/
def Selector.timedOut (s : Selector) (cfg : McsConfig) (now : ℕ) : Bool :=
  decide (s.lastDatagramUs ≠ 0) && decide (usOf cfg.failsafeTimeoutS ≤ now - s.lastDatagramUs) &&
    !(s.inFailsafe && decide (s.currentMcs = cfg.mcsMin))

/-- The call goes down a rung or to the floor. -/
def SelCall.demotes (cfg : McsConfig) (s : Selector) (now : ℕ) : SelCall → Bool
  | .record _ score probe inPressure =>
      (s.heard cfg score inPressure now).verdict cfg score probe inPressure now = .demote
  | .tick _ => s.timedOut cfg now && cfg.floor < s.currentMcs

/-- The call lifts a freeze that has run out. -/
def SelCall.lifts (s : Selector) (now : ℕ) : SelCall → Bool
  | .record .. => 0 ≤ s.flapFreezeMcs && s.flapFreezeUntilUs ≤ now
  | .tick _ => false

/-- The selector a call decides on: a lifted freeze takes the streak with it. -/
structure Eased (now : ℕ) (e : SelCall) (s s₀ : Selector) : Prop where
  rung : s₀.currentMcs = s.currentMcs
  guardMcs : s₀.flapGuardMcs = s.flapGuardMcs
  lastDemote : s₀.flapLastDemoteUs = s.flapLastDemoteUs
  deadline : s₀.flapFreezeUntilUs = s.flapFreezeUntilUs
  freeze : (s₀.flapFreezeMcs = s.flapFreezeMcs ∧ s₀.flapDemoteStreak = s.flapDemoteStreak) ∨
    (e.lifts s now ∧ s₀.flapFreezeMcs = -1 ∧ s₀.flapDemoteStreak = 0)

/-- The rungs a call may commit to, and what it has checked. -/
inductive Aims (cfg : McsConfig) (now : ℕ) (e : SelCall) (s s₀ : Selector) : ℤ → Prop
  | init (hc : s.currentMcs < 0) : Aims cfg now e s s₀ cfg.mcsMin
  | down (hc : 0 ≤ s.currentMcs) (hd : e.demotes cfg s now) : Aims cfg now e s s₀ (s₀.currentMcs - 1)
  | up (hc : 0 ≤ s.currentMcs) (hfree : s₀.freezeBlocks now = false) :
      Aims cfg now e s s₀ (s₀.currentMcs + 1)
  | floor (hd : cfg.floor < s.currentMcs → e.demotes cfg s now) : Aims cfg now e s s₀ cfg.mcsMin

/-- A call stays on its rung or commits to one it may aim at. -/
inductive Moved (cfg : McsConfig) (now : ℕ) (e : SelCall) (s : Selector) : Selector → Prop
  | stay {s₀ : Selector} (h : Eased now e s s₀) : Moved cfg now e s s₀
  | commit {s₀ : Selector} {target : ℤ} (h : Eased now e s s₀) (ha : Aims cfg now e s s₀ target) :
      Moved cfg now e s (s₀.commit cfg target now)

variable {cfg : McsConfig} {now : ℕ}

theorem Selector.intake_eased (s : Selector) (dt : ℕ) (score : Score) (probe : ProbeState)
    (inPressure : Bool) :
    Eased now (.record dt score probe inPressure) s (s.intake inPressure now) := by
  rw [Selector.intake]
  dsimp only
  split
  · next hlift =>
      refine ⟨rfl, rfl, rfl, rfl, .inr ⟨?_, rfl, rfl⟩⟩
      rw [SelCall.lifts, Bool.and_eq_true, decide_eq_true_eq, decide_eq_true_eq]
      exact hlift
  · exact ⟨rfl, rfl, rfl, rfl, .inl ⟨rfl, rfl⟩⟩

theorem Selector.heard_eased (s : Selector) (dt : ℕ) (score : Score) (probe : ProbeState)
    (inPressure : Bool) :
    Eased now (.record dt score probe inPressure) s (s.heard cfg score inPressure now) :=
  let ⟨h₁, h₂, h₃, h₄, h₅⟩ := s.intake_eased dt score probe inPressure
  ⟨h₁, h₂, h₃, h₄, h₅⟩

/-- What a record does. -/
theorem Selector.update_moved (s : Selector) (dt : ℕ) (score : Score) (probe : ProbeState)
    (inPressure : Bool) :
    Moved cfg now (.record dt score probe inPressure) s
      (s.update cfg score probe inPressure now).1 := by
  have hspec := @verdict_spec cfg score probe inPressure now (s.heard cfg score inPressure now)
  have heased : Eased now (.record dt score probe inPressure) s (s.heard cfg score inPressure now) :=
    s.heard_eased dt score probe inPressure
  rw [update, s.intake_currentMcs]
  split
  · next hcold => exact .commit (s.intake_eased ..) (.init hcold)
  · next hwarm =>
      have hc : 0 ≤ s.currentMcs := not_lt.mp hwarm
      rw [heard] at hspec
      dsimp only
      cases hv : ((s.intake inPressure now).noteGuards cfg score).verdict cfg score probe inPressure now
      all_goals rw [hv] at hspec
      case hold => exact .stay heased
      case demote => exact .commit heased (.down hc (decide_eq_true hv))
      case escape =>
        simp only [escapes, Bool.and_eq_true, Bool.not_eq_true'] at hspec
        exact .commit ⟨heased.rung, heased.guardMcs, heased.lastDemote, heased.deadline, heased.freeze⟩
          (.up hc hspec.1.1.2)
      case promote =>
        simp only [canPromote, Bool.and_eq_true, Bool.not_eq_true'] at hspec
        exact .commit heased (.up hc hspec.1.1.2)

/-- What the watchdog does. -/
theorem Selector.tickNoData_moved (s : Selector) (dt : ℕ) :
    Moved cfg now (.tick dt) s (s.tickNoData cfg now).1 := by
  rw [tickNoData, expireChanges_eq]
  dsimp only
  split_ifs with hcold hearly hdone
  · exact .stay ⟨rfl, rfl, rfl, rfl, .inl ⟨rfl, rfl⟩⟩
  · exact .stay ⟨rfl, rfl, rfl, rfl, .inl ⟨rfl, rfl⟩⟩
  · exact .stay ⟨rfl, rfl, rfl, rfl, .inl ⟨rfl, rfl⟩⟩
  · refine .commit ⟨rfl, rfl, rfl, rfl, .inl ⟨rfl, rfl⟩⟩ (.floor fun habove => ?_)
    simp only [SelCall.demotes, timedOut, Bool.and_eq_true, decide_eq_true_eq, Bool.not_eq_true',
      Bool.and_eq_false_iff, decide_eq_false_iff_not]
    refine ⟨⟨⟨hcold, not_lt.mp hearly⟩, ?_⟩, habove⟩
    rwa [not_and_or, Bool.not_eq_true] at hdone

theorem SelCall.moved (s : Selector) (e : SelCall) : Moved cfg now e s (e.result cfg s now).1 := by
  cases e with
  | record dt score probe inPressure => exact s.update_moved dt score probe inPressure
  | tick dt => exact s.tickNoData_moved dt

/-! ## The pin -/

namespace Selector

variable (s : Selector) (cfg : McsConfig)

/-- The streak after a demotion from `prev`. -/
def streakNext (prev : ℤ) (now : ℕ) : ℤ :=
  if prev = s.flapGuardMcs ∧ s.flapLastDemoteUs ≠ 0 ∧
      now - s.flapLastDemoteUs ≤ usOf cfg.flapFreezeWindowS
  then s.flapDemoteStreak + 1 else 1

/-- The freeze of a demotion from `prev`. -/
theorem noteDemote_freeze (prev : ℤ) (now : ℕ) :
    ((s.noteDemote cfg prev now).flapFreezeMcs, (s.noteDemote cfg prev now).flapFreezeUntilUs) =
      if 0 < cfg.flapFreezeCount ∧ cfg.flapFreezeCount ≤ s.streakNext cfg prev now
      then (prev, now + usOf cfg.flapFreezeS) else (s.flapFreezeMcs, s.flapFreezeUntilUs) := by
  rw [noteDemote, streakNext]
  dsimp only
  split_ifs <;> first | rfl | omega

/-- A commit leaves the freeze, or latches it on the rung it demotes from. -/
theorem commit_freeze (target : ℤ) (now : ℕ) :
    ((s.commit cfg target now).flapFreezeMcs = s.flapFreezeMcs ∧
        (s.commit cfg target now).flapFreezeUntilUs = s.flapFreezeUntilUs) ∨
      (0 ≤ s.currentMcs ∧ clampInt cfg.mcsMin cfg.mcsMax target < s.currentMcs ∧
        (s.commit cfg target now).flapFreezeMcs = s.currentMcs ∧
        (s.commit cfg target now).flapFreezeUntilUs = now + usOf cfg.flapFreezeS) := by
  by_cases h : s.currentMcs = clampInt cfg.mcsMin cfg.mcsMax target
  · rw [s.commit_same cfg now h]
    exact .inl ⟨rfl, rfl⟩
  · have harrived : (s.arrived cfg (clampInt cfg.mcsMin cfg.mcsMax target) now).flapFreezeMcs
          = s.flapFreezeMcs ∧
        (s.arrived cfg (clampInt cfg.mcsMin cfg.mcsMax target) now).flapFreezeUntilUs
          = s.flapFreezeUntilUs := by
      rw [arrived, recordChange, expireChanges_eq]
      exact ⟨rfl, rfl⟩
    rw [s.commit_moved cfg now h]
    split
    · next hdem =>
        have hnote := (s.arrived cfg (clampInt cfg.mcsMin cfg.mcsMax target) now).noteDemote_freeze
          cfg s.currentMcs now
        split at hnote
        · exact .inr ⟨hdem.1, hdem.2, Prod.mk.inj hnote⟩
        · have hkept := Prod.mk.inj hnote
          exact .inl ⟨hkept.1.trans harrived.1, hkept.2.trans harrived.2⟩
    · exact .inl harrived

end Selector

/-- What holds of the freeze at an instant. -/
structure Pinned (cfg : McsConfig) (s : Selector) (now : ℕ) : Prop where
  rung : (s.currentMcs < 0 ∧ s.flapFreezeMcs < 0) ∨
    (0 ≤ cfg.floor ∧ cfg.floor ≤ s.currentMcs ∧ s.currentMcs ≤ cfg.mcsMax)
  fresh : s.flapFreezeUntilUs ≤ now + usOf cfg.flapFreezeS
  pin : 0 ≤ s.flapFreezeMcs → now < s.flapFreezeUntilUs → s.currentMcs < s.flapFreezeMcs

/-- A freeze of `rung` until `u` is still covered by the slot, or over. -/
def Held (rung : ℤ) (u : ℕ) (s : Selector) (now : ℕ) : Prop :=
  u ≤ now ∨ (0 ≤ s.flapFreezeMcs ∧ s.flapFreezeMcs ≤ rung ∧ u ≤ s.flapFreezeUntilUs)

variable {e : SelCall} {s s₀ : Selector}

theorem SelCall.lifts_iff : e.lifts s now = true → 0 ≤ s.flapFreezeMcs ∧ s.flapFreezeUntilUs ≤ now := by
  cases e with
  | record =>
      rw [SelCall.lifts, Bool.and_eq_true, decide_eq_true_eq, decide_eq_true_eq]
      exact id
  | tick => intro h; cases h

theorem Pinned.eased {clock : ℕ} (h : Pinned cfg s clock) (hle : clock ≤ now)
    (hs : Eased now e s s₀) : Pinned cfg s₀ now := by
  have hfresh : s₀.flapFreezeUntilUs ≤ now + usOf cfg.flapFreezeS := by
    rw [hs.deadline]
    exact h.fresh.trans (Nat.add_le_add_right hle _)
  rcases hs.freeze with ⟨hmcs, -⟩ | ⟨-, hmcs, -⟩
  · refine ⟨?_, hfresh, ?_⟩
    · rw [hs.rung, hmcs]
      exact h.rung
    · rw [hs.rung, hmcs, hs.deadline]
      exact fun hpos hlt => h.pin hpos (hle.trans_lt hlt)
  · refine ⟨?_, hfresh, ?_⟩
    · rw [hs.rung, hmcs]
      exact h.rung.imp_left fun hcold => ⟨hcold.1, neg_one_lt_zero⟩
    · rw [hmcs]
      exact fun hpos => absurd hpos (not_le.mpr neg_one_lt_zero)

theorem Held.eased {rung : ℤ} {u clock : ℕ} (h : Held rung u s clock) (hle : clock ≤ now)
    (hs : Eased now e s s₀) : Held rung u s₀ now := by
  rcases h with hover | ⟨hpos, hmcs, hu⟩
  · exact .inl (hover.trans hle)
  · rcases hs.freeze with ⟨hsame, -⟩ | ⟨hlift, -, -⟩
    · refine .inr ?_
      rw [hsame, hs.deadline]
      exact ⟨hpos, hmcs, hu⟩
    · exact .inl (hu.trans (SelCall.lifts_iff hlift).2)

/-- Where a commit may land: the rung it leaves, one above where the freeze allows it, the floor. -/
theorem Aims.lands {target : ℤ} (ha : Aims cfg now e s s₀ target) (hs : Eased now e s s₀)
    (h : Pinned cfg s₀ now) (hpos : 0 ≤ s₀.currentMcs) :
    clampInt cfg.mcsMin cfg.mcsMax target ≤ s₀.currentMcs ∨
      (clampInt cfg.mcsMin cfg.mcsMax target ≤ s₀.currentMcs + 1 ∧ s₀.freezeBlocks now = false) := by
  obtain ⟨-, hfloor, htop⟩ := h.rung.resolve_left fun hcold => absurd hcold.1 (not_lt.mpr hpos)
  cases ha with
  | init hc =>
      rw [← hs.rung] at hc
      exact absurd hc (not_lt.mpr hpos)
  | down hc hd =>
      refine .inl ?_
      rw [McsConfig.floor] at hfloor
      simp only [clampInt] at *
      split_ifs at * <;> omega
  | up hc hfree => exact .inr ⟨clampInt_le_self (hfloor.trans (by omega)), hfree⟩
  | floor hd => exact .inl hfloor

/-- The rung after a commit is inside the window, which is the configuration's own. -/
theorem Aims.rung {target : ℤ} (ha : Aims cfg now e s s₀ target) (hs : Eased now e s s₀)
    (h : Pinned cfg s₀ now) :
    (s₀.currentMcs < 0 ∧ clampInt cfg.mcsMin cfg.mcsMax target < 0) ∨
      (0 ≤ cfg.floor ∧ cfg.floor ≤ clampInt cfg.mcsMin cfg.mcsMax target ∧
        clampInt cfg.mcsMin cfg.mcsMax target ≤ cfg.mcsMax) := by
  have hwindow : cfg.floor ≤ clampInt cfg.mcsMin cfg.mcsMax target ∧
      clampInt cfg.mcsMin cfg.mcsMax target ≤ cfg.mcsMax :=
    ⟨clampInt_lo_le .., clampInt_le_hi ..⟩
  have hcold : s₀.currentMcs < 0 → target = cfg.mcsMin := by
    intro hneg
    rw [hs.rung] at hneg
    cases ha with
    | init => rfl
    | down hc => exact absurd hneg (not_lt.mpr hc)
    | up hc => exact absurd hneg (not_lt.mpr hc)
    | floor => rfl
  rcases h.rung with ⟨hneg, -⟩ | ⟨hfloor, -, -⟩
  · rcases lt_or_ge cfg.floor 0 with hlow | hlow
    · rw [hcold hneg]
      exact .inl ⟨hneg, hlow⟩
    · exact .inr ⟨hlow, hwindow⟩
  · exact .inr ⟨hfloor, hwindow⟩

theorem Pinned.commit {target : ℤ} (h : Pinned cfg s₀ now) (hs : Eased now e s s₀)
    (ha : Aims cfg now e s s₀ target) : Pinned cfg (s₀.commit cfg target now) now := by
  have hrung := s₀.commit_currentMcs cfg target now
  have hland := ha.rung hs h
  rcases s₀.commit_freeze cfg target now with ⟨hmcs, hu⟩ | ⟨hpos, hdown, hmcs, hu⟩
  · refine ⟨?_, ?_, ?_⟩
    · rw [hrung, hmcs]
      rcases hland with ⟨hneg, hlow⟩ | hwindow
      · refine .inl ⟨hlow, ?_⟩
        rcases h.rung with hcold | hwarm
        · exact hcold.2
        · omega
      · exact .inr hwindow
    · rw [hu]
      exact h.fresh
    · rw [hrung, hmcs, hu]
      intro hfrozen hlt
      have hpin := h.pin hfrozen hlt
      have hpos : 0 ≤ s₀.currentMcs := by
        rcases h.rung with hcold | hwarm
        · omega
        · omega
      rcases ha.lands hs h hpos with hle | ⟨hle, hfree⟩
      · exact hle.trans_lt hpin
      · simp only [Selector.freezeBlocks, Bool.and_eq_false_iff, decide_eq_false_iff_not] at hfree
        omega
  · refine ⟨?_, ?_, ?_⟩
    · rw [hrung, hmcs]
      refine .inr (hland.resolve_left fun hneg => ?_)
      exact absurd hneg.1 (not_lt.mpr hpos)
    · rw [hu]
    · rw [hrung, hmcs]
      exact fun _ _ => hdown

/-- A later freeze is on a lower rung and ends no sooner. -/
theorem Held.commit {rung : ℤ} {u : ℕ} (hheld : Held rung u s₀ now)
    (h : Pinned cfg s₀ now) (hu : u ≤ now + usOf cfg.flapFreezeS) (target : ℤ) :
    Held rung u (s₀.commit cfg target now) now := by
  rcases s₀.commit_freeze cfg target now with ⟨hmcs, hend⟩ | ⟨hpos, hdown, hmcs, hend⟩
  · rw [Held, hmcs, hend]
    exact hheld
  · rw [Held, hmcs, hend]
    rcases hheld with hover | ⟨hfrozen, hle, hlt⟩
    · exact .inl hover
    · rcases Nat.lt_or_ge now u with hlive | hover
      · exact .inr ⟨hpos, (h.pin hfrozen (hlive.trans_le hlt)).le.trans hle, hu⟩
      · exact .inl hover

/-- What a call keeps. -/
theorem Pinned.moved {s' : Selector} {clock : ℕ} (h : Pinned cfg s clock) (hle : clock ≤ now)
    (hm : Moved cfg now e s s') :
    Pinned cfg s' now ∧ ∀ rung u, u ≤ now + usOf cfg.flapFreezeS →
      Held rung u s clock → Held rung u s' now := by
  cases hm with
  | stay hs => exact ⟨h.eased hle hs, fun _ _ _ hheld => hheld.eased hle hs⟩
  | commit hs ha =>
      have heased := h.eased hle hs
      exact ⟨heased.commit hs ha, fun _ _ hu hheld => (hheld.eased hle hs).commit heased hu _⟩

theorem pinned_boot (cfg : McsConfig) (clock : ℕ) : Pinned cfg {} clock :=
  ⟨.inl ⟨neg_one_lt_zero, neg_one_lt_zero⟩, Nat.zero_le _,
    fun hpos => absurd hpos (not_le.mpr neg_one_lt_zero)⟩

theorem pinned_run {l : SelLoop} (h : Pinned cfg l.sel l.clock) (es : List SelCall) :
    Pinned cfg ((SelLoop.machine cfg).run l es).sel ((SelLoop.machine cfg).run l es).clock := by
  induction es generalizing l with
  | nil => exact h
  | cons e es ih => exact ih (h.moved (Nat.le_add_right _ _) (e.moved l.sel)).1

/-- A freeze in force. -/
structure Frozen (cfg : McsConfig) (rung : ℤ) (u : ℕ) (l : SelLoop) : Prop where
  pinned : Pinned cfg l.sel l.clock
  fresh : u ≤ l.clock + usOf cfg.flapFreezeS
  held : Held rung u l.sel l.clock

theorem Frozen.moved {rung : ℤ} {u : ℕ} {l : SelLoop} {s' : Selector} (h : Frozen cfg rung u l)
    (hm : Moved cfg (l.clock + e.dt) e l.sel s') : Frozen cfg rung u ⟨s', l.clock + e.dt⟩ := by
  have hle : l.clock ≤ l.clock + e.dt := Nat.le_add_right _ _
  have hfresh : u ≤ l.clock + e.dt + usOf cfg.flapFreezeS :=
    h.fresh.trans (Nat.add_le_add_right hle _)
  obtain ⟨hpinned, hheld⟩ := h.pinned.moved hle hm
  exact ⟨hpinned, hfresh, hheld rung u hfresh h.held⟩

theorem Frozen.run {rung : ℤ} {u : ℕ} {l : SelLoop} (h : Frozen cfg rung u l) (es : List SelCall) :
    Frozen cfg rung u ((SelLoop.machine cfg).run l es) := by
  induction es generalizing l with
  | nil => exact h
  | cons e es ih => exact ih (h.moved (e.moved l.sel))

/-- Before its deadline the selector is below the frozen rung. -/
theorem Frozen.below {rung : ℤ} {u : ℕ} {l : SelLoop} (h : Frozen cfg rung u l)
    (hlive : l.clock < u) : l.sel.currentMcs < rung := by
  obtain ⟨hpos, hle, hu⟩ := h.held.resolve_left (not_le.mpr hlive)
  exact (h.pinned.pin hpos (hlive.trans_le hu)).trans_le hle

/-- Once a rung is frozen the selector is below it until the deadline of that freeze, in the
state that froze it and in every later one. -/
theorem freeze_pin (cfg : McsConfig) (clock : ℕ) (es es' : List SelCall)
    (hfrozen : 0 ≤ ((SelLoop.machine cfg).run { clock := clock } es).sel.flapFreezeMcs)
    (hlive : ((SelLoop.machine cfg).run ((SelLoop.machine cfg).run { clock := clock } es) es').clock
      < ((SelLoop.machine cfg).run { clock := clock } es).sel.flapFreezeUntilUs) :
    ((SelLoop.machine cfg).run ((SelLoop.machine cfg).run { clock := clock } es) es').sel.currentMcs
      < ((SelLoop.machine cfg).run { clock := clock } es).sel.flapFreezeMcs := by
  have hpinned := pinned_run (l := ⟨{}, clock⟩) (pinned_boot cfg clock) es
  have hstart : Frozen cfg ((SelLoop.machine cfg).run { clock := clock } es).sel.flapFreezeMcs
      ((SelLoop.machine cfg).run { clock := clock } es).sel.flapFreezeUntilUs
      ((SelLoop.machine cfg).run { clock := clock } es) :=
    ⟨hpinned, hpinned.fresh, .inr ⟨hfrozen, le_rfl, le_rfl⟩⟩
  exact (hstart.run es').below hlive

/-- Rungs 0 and 1 under a link that only carries 0: three losses on 1, then silence about 2. -/
def trapRun : List SelCall :=
  [.record 1000000 (scoreAt (-40) 0) {} false,
    .record 500000 (scoreAt (-40) 0) (cleanProbe 1500000) false,
    .record 200000 (scoreAt (-40) (1 / 2)) {} false,
    .record 2000000 (scoreAt (-40) 0) (cleanProbe 3700000) false,
    .record 200000 (scoreAt (-40) (1 / 2)) {} false,
    .record 2000000 (scoreAt (-40) 0) (cleanProbe 5900000) false,
    .record 200000 (scoreAt (-40) (1 / 2)) {} false]

/-- Clean probes while the freeze lasts, with a loss of signal between them. -/
def frozenRun : List SelCall :=
  [.record 3000000 (scoreAt (-40) 0) (cleanProbe 9100000) false, .tick 1000000,
    .record 3000000 (scoreAt (-40) 0) (cleanProbe 13100000) false]

theorem freeze_pin_trap :
    (0 ≤ ((SelLoop.machine {}).run { clock := 0 } trapRun).sel.flapFreezeMcs ∧
      ((SelLoop.machine {}).run ((SelLoop.machine {}).run { clock := 0 } trapRun) frozenRun).clock
        < ((SelLoop.machine {}).run { clock := 0 } trapRun).sel.flapFreezeUntilUs) ∧
      ((SelLoop.machine {}).run ((SelLoop.machine {}).run { clock := 0 } trapRun)
        frozenRun).sel.currentMcs
        < ((SelLoop.machine {}).run { clock := 0 } trapRun).sel.flapFreezeMcs := by
  have hfrozen : 0 ≤ ((SelLoop.machine {}).run { clock := 0 } trapRun).sel.flapFreezeMcs := by
    decide +kernel
  have hlive : ((SelLoop.machine {}).run ((SelLoop.machine {}).run { clock := 0 } trapRun)
      frozenRun).clock < ((SelLoop.machine {}).run { clock := 0 } trapRun).sel.flapFreezeUntilUs := by
    decide +kernel
  exact ⟨⟨hfrozen, hlive⟩, freeze_pin {} 0 trapRun frozenRun hfrozen hlive⟩

/-! ## The detection -/

/-- A call that went down from a rung. -/
def SelSeen.demoted (o : SelSeen) : Bool :=
  0 ≤ o.before.currentMcs && o.after.currentMcs < o.before.currentMcs

/-- Demotions in a row from one rung: which, how many, and when the last was. -/
structure Series where
  rung : ℤ
  count : ℕ
  last : ℕ

/-- Another demotion from the rung would be one more of them. -/
def Series.goesOn (cfg : McsConfig) (q : Series) (rung : ℤ) (now : ℕ) : Bool :=
  q.rung = rung && secsOf (now - q.last) ≤ cfg.flapFreezeWindowS

structure FlapHistory where
  series : Option Series := none
  /-- the rungs that failed often enough, each with the end of its freeze on the clock -/
  barred : List (ℤ × ℕ) := []

namespace FlapHistory

variable (cfg : McsConfig) (g : FlapHistory)

/-- How many in a row a demotion makes. -/
def count (rung : ℤ) (now : ℕ) : ℕ :=
  match g.series with
  | some q => if q.goesOn cfg rung now then q.count + 1 else 1
  | none => 1

def upd (o : SelSeen) : FlapHistory :=
  if o.demoted then
    let n := g.count cfg o.before.currentMcs o.now
    { series := some ⟨o.before.currentMcs, n, o.now⟩
      barred :=
        if cfg.flapFreezeCount ≤ n then (o.before.currentMcs, o.now + usOf cfg.flapFreezeS) :: g.barred
        else g.barred }
  else g

/-- The demotion that makes enough of them latches their rung. -/
def latchOk (o : SelSeen) : Bool :=
  !(o.demoted && cfg.flapFreezeCount ≤ g.count cfg o.before.currentMcs o.now) ||
    (o.after.flapFreezeMcs = o.before.currentMcs &&
      o.after.flapFreezeUntilUs = o.now + usOf cfg.flapFreezeS)

/-- A step up stays below every rung whose freeze is not over. -/
def barredOk (o : SelSeen) : Bool :=
  o.after.currentMcs ≤ o.before.currentMcs ||
    g.barred.all fun x => x.2 ≤ o.now || o.after.currentMcs < x.1

end FlapHistory

/-- Enough fast demotions in a row freeze their rung. -/
def flaps (cfg : McsConfig) : Monitor SelSeen FlapHistory :=
  ⟨FlapHistory.upd cfg, fun g o => g.latchOk cfg o && g.barredOk o⟩

/-- A demotion that makes two or more in a row finds the guard on no higher rung; a freeze that
is lifted finds no series it could still go on. -/
def seen (cfg : McsConfig) (l : SelLoop) (g : FlapHistory) (e : SelCall) : Bool :=
  decide (cfg.flapFreezeCount ≤ 1) || g.series.all fun q =>
    (!(e.demotes cfg l.sel (l.clock + e.dt) && q.goesOn cfg l.sel.currentMcs (l.clock + e.dt)) ||
        (l.sel.flapGuardMcs ≤ l.sel.currentMcs && decide (q.last ≠ 0))) &&
      !(e.lifts l.sel (l.clock + e.dt) && q.goesOn cfg q.rung (l.clock + e.dt))

namespace Selector

variable (s : Selector) (cfg : McsConfig)

theorem streakNext_pos {s : Selector} (h : 0 ≤ s.flapDemoteStreak) (prev : ℤ) (now : ℕ) :
    1 ≤ s.streakNext cfg prev now := by
  rw [streakNext]
  split_ifs <;> omega

/-- The guard never drops below the rung that failed. -/
theorem le_noteDemote_guard (prev : ℤ) (now : ℕ) : prev ≤ (s.noteDemote cfg prev now).flapGuardMcs := by
  have hguard : (s.noteDemote cfg prev now).flapGuardMcs =
      if s.flapGuardMcs < prev ∨ usOf cfg.reentryBackoffS < now - s.flapGuardUs then prev
      else s.flapGuardMcs := by
    rw [noteDemote]
    dsimp only
    split_ifs <;> rfl
  rw [hguard]
  split_ifs <;> omega

/-- The streak of a demotion from `prev`. -/
theorem noteDemote_streak (prev : ℤ) (now : ℕ) (hN : 0 < cfg.flapFreezeCount) :
    (s.noteDemote cfg prev now).flapLastDemoteUs = now ∧
      (s.noteDemote cfg prev now).flapDemoteStreak = s.streakNext cfg prev now := by
  rw [noteDemote, streakNext]
  dsimp only
  rw [if_pos hN]
  split_ifs <;> exact ⟨rfl, rfl⟩

/-- A selector with another's flap bookkeeping. -/
def SameFlap (s' : Selector) : Prop :=
  s'.flapGuardMcs = s.flapGuardMcs ∧ s'.flapLastDemoteUs = s.flapLastDemoteUs ∧
    s'.flapDemoteStreak = s.flapDemoteStreak ∧ s'.flapFreezeMcs = s.flapFreezeMcs ∧
    s'.flapFreezeUntilUs = s.flapFreezeUntilUs

theorem arrived_flap (target : ℤ) (now : ℕ) : s.SameFlap (s.arrived cfg target now) := by
  rw [arrived, recordChange, expireChanges_eq]
  exact ⟨rfl, rfl, rfl, rfl, rfl⟩

/-- A commit that is no demotion. -/
theorem commit_calm {target : ℤ} (now : ℕ)
    (h : ¬(0 ≤ s.currentMcs ∧ clampInt cfg.mcsMin cfg.mcsMax target < s.currentMcs)) :
    s.SameFlap (s.commit cfg target now) := by
  by_cases hsame : s.currentMcs = clampInt cfg.mcsMin cfg.mcsMax target
  · rw [s.commit_same cfg now hsame]
    exact ⟨rfl, rfl, rfl, rfl, rfl⟩
  · rw [s.commit_moved cfg now hsame, if_neg h]
    exact s.arrived_flap ..

/-- A commit that is one. -/
theorem commit_demoted {target : ℤ} (now : ℕ) (hN : 0 < cfg.flapFreezeCount)
    (h : 0 ≤ s.currentMcs ∧ clampInt cfg.mcsMin cfg.mcsMax target < s.currentMcs) :
    s.currentMcs ≤ (s.commit cfg target now).flapGuardMcs ∧
      (s.commit cfg target now).flapLastDemoteUs = now ∧
      (s.commit cfg target now).flapDemoteStreak = s.streakNext cfg s.currentMcs now ∧
      (cfg.flapFreezeCount ≤ s.streakNext cfg s.currentMcs now →
        (s.commit cfg target now).flapFreezeMcs = s.currentMcs ∧
          (s.commit cfg target now).flapFreezeUntilUs = now + usOf cfg.flapFreezeS) := by
  rw [s.commit_moved cfg now h.2.ne', if_pos h]
  obtain ⟨hguard, hlast, hstreak, -, -⟩ :=
    s.arrived_flap cfg (clampInt cfg.mcsMin cfg.mcsMax target) now
  have hnext : (s.arrived cfg (clampInt cfg.mcsMin cfg.mcsMax target) now).streakNext cfg
      s.currentMcs now = s.streakNext cfg s.currentMcs now := by
    rw [streakNext, streakNext, hguard, hlast, hstreak]
  obtain ⟨hl, hs⟩ := (s.arrived cfg (clampInt cfg.mcsMin cfg.mcsMax target)
    now).noteDemote_streak cfg s.currentMcs now hN
  refine ⟨le_noteDemote_guard .., hl, hs.trans hnext, fun hmany => ?_⟩
  have hnote := (s.arrived cfg (clampInt cfg.mcsMin cfg.mcsMax target) now).noteDemote_freeze
    cfg s.currentMcs now
  rw [hnext, if_pos ⟨hN, hmany⟩] at hnote
  exact Prod.mk.inj hnote

end Selector

/-- A commit that goes down is the call's demotion. -/
theorem Aims.demotes {target : ℤ} (ha : Aims cfg now e s s₀ target) (hs : Eased now e s s₀)
    (h : Pinned cfg s₀ now)
    (hdown : 0 ≤ s₀.currentMcs ∧ clampInt cfg.mcsMin cfg.mcsMax target < s₀.currentMcs) :
    e.demotes cfg s now := by
  obtain ⟨-, hfloor, htop⟩ := h.rung.resolve_left fun hcold => absurd hcold.1 (not_lt.mpr hdown.1)
  cases ha with
  | init hc =>
      rw [← hs.rung] at hc
      exact absurd hc (not_lt.mpr hdown.1)
  | down hc hd => exact hd
  | up hc hfree =>
      -- one rung up lands no lower than it started
      refine absurd hdown.2 (not_lt.mpr ?_)
      rw [McsConfig.floor] at hfloor
      simp only [clampInt] at *
      split_ifs at * <;> omega
  | floor hd =>
      refine hd ?_
      rw [← hs.rung]
      exact hdown.2

/-! ### The streak and the series -/

theorem Series.goesOn_iff {q : Series} {rung : ℤ} : q.goesOn cfg rung now = true ↔
    q.rung = rung ∧ secsOf (now - q.last) ≤ cfg.flapFreezeWindowS := by
  rw [Series.goesOn, Bool.and_eq_true, decide_eq_true_eq, decide_eq_true_eq]

theorem Series.goesOn_earlier {q : Series} {rung : ℤ} {later : ℕ} (hle : now ≤ later)
    (h : q.goesOn cfg rung later = true) : q.goesOn cfg rung now = true := by
  rw [Series.goesOn_iff] at h ⊢
  exact ⟨h.1, (secsOf_mono (Nat.sub_le_sub_right hle _)).trans h.2⟩

/-- The streak has counted the series, while it can still go on. -/
structure Counted (cfg : McsConfig) (s : Selector) (q : Series) (now : ℕ) : Prop where
  guard : q.rung ≤ s.flapGuardMcs
  last : q.last = s.flapLastDemoteUs
  count : 1 < cfg.flapFreezeCount → ∀ later ≥ now, q.goesOn cfg q.rung later →
    (q.count : ℤ) ≤ s.flapDemoteStreak

structure FlapInv (cfg : McsConfig) (l : SelLoop) (g : FlapHistory) : Prop where
  pinned : Pinned cfg l.sel l.clock
  streak : 0 ≤ l.sel.flapDemoteStreak
  counted : ∀ q ∈ g.series, Counted cfg l.sel q l.clock
  barred : ∀ x ∈ g.barred, Frozen cfg x.1 x.2 l

theorem flapInv_boot (cfg : McsConfig) (clock : ℕ) : FlapInv cfg { clock := clock } {} where
  pinned := pinned_boot cfg clock
  streak := le_rfl
  counted q hq := absurd hq (Option.not_mem_none q)
  barred _ hx := absurd hx List.not_mem_nil

/-- A selector that a call has only looked at keeps what is counted. -/
theorem Counted.eased {q : Series} {clock : ℕ} (h : Counted cfg s q clock) (hle : clock ≤ now)
    (hs : Eased now e s s₀)
    (hlift : 1 < cfg.flapFreezeCount → e.lifts s now → q.goesOn cfg q.rung now = false) :
    Counted cfg s₀ q now := by
  refine ⟨?_, ?_, fun hN later hlater hgoes => ?_⟩
  · rw [hs.guardMcs]
    exact h.guard
  · rw [hs.lastDemote]
    exact h.last
  · rcases hs.freeze with ⟨-, hstreak⟩ | ⟨hlifted, -, -⟩
    · rw [hstreak]
      exact h.count hN later (hle.trans hlater) hgoes
    · have hnow := Series.goesOn_earlier hlater hgoes
      rw [hlift hN hlifted] at hnow
      cases hnow

theorem Counted.same {q : Series} {s' : Selector} (h : Counted cfg s q now) (hs : s.SameFlap s') :
    Counted cfg s' q now := by
  obtain ⟨hguard, hlast, hstreak, -, -⟩ := hs
  refine ⟨?_, ?_, ?_⟩
  · rw [hguard]
    exact h.guard
  · rw [hlast]
    exact h.last
  · rw [hstreak]
    exact h.count

/-- A demotion that goes on with the series is counted by the streak. -/
theorem Counted.streakNext {q : Series} (h : Counted cfg s₀ q now) (hN : 1 < cfg.flapFreezeCount)
    (hgoes : q.goesOn cfg s₀.currentMcs now) (hguard : s₀.flapGuardMcs ≤ s₀.currentMcs)
    (hlast : q.last ≠ 0) : ((q.count + 1 : ℕ) : ℤ) ≤ s₀.streakNext cfg s₀.currentMcs now := by
  obtain ⟨hrung, hfast⟩ := Series.goesOn_iff.mp hgoes
  have hon : s₀.currentMcs = s₀.flapGuardMcs := by
    have := h.guard
    omega
  have hwindow : now - q.last ≤ usOf cfg.flapFreezeWindowS := by
    refine (secsOf_le_iff (le_trans ?_ hfast)).mp hfast
    rw [secsOf]
    positivity
  have hcount := h.count hN now le_rfl (hrung ▸ hgoes)
  rw [h.last] at hlast hwindow
  rw [Selector.streakNext, if_pos ⟨hon, hlast, hwindow⟩]
  push_cast
  omega

/-- What `seen` says where the count matters. -/
theorem seen_iff {l : SelLoop} {g : FlapHistory} : seen cfg l g e = true ↔
    (1 < cfg.flapFreezeCount → ∀ q ∈ g.series,
      (e.demotes cfg l.sel (l.clock + e.dt) → q.goesOn cfg l.sel.currentMcs (l.clock + e.dt) →
        l.sel.flapGuardMcs ≤ l.sel.currentMcs ∧ q.last ≠ 0) ∧
      (e.lifts l.sel (l.clock + e.dt) → q.goesOn cfg q.rung (l.clock + e.dt) = false)) := by
  rw [seen, Bool.or_eq_true, decide_eq_true_eq, or_iff_not_imp_left, not_le]
  refine imp_congr_right fun _ => ?_
  cases g.series with
  | none => simp
  | some q =>
      simp only [Option.all_some, Bool.and_eq_true, Bool.or_eq_true, Bool.not_eq_true',
        Bool.and_eq_false_iff, decide_eq_true_eq, Option.mem_def, Option.some.injEq, forall_eq']
      grind

/-- How many in a row the code sees, where nothing is in the way. -/
theorem FlapInv.streakNext {l : SelLoop} {g : FlapHistory} (h : FlapInv cfg l g)
    (hseen : seen cfg l g e) (hs : Eased (l.clock + e.dt) e l.sel s₀)
    (hd : e.demotes cfg l.sel (l.clock + e.dt)) (hpos : 0 ≤ s₀.flapDemoteStreak) (hN : 1 < cfg.flapFreezeCount) :
    (g.count cfg l.sel.currentMcs (l.clock + e.dt) : ℤ) ≤
      s₀.streakNext cfg s₀.currentMcs (l.clock + e.dt) := by
  rw [FlapHistory.count]
  cases hq : g.series with
  | none => exact s₀.streakNext_pos cfg hpos _ _
  | some q =>
      obtain ⟨hguard, hlift⟩ := seen_iff.mp hseen hN q hq
      dsimp only
      split
      · next hgoes =>
          obtain ⟨hle, hlast⟩ := hguard hd hgoes
          have hcounted := (h.counted q hq).eased (Nat.le_add_right _ _) hs fun _ => hlift
          rw [← hs.rung] at hgoes hle
          rw [← hs.guardMcs] at hle
          exact hcounted.streakNext hN hgoes hle hlast
      · exact s₀.streakNext_pos cfg hpos _ _

/-- The streak is a count. -/
theorem Eased.streak (hs : Eased now e s s₀) (h : 0 ≤ s.flapDemoteStreak) :
    0 ≤ s₀.flapDemoteStreak := by
  rcases hs.freeze with ⟨-, hsame⟩ | ⟨-, -, hzero⟩
  · rw [hsame]
    exact h
  · rw [hzero]

theorem SelSeen.demoted_iff {o : SelSeen} : o.demoted = true ↔
    0 ≤ o.before.currentMcs ∧ o.after.currentMcs < o.before.currentMcs := by
  rw [SelSeen.demoted, Bool.and_eq_true, decide_eq_true_eq, decide_eq_true_eq]

theorem barredOk_of_frozen {g : FlapHistory} {o : SelSeen}
    (h : ∀ x ∈ g.barred, Frozen cfg x.1 x.2 ⟨o.after, o.now⟩) : g.barredOk o = true := by
  rw [FlapHistory.barredOk, Bool.or_eq_true, List.all_eq_true]
  refine .inr fun x hx => ?_
  rw [Bool.or_eq_true, decide_eq_true_eq, decide_eq_true_eq]
  exact (Nat.lt_or_ge o.now x.2).symm.imp_right (h x hx).below

/-- A call that commits no demotion. -/
theorem FlapInv.calm {l : SelLoop} {g : FlapHistory} {s' : Selector} (h : FlapInv cfg l g)
    (hseen : seen cfg l g e) (hs : Eased (l.clock + e.dt) e l.sel s₀)
    (hm : Moved cfg (l.clock + e.dt) e l.sel s') (hsame : s₀.SameFlap s')
    (hup : ¬(0 ≤ l.sel.currentMcs ∧ s'.currentMcs < l.sel.currentMcs)) (decision : SelectDecision) :
    (flaps cfg).wp g (⟨s', l.clock + e.dt⟩, [⟨e, l.clock + e.dt, l.sel, s', decision⟩])
      (FlapInv cfg) := by
  have hle : l.clock ≤ l.clock + e.dt := Nat.le_add_right _ _
  have hfrozen : ∀ x ∈ g.barred, Frozen cfg x.1 x.2 ⟨s', l.clock + e.dt⟩ :=
    fun x hx => (h.barred x hx).moved hm
  have hcalm : SelSeen.demoted ⟨e, l.clock + e.dt, l.sel, s', decision⟩ = false := by
    rw [← Bool.not_eq_true, SelSeen.demoted_iff]
    exact hup
  refine wp_emit ?_ ?_
  · show (FlapHistory.latchOk cfg g _ && g.barredOk _) = true
    rw [FlapHistory.latchOk, hcalm, barredOk_of_frozen hfrozen]
    rfl
  · show FlapInv cfg _ (FlapHistory.upd cfg g _)
    rw [FlapHistory.upd, hcalm, if_neg Bool.false_ne_true]
    refine ⟨(h.pinned.moved hle hm).1, ?_, fun q hq => ?_, hfrozen⟩
    · rw [hsame.2.2.1]
      exact hs.streak h.streak
    · exact ((h.counted q hq).eased hle hs fun hN => (seen_iff.mp hseen hN q hq).2).same hsame

/-- One that does. -/
theorem FlapInv.demoted {l : SelLoop} {g : FlapHistory} {target : ℤ} (hN : 0 < cfg.flapFreezeCount)
    (h : FlapInv cfg l g) (hseen : seen cfg l g e) (hs : Eased (l.clock + e.dt) e l.sel s₀)
    (ha : Aims cfg (l.clock + e.dt) e l.sel s₀ target)
    (hdown : 0 ≤ s₀.currentMcs ∧ clampInt cfg.mcsMin cfg.mcsMax target < s₀.currentMcs)
    (decision : SelectDecision) :
    (flaps cfg).wp g (⟨s₀.commit cfg target (l.clock + e.dt), l.clock + e.dt⟩,
      [⟨e, l.clock + e.dt, l.sel, s₀.commit cfg target (l.clock + e.dt), decision⟩]) (FlapInv cfg) := by
  have hle : l.clock ≤ l.clock + e.dt := Nat.le_add_right _ _
  have hm : Moved cfg (l.clock + e.dt) e l.sel (s₀.commit cfg target (l.clock + e.dt)) := .commit hs ha
  have hpinned := (h.pinned.moved hle hm).1
  have hpos := hs.streak h.streak
  have hd := ha.demotes hs (h.pinned.eased hle hs) hdown
  have hfrozen : ∀ x ∈ g.barred, Frozen cfg x.1 x.2
      ⟨s₀.commit cfg target (l.clock + e.dt), l.clock + e.dt⟩ := fun x hx => (h.barred x hx).moved hm
  obtain ⟨hguard, hlast, hnext, hlatch⟩ := s₀.commit_demoted cfg (l.clock + e.dt) hN hdown
  have hcount := h.streakNext hseen hs hd hpos
  rw [hs.rung] at hguard hnext hlatch hcount
  have hmany : cfg.flapFreezeCount ≤ g.count cfg l.sel.currentMcs (l.clock + e.dt) →
      cfg.flapFreezeCount ≤ s₀.streakNext cfg l.sel.currentMcs (l.clock + e.dt) := by
    intro hn
    rcases lt_or_ge 1 cfg.flapFreezeCount with hgt | hle
    · exact hn.trans (hcount hgt)
    · exact hle.trans (s₀.streakNext_pos cfg hpos _ _)
  have hdem : SelSeen.demoted ⟨e, l.clock + e.dt, l.sel, s₀.commit cfg target (l.clock + e.dt),
      decision⟩ = true := by
    rw [SelSeen.demoted_iff]
    show 0 ≤ l.sel.currentMcs ∧ (s₀.commit cfg target (l.clock + e.dt)).currentMcs < l.sel.currentMcs
    rw [s₀.commit_currentMcs, ← hs.rung]
    exact hdown
  refine wp_emit ?_ ?_
  · show (FlapHistory.latchOk cfg g _ && g.barredOk _) = true
    rw [barredOk_of_frozen hfrozen, Bool.and_true, FlapHistory.latchOk, hdem, Bool.true_and,
      Bool.or_eq_true, Bool.and_eq_true, decide_eq_true_eq, decide_eq_true_eq, Bool.not_eq_true',
      decide_eq_false_iff_not, or_iff_not_imp_left, not_not]
    exact fun hn => hlatch (hmany hn)
  · show FlapInv cfg _ (FlapHistory.upd cfg g _)
    rw [FlapHistory.upd, if_pos hdem]
    refine ⟨hpinned, ?_, ?_, ?_⟩
    · rw [hnext]
      exact zero_le_one.trans (s₀.streakNext_pos cfg hpos _ _)
    · intro q hq
      obtain rfl := Option.some.inj hq
      refine ⟨hguard, hlast.symm, fun hgt _ _ _ => ?_⟩
      rw [hnext]
      exact hcount hgt
    · intro x hx
      dsimp only at hx
      split at hx
      · next hn =>
          rcases List.mem_cons.mp hx with rfl | hold
          · obtain ⟨hmcs, hu⟩ := hlatch (hmany hn)
            refine ⟨hpinned, le_rfl, .inr ⟨?_, hmcs.le, hu.ge⟩⟩
            rw [hmcs, ← hs.rung]
            exact hdown.1
          · exact hfrozen x hold
      · exact hfrozen x hx

theorem flaps_moved {l : SelLoop} {g : FlapHistory} {s' : Selector} (hN : 0 < cfg.flapFreezeCount)
    (h : FlapInv cfg l g) (hseen : seen cfg l g e) (hm : Moved cfg (l.clock + e.dt) e l.sel s')
    (decision : SelectDecision) :
    (flaps cfg).wp g (⟨s', l.clock + e.dt⟩, [⟨e, l.clock + e.dt, l.sel, s', decision⟩])
      (FlapInv cfg) := by
  cases hm with
  | stay hs =>
      refine h.calm hseen hs (.stay hs) ⟨rfl, rfl, rfl, rfl, rfl⟩ ?_ decision
      rw [hs.rung]
      exact fun hdown => lt_irrefl _ hdown.2
  | @commit s₀ target hs ha =>
      by_cases hdown : 0 ≤ s₀.currentMcs ∧ clampInt cfg.mcsMin cfg.mcsMax target < s₀.currentMcs
      · exact h.demoted hN hseen hs ha hdown decision
      · refine h.calm hseen hs (.commit hs ha) (s₀.commit_calm cfg _ hdown) ?_ decision
        rw [← hs.rung, s₀.commit_currentMcs]
        exact hdown

/-- In every run whose series meet a guard on their own rung and no freeze lifted while they
grow, `flap_freeze_count` fast demotions in a row freeze their rung for `flap_freeze_s`. -/
theorem flap_freeze_detected (cfg : McsConfig) (hN : 0 < cfg.flapFreezeCount) (clock : ℕ)
    (es : List SelCall)
    (hseen : ((SelLoop.machine cfg).watch (flaps cfg)).Meets (fun lg e => seen cfg lg.1 lg.2 e)
      ({ clock := clock }, {}) es) :
    (flaps cfg).Accepts {} ((SelLoop.machine cfg).trace { clock := clock } es) := by
  have hstep : ∀ l g e, FlapInv cfg l g → seen cfg l g e →
      (flaps cfg).wp g ((SelLoop.machine cfg).step l e) (FlapInv cfg) :=
    fun l g e h hs => flaps_moved hN h hs (e.moved l.sel) _
  exact (Machine.run_wp_watch hstep (flapInv_boot cfg clock) hseen).1

/-- The trap with the defaults is such a run, and latches at its third loss. -/
theorem flap_freeze_detected_trap :
    (0 < ({} : McsConfig).flapFreezeCount ∧
      ((SelLoop.machine {}).watch (flaps {})).Meets (fun lg e => seen {} lg.1 lg.2 e)
        ({ clock := 0 }, {}) trapRun) ∧
      (flaps {}).Accepts {} ((SelLoop.machine {}).trace { clock := 0 } trapRun) := by
  have hN : 0 < ({} : McsConfig).flapFreezeCount := by decide
  have hseen : ((SelLoop.machine {}).watch (flaps {})).Meets (fun lg e => seen {} lg.1 lg.2 e)
      ({ clock := 0 }, {}) trapRun := by
    decide +kernel
  exact ⟨⟨hN, hseen⟩, flap_freeze_detected {} hN 0 trapRun hseen⟩

/-- Up to rung 3, two losses down to 1, and two more losses on 2 while the guard is on 3. -/
def cascadeRun : List SelCall :=
  [.record 1000000 (scoreAt (-40) 0) {} false,
    .record 500000 (scoreAt (-40) 0) (cleanProbe 1500000) false,
    .record 500000 (scoreAt (-40) 0) (cleanProbe 2000000) false,
    .record 500000 (scoreAt (-40) 0) (cleanProbe 2500000) false,
    .record 200000 (scoreAt (-40) (1 / 2)) {} false,
    .record 200000 (scoreAt (-40) (1 / 2)) {} false,
    .record 500000 (scoreAt (-40) 0) (cleanProbe 3400000) false,
    .record 200000 (scoreAt (-40) (1 / 2)) {} false,
    .record 500000 (scoreAt (-40) 0) (cleanProbe 4100000) false,
    .record 200000 (scoreAt (-40) (1 / 2)) {} false]

/-- The third loss in a row on rung 2 is not seen. -/
theorem flap_freeze_missed : ¬ ∀ cfg : McsConfig, 0 < cfg.flapFreezeCount → 0 < cfg.flapFreezeS →
    ∀ clock es, (flaps cfg).Accepts {} ((SelLoop.machine cfg).trace { clock := clock } es) := by
  intro hall
  have hrun := hall {} (by decide) (by decide +kernel) 0 cascadeRun
  revert hrun
  decide +kernel

end Waybeam.Vehicle
