/-
# `Waybeam.Vehicle.Absorb` — the operating point and its anchor

A tick compares the committed bitrate with an anchor and then moves the anchor, whatever it commits.

    write, then tick     the two tolerances agree: the tick that follows a write sees the move, and
                         one that follows none sees no move (`gate_agrees`)
    move, then cooldown  the tick that sees the move may not commit, and the next one no longer sees
                         it: what was held back is left to the slow path (`held_iff`)
-/
import Waybeam.Vehicle.Ticks

namespace Waybeam.Vehicle

/-! ## The anchor -/

namespace Controller

variable (c : Controller) (cfg : FecConfig) (now : ℕ) (cand : FecParams)

theorem hysteresis_anchor (cur : FecParams) :
    (c.hysteresis cfg now cand cur).1.lastCommittedKbps = c.lastCommittedKbps := by
  rw [hysteresis]
  dsimp only
  split_ifs <;> rfl

/-- The anchor follows the bitrate from the first block on. -/
theorem judge_anchor (ffActive : Bool) (committedKbps : ℤ) :
    (c.judge cfg now cand ffActive committedKbps).1.lastCommittedKbps =
      if c.current.isSome ∧ 0 < committedKbps then committedKbps else c.lastCommittedKbps := by
  cases hcur : c.current with
  | none =>
      rw [judge_none c cfg now cand hcur]
      split <;> rfl
  | some cur =>
      have hnoted : (c.noted now committedKbps).lastCommittedKbps =
          if 0 < committedKbps then committedKbps else c.lastCommittedKbps := rfl
      rw [judge_current c cfg now cand hcur, Option.isSome_some]
      simp only [true_and]
      rw [← hnoted]
      split_ifs
      all_goals first
        | rfl
        | exact hysteresis_anchor _ cfg now cand cur

variable {c cfg now cand}

theorem moved_at_anchor {committedKbps : ℤ} (h : c.lastCommittedKbps = committedKbps)
    (hpos : 0 < committedKbps) : c.opPointMoved cfg committedKbps = decide (cfg.bitrateTolerance < 0) := by
  have hq : (0 : ℚ) < committedKbps := by exact_mod_cast hpos
  have hsame : |((committedKbps - committedKbps : ℤ) : ℚ)| = 0 := by
    rw [sub_self, Int.cast_zero, abs_zero]
  rw [opPointMoved, h, hsame, decide_eq_false (not_le.mpr hpos), Bool.false_or]
  exact decide_eq_decide.mpr ⟨fun hneg => neg_of_mul_neg_left hneg hq.le, fun hneg => mul_neg_of_neg_of_pos hneg hq⟩

end Controller

/-! ## Moves that are held back -/

/-- The block that is asked for has another `k`. -/
def TickObs.differs (o : TickObs) : Bool := o.cur.any fun cur => o.cand.k != cur.k

/-- A move that asks for another `k`, too soon after the last step. -/
def TickObs.holds (o : TickObs) : Bool :=
  o.ffActive && !o.startup && o.differs && o.moved && o.cooling

/-- The cooldown is over and another `k` is still asked for. -/
def TickObs.due (o : TickObs) : Bool := o.ffActive && !o.startup && o.differs && !o.cooling

/-- The bitrate of a move that was held back: until a block is committed, or the bitrate is another.
Where it is still due it must be committed. -/
def heldMoves : Monitor TickObs (Option ℤ) where
  upd held o :=
    if o.kind.isSome then none
    else if o.holds then some o.kbps
    else if held = some o.kbps then held
    else none
  ok held o := !(decide (held = some o.kbps) && o.due) || o.kind.isSome

namespace Controller

variable (c : Controller) (cfg : FecConfig) (now : ℕ) (cand : FecParams)

/-- Outside of feed-forward, and of the startup grace, the tick commits. -/
def slowDue (cur : FecParams) : Bool :=
  !c.inSettleGrace now && (c.wasInGrace || c.hysteresisDue cfg now cand cur)

variable {c cfg now cand}

theorem commitDue_of_due {ffActive : Bool} {committedKbps : ℤ} {cur : FecParams}
    (hcur : c.current = some cur)
    (hdue : (c.observe cfg now cand ffActive committedKbps).due = true) :
    c.commitDue cfg now cand ffActive committedKbps =
      (c.opPointMoved cfg committedKbps || c.slowDue cfg now cand cur) := by
  have hdiffers : (c.observe cfg now cand ffActive committedKbps).differs = (cand.k != cur.k) := by
    show c.current.any _ = _
    rw [hcur]
    rfl
  simp only [TickObs.due, hdiffers, Bool.and_eq_true, Bool.not_eq_true'] at hdue
  obtain ⟨⟨⟨hff, hstartup⟩, hk⟩, hcool⟩ := hdue
  have hff : ffActive = true := hff
  have hstartup : c.inStartupGrace cfg now = false := hstartup
  have hopen : c.ffLastCommitUs = 0 ∨ usOf cfg.ffCooldownS = 0 ∨
      usOf cfg.ffCooldownS ≤ now - c.ffLastCommitUs := by
    by_contra hclosed
    obtain ⟨hlast, hcd, hnear⟩ := not_or.mp hclosed |>.imp_right not_or.mp
    have hyes : c.ffCooling cfg now = true := by
      rw [ffCooling, decide_eq_true hlast, decide_eq_true hcd, decide_eq_true (not_le.mp hnear)]
      rfl
    exact Bool.false_ne_true (hcool.symm.trans hyes)
  have hne : ¬(cand.k = cur.k ∧ cand.n = cur.n) := fun heq => bne_iff_ne.mp hk heq.1
  simp only [commitDue, hcur, replaceDue, ffApplies, slowDue, hff, hstartup, hk, Bool.not_false,
    Bool.true_and, Bool.false_or, decide_eq_true hopen, decide_eq_true hne]
  cases c.opPointMoved cfg committedKbps <;> cases c.inSettleGrace now <;> cases c.wasInGrace <;> rfl

end Controller

/-- Wherever a held move is due, the slow path happens to commit. -/
def SlowAnyway (cfg : FecConfig) (sg : Sizer × Option ℤ) : SizerEvent → Prop
  | .settle .. => True
  | .tick dt frameSize fps committedKbps =>
      let now := sg.1.clock + dt
      let (c, ring) := sg.1.ctrl.intake cfg frameSize sg.1.ring now
      let (cand, ffActive) := c.candidate cfg ring fps committedKbps
      sg.2 = some committedKbps → (c.observe cfg now cand ffActive committedKbps).due = true →
        cfg.bitrateTolerance < 0 ∨ c.current.any (c.slowDue cfg now cand) = true

/-- The anchor is where the held move went. -/
def AtAnchor (c : Controller) (held : Option ℤ) : Prop :=
  ∀ kbps, held = some kbps → 0 < kbps ∧ c.lastCommittedKbps = kbps

variable {cfg : FecConfig} {c : Controller} {now : ℕ} {cand : FecParams} {ffActive : Bool}
  {committedKbps : ℤ} {held : Option ℤ}

theorem judge_atAnchor (h : AtAnchor c held) (hff : ffActive = true → 0 < committedKbps) :
    AtAnchor (c.judge cfg now cand ffActive committedKbps).1
      (heldMoves.upd held (c.observe cfg now cand ffActive committedKbps)) := by
  have hanchor := c.judge_anchor cfg now cand ffActive committedKbps
  intro kbps hkbps
  simp only [heldMoves] at hkbps
  split at hkbps
  · cases hkbps
  · split at hkbps
    · next hholds =>
        obtain rfl : committedKbps = kbps := Option.some.inj hkbps
        simp only [TickObs.holds, Bool.and_eq_true] at hholds
        obtain ⟨⟨⟨⟨hactive, -⟩, hdiffers⟩, -⟩, -⟩ := hholds
        have hpos := hff hactive
        obtain ⟨cur, hcur, -⟩ := (Option.any_eq_true _ _).mp hdiffers
        have hsome : c.current.isSome = true := Option.isSome_iff_exists.mpr ⟨cur, hcur⟩
        exact ⟨hpos, hanchor.trans (if_pos ⟨hsome, hpos⟩)⟩
    · split at hkbps
      · next hsame =>
          have hsame : held = some committedKbps := hsame
          obtain rfl : committedKbps = kbps := Option.some.inj (hsame.symm.trans hkbps)
          obtain ⟨hpos, hat⟩ := h _ hsame
          refine ⟨hpos, hanchor.trans ?_⟩
          split
          · rfl
          · exact hat
      · cases hkbps

theorem held_ok_iff (h : AtAnchor c held) :
    heldMoves.ok held (c.observe cfg now cand ffActive committedKbps) = true ↔
      (held = some committedKbps → (c.observe cfg now cand ffActive committedKbps).due = true →
        cfg.bitrateTolerance < 0 ∨ c.current.any (c.slowDue cfg now cand) = true) := by
  have hok : heldMoves.ok held (c.observe cfg now cand ffActive committedKbps) = true ↔
      (held = some committedKbps → (c.observe cfg now cand ffActive committedKbps).due = true →
        c.commitDue cfg now cand ffActive committedKbps = true) := by
    rw [← Controller.observe_kind]
    simp only [heldMoves, Bool.or_eq_true, Bool.not_eq_true', Bool.and_eq_false_iff,
      decide_eq_false_iff_not]
    show (held ≠ some committedKbps ∨ _) ∨ _ ↔ _
    cases (c.observe cfg now cand ffActive committedKbps).due <;>
      cases (c.observe cfg now cand ffActive committedKbps).kind.isSome <;> simp
  rw [hok]
  refine imp_congr_right fun hheld => imp_congr_right fun hdue => ?_
  obtain ⟨hpos, hat⟩ := h _ hheld
  have hdiffers : (c.observe cfg now cand ffActive committedKbps).differs = true := by
    simp only [TickObs.due, Bool.and_eq_true] at hdue
    exact hdue.1.2
  obtain ⟨cur, hcur, -⟩ := (Option.any_eq_true _ _).mp hdiffers
  have hcur : c.current = some cur := hcur
  rw [Controller.commitDue_of_due hcur hdue, Controller.moved_at_anchor hat hpos, hcur, Bool.or_eq_true,
    decide_eq_true_iff]
  rfl

theorem candidate_ff (c : Controller) (ring : HeadroomRing) (fps : ℚ)
    (h : (c.candidate cfg ring fps committedKbps).2 = true) : 0 < committedKbps := by
  simp only [Controller.candidate, Bool.and_eq_true, decide_eq_true_eq] at h
  exact h.1.1.2

/-- Every move that was held back is committed at the first tick at which it can be, if and only if
the slow path happens to commit at every such tick. -/
theorem held_iff (cfg : FecConfig) (s : Sizer) (es : List SizerEvent) :
    heldMoves.Accepts none ((sizerMachine cfg).trace s es) ↔
      ((sizerMachine cfg).watch heldMoves).Meets (SlowAnyway cfg) (s, none) es := by
  have hinv : ∀ (s : Sizer) held e, AtAnchor s.ctrl held → SlowAnyway cfg (s, held) e →
      AtAnchor ((sizerMachine cfg).step s e).1.ctrl
        (heldMoves.after held ((sizerMachine cfg).step s e).2) := by
    intro s held e h _
    cases e with
    | settle dt secs =>
        intro kbps hkbps
        obtain ⟨hpos, hat⟩ := h kbps hkbps
        refine ⟨hpos, Eq.trans ?_ hat⟩
        show (s.ctrl.armSettle _ secs).lastCommittedKbps = _
        rw [Controller.armSettle]
        split <;> rfl
    | tick dt frameSize fps committedKbps =>
        let r := s.ctrl.intake cfg frameSize s.ring (s.clock + dt)
        have hr : AtAnchor r.1 held := h
        exact judge_atAnchor hr (candidate_ff r.1 r.2 fps)
  have hok : ∀ (s : Sizer) held e, AtAnchor s.ctrl held →
      (heldMoves.Accepts held ((sizerMachine cfg).step s e).2 ↔ SlowAnyway cfg (s, held) e) := by
    intro s held e h
    cases e with
    | settle dt secs => exact iff_of_true trivial trivial
    | tick dt frameSize fps committedKbps =>
        show _ ∧ True ↔ _
        rw [and_true]
        refine held_ok_iff ?_
        exact h
  exact Machine.accepts_trace_iff hinv hok (fun _ hno => by cases hno) es

/-- The bitrate moves at 13 s, and again 50 ms later and stays there; the second move is due at
13.2 s. -/
def movesTwice : List SizerEvent :=
  [.tick 0 18000 120 17333, .tick 2000000 18000 120 17333, .tick 10000 18000 120 17333,
    .tick 990000 18000 120 8000, .tick 50000 8000 120 1625, .tick 150000 1700 120 1625]

/-- It is not committed then. -/
theorem not_held : ¬heldMoves.Accepts none ((sizerMachine {}).trace { clock := 10000000 } movesTwice) := by
  decide +kernel

/-! ## Writes and moves -/

/-- venc takes the write, or it is a dry run. -/
def writeTaken (cfg : Config) (f : FecState) (target payload : ℤ) (now : ℕ) (answer : Bool) : Bool :=
  let payloadChanged : Bool := decide (0 < payload) && decide (payload ≠ f.lastWrittenPayload)
  cfg.dryRun || (vencApply now .assert target (if payloadChanged then payload else -1) answer).1

/-- `bitrate_assert` sets `last_written_kbps`. -/
def assertWrote (radio : RadioState) (cfg : Config) (f : FecState) (now : ℕ) (answer : Bool) : Bool :=
  match f.ctrl.current with
  | none => false
  | some cur =>
      let (target, payload) := assertTarget cfg.fec radio.phyMbps cur
      cfg.fec.enabled && radio.valid && assertWrites cfg.fec f target now &&
        writeTaken cfg f target payload now answer

/-- The controller with what was last written to the encoder, its window, and the clock. -/
structure Rated where
  fec : FecState := {}
  ring : HeadroomRing := HeadroomRing.init
  clock : ℕ

/-- What happens to it, `dt` after the last time, under the configuration of the moment. -/
inductive RatedEvent where
  | tick (cfg : Config) (dt frameSize : ℕ) (fps : ℚ)
  | assert (cfg : Config) (dt : ℕ) (radio : RadioState) (answer : Bool)
  | settle (dt : ℕ) (secs : ℚ)
  /-- the up-lock is set -/
  | lock (dt untilUs : ℕ)

/-- What the gate and the write decide. -/
inductive RatedObs where
  | gate (kbps : ℤ) (moved : Bool)
  | wrote

/-- Ticks and assertions, in any order. -/
def ratedMachine : Machine Rated RatedEvent RatedObs where
  step s
    | .tick cfg dt frameSize fps =>
        let now := s.clock + dt
        let kbps := s.fec.lastWrittenKbps
        let c := (s.fec.ctrl.intake cfg.fec frameSize s.ring now).1
        let (ctrl, ring, _) := controllerUpdate s.fec.ctrl cfg.fec frameSize s.ring now fps kbps
        ({ fec := { s.fec with ctrl }, ring, clock := now },
          if c.current.isSome then [.gate kbps (c.opPointMoved cfg.fec kbps)] else [])
    | .assert cfg dt radio answer =>
        let now := s.clock + dt
        ({ s with fec := (bitrateAssert radio cfg s.fec now answer).1, clock := now },
          if assertWrote radio cfg s.fec now answer then [.wrote] else [])
    | .settle dt secs =>
        let now := s.clock + dt
        ({ s with fec := { s.fec with ctrl := s.fec.ctrl.armSettle now secs }, clock := now }, [])
    | .lock dt untilUs =>
        ({ s with
            fec := { s.fec with ctrl := { s.fec.ctrl with bitrateUpLockUntilUs := untilUs } }
            clock := s.clock + dt }, [])

/-- The writes since the last gate that knew a bitrate.  Exactly one must be seen, and none must not
be. -/
def gateAgrees : Monitor RatedObs (Option ℕ) where
  upd writes
    | .gate kbps _ => if 0 < kbps then some 0 else none
    | .wrote => writes.map (· + 1)
  ok writes
    | .gate kbps moved =>
        decide (0 < kbps → (writes = some 1 → moved = true) ∧ (writes = some 0 → moved = false))
    | .wrote => true

/-- The event finds this tolerance. -/
def RatedEvent.HasTolerance (tolerance : ℚ) : RatedEvent → Prop
  | .tick cfg _ _ _ => cfg.fec.bitrateTolerance = tolerance
  | .assert cfg _ _ _ => cfg.fec.bitrateTolerance = tolerance
  | .settle .. => True
  | .lock .. => True

/-- Where the mirror and the anchor are after so many writes. -/
structure Apart (tolerance : ℚ) (s : Rated) (writes : Option ℕ) : Prop where
  none : writes = some 0 → 0 < s.fec.ctrl.lastCommittedKbps ∧
    s.fec.lastWrittenKbps = s.fec.ctrl.lastCommittedKbps
  one : writes = some 1 → 0 < s.fec.lastWrittenKbps →
    tolerance * s.fec.lastWrittenKbps <
      |((s.fec.lastWrittenKbps - s.fec.ctrl.lastCommittedKbps : ℤ) : ℚ)|

variable {tolerance : ℚ} {s : Rated} {writes : Option ℕ}

/-- The band of the write is no narrower than the gate's: it is rounded down, but the difference is
an integer. -/
theorem moved_of_changed {cfg : FecConfig} {last target : ℤ} (htol : 0 ≤ cfg.bitrateTolerance)
    (hlast : 0 < last) (htarget : 0 < target) (h : bitrateChanged cfg last target = true) :
    cfg.bitrateTolerance * target < |((target - last : ℤ) : ℚ)| := by
  have hq : (0 : ℚ) < target := by exact_mod_cast htarget
  have hscaled : 0 ≤ (target : ℚ) * cfg.bitrateTolerance := mul_nonneg hq.le htol
  simp only [bitrateChanged, hlast, not_lt.mpr hlast.le, if_true, decide_false, Bool.false_or,
    decide_eq_true_eq] at h
  have hfloor : truncQ ((target : ℚ) * cfg.bitrateTolerance) < |last - target| := by
    have hle : truncQ ((target : ℚ) * cfg.bitrateTolerance) ≤ assertTolerance cfg target := by
      simp only [assertTolerance]
      split_ifs with hone
      · exact hone.le
      · exact le_refl _
    exact lt_of_le_of_lt hle h
  rw [truncQ_of_nonneg hscaled, Int.floor_lt, abs_sub_comm] at hfloor
  rw [mul_comm]
  exact_mod_cast hfloor

theorem armSettle_anchor (c : Controller) (now : ℕ) (secs : ℚ) :
    (c.armSettle now secs).lastCommittedKbps = c.lastCommittedKbps := by
  rw [Controller.armSettle]
  split <;> rfl

theorem assertWrite_anchor (cfg : Config) (f : FecState) (target payload : ℤ) (now : ℕ) (answer : Bool) :
    (assertWrite cfg f target payload now answer).1.ctrl.lastCommittedKbps = f.ctrl.lastCommittedKbps := by
  rw [assertWrite]
  dsimp only
  split_ifs
  all_goals first
    | rfl
    | exact armSettle_anchor ..

theorem assertWrite_mirror (cfg : Config) (f : FecState) (target payload : ℤ) (now : ℕ) (answer : Bool) :
    (assertWrite cfg f target payload now answer).1.lastWrittenKbps =
      if writeTaken cfg f target payload now answer then target else f.lastWrittenKbps := by
  rw [assertWrite, writeTaken]
  cases cfg.dryRun
  · dsimp only
    split_ifs <;> simp_all
  · dsimp only
    split_ifs <;> simp_all

/-- What an assertion does to the mirror and the anchor. -/
inductive Asserts (cfg : FecConfig) (f f' : FecState) (wrote : Bool) : Prop
  | wrote (hw : wrote = true)
      (hchanged : bitrateChanged cfg f.lastWrittenKbps f'.lastWrittenKbps = true)
      (hanchor : f'.ctrl.lastCommittedKbps = f.ctrl.lastCommittedKbps)
  | kept (hw : wrote = false) (hsame : f'.lastWrittenKbps = f.lastWrittenKbps)
      (hanchor : f'.ctrl.lastCommittedKbps = f.ctrl.lastCommittedKbps)

theorem bitrateAssert_asserts (radio : RadioState) (cfg : Config) (f : FecState) (now : ℕ) (answer : Bool) :
    Asserts cfg.fec f (bitrateAssert radio cfg f now answer).1 (assertWrote radio cfg f now answer) := by
  rw [bitrateAssert, assertWrote]
  cases f.ctrl.current with
  | none => exact .kept rfl rfl rfl
  | some cur =>
      cases cfg.fec.enabled
      · exact .kept rfl rfl rfl
      cases radio.valid
      · exact .kept rfl rfl rfl
      have hcases : ∀ target payload : ℤ, Asserts cfg.fec f
          (if assertWrites cfg.fec f target now then
            ((assertWrite cfg f target payload now answer).1,
              Obs.asserted now target :: (assertWrite cfg f target payload now answer).2)
          else (f, [Obs.asserted now target])).1
          (true && true && assertWrites cfg.fec f target now && writeTaken cfg f target payload now answer) := by
        intro target payload
        by_cases hwrites : assertWrites cfg.fec f target now = true
        · have hmirror := assertWrite_mirror cfg f target payload now answer
          rw [if_pos hwrites, hwrites]
          split at hmirror
          · next htaken =>
              refine .wrote htaken ?_ (assertWrite_anchor ..)
              rw [hmirror]
              exact (Bool.and_eq_true_iff.mp hwrites).1
          · next htaken => exact .kept (Bool.eq_false_iff.mpr htaken) hmirror (assertWrite_anchor ..)
        · rw [if_neg hwrites, Bool.eq_false_iff.mpr hwrites]
          exact .kept rfl rfl rfl
      exact hcases (assertTarget cfg.fec radio.phyMbps cur).1 (assertTarget cfg.fec radio.phyMbps cur).2

/-- A call that writes moves the bitrate away from the anchor, and no other does. -/
theorem assert_apart (htol : 0 ≤ tolerance) (hs : Apart tolerance s writes) {cfg : Config} (dt : ℕ)
    (radio : RadioState) (answer : Bool) (he : cfg.fec.bitrateTolerance = tolerance) :
    gateAgrees.wp writes (ratedMachine.step s (.assert cfg dt radio answer)) (Apart tolerance) := by
  rcases bitrateAssert_asserts radio cfg s.fec (s.clock + dt) answer with
    ⟨hwrote, hchanged, hanchor⟩ | ⟨hwrote, hsame, hanchor⟩
  · dsimp only [ratedMachine]
    rw [if_pos hwrote]
    refine wp_emit rfl ⟨fun hw => ?_, fun hw htarget => ?_⟩
    · cases writes <;> cases hw
    · obtain rfl : writes = some 0 := by
        cases writes with
        | none => cases hw
        | some n => exact congrArg some (Nat.succ.inj (Option.some.inj hw))
      obtain ⟨hpos, hat⟩ := hs.none rfl
      rw [← he] at htol
      rw [hanchor, ← hat, ← he]
      exact moved_of_changed htol (hat ▸ hpos) htarget hchanged
  · dsimp only [ratedMachine]
    rw [if_neg (Bool.eq_false_iff.mp hwrote)]
    refine wp_pure ⟨fun hw => ?_, fun hw => ?_⟩
    · rw [hanchor, hsame]
      exact hs.none hw
    · rw [hanchor, hsame]
      exact hs.one hw

/-- A tick that reaches the gate sees what has been written, and moves the anchor there. -/
theorem tick_apart (htol : 0 ≤ tolerance) (hs : Apart tolerance s writes) {cfg : Config}
    (dt frameSize : ℕ) (fps : ℚ) (he : cfg.fec.bitrateTolerance = tolerance) :
    gateAgrees.wp writes (ratedMachine.step s (.tick cfg dt frameSize fps)) (Apart tolerance) := by
  let c := (s.fec.ctrl.intake cfg.fec frameSize s.ring (s.clock + dt)).1
  have hat : c.lastCommittedKbps = s.fec.ctrl.lastCommittedKbps := rfl
  have hanchor : (ratedMachine.step s (.tick cfg dt frameSize fps)).1.fec.ctrl.lastCommittedKbps =
      if c.current.isSome ∧ 0 < s.fec.lastWrittenKbps then s.fec.lastWrittenKbps
      else c.lastCommittedKbps :=
    c.judge_anchor cfg.fec (s.clock + dt) _ _ _
  by_cases hreached : c.current.isSome = true
  · have hobs : (ratedMachine.step s (.tick cfg dt frameSize fps)).2 =
        [.gate s.fec.lastWrittenKbps (c.opPointMoved cfg.fec s.fec.lastWrittenKbps)] := if_pos hreached
    refine ⟨?_, ?_⟩
    · rw [hobs]
      refine ⟨decide_eq_true fun hpos => ⟨fun hw => ?_, fun hw => ?_⟩, trivial⟩
      · rw [Controller.opPointMoved, hat, he, decide_eq_true (hs.one hw hpos), Bool.or_true]
      · rw [Controller.moved_at_anchor (hat.trans (hs.none hw).2.symm) hpos, he]
        exact decide_eq_false (not_lt.mpr htol)
    · rw [hobs]
      show Apart tolerance _ (if 0 < s.fec.lastWrittenKbps then some 0 else none)
      split
      · next hpos =>
          rw [if_pos ⟨hreached, hpos⟩] at hanchor
          refine ⟨fun _ => ⟨?_, hanchor.symm⟩, fun hno => by cases hno⟩
          rw [hanchor]
          exact hpos
      · exact ⟨fun hno => (by cases hno), fun hno => (by cases hno)⟩
  · have hobs : (ratedMachine.step s (.tick cfg dt frameSize fps)).2 = [] := if_neg hreached
    rw [if_neg fun hboth => hreached hboth.1, hat] at hanchor
    refine ⟨?_, ?_⟩
    · rw [hobs]
      trivial
    · rw [hobs]
      refine ⟨fun hw => ?_, fun hw => ?_⟩
      · rw [hanchor]
        exact hs.none hw
      · rw [hanchor]
        exact hs.one hw

/-- A tick sees the move that one write since the last tick has made, and sees none where nothing
has been written. -/
theorem gate_agrees (htol : 0 ≤ tolerance) (s : Rated) (es : List RatedEvent)
    (h : ∀ e ∈ es, e.HasTolerance tolerance) : gateAgrees.Accepts none (ratedMachine.trace s es) := by
  have hstep : ∀ (s : Rated) writes e, Apart tolerance s writes → e.HasTolerance tolerance →
      gateAgrees.wp writes (ratedMachine.step s e) (Apart tolerance) := by
    intro s writes e hs he
    cases e with
    | settle dt secs =>
        refine wp_pure ⟨fun hw => ?_, fun hw => ?_⟩
        · rw [armSettle_anchor]
          exact hs.none hw
        · rw [armSettle_anchor]
          exact hs.one hw
    | lock dt untilUs => exact wp_pure ⟨hs.none, hs.one⟩
    | assert cfg dt radio answer => exact assert_apart htol hs dt radio answer he
    | tick cfg dt frameSize fps => exact tick_apart htol hs dt frameSize fps he
  have hmeets : ratedMachine.Meets (fun _ e => e.HasTolerance tolerance) s es := Machine.Meets.of_mem h
  have hstart : Apart tolerance s none := ⟨fun hno => (by cases hno), fun hno => (by cases hno)⟩
  exact (Machine.run_wp hstep hstart hmeets).1

/-- A link that is rated down between two ticks. -/
def ratedDown : List RatedEvent :=
  [.tick {} 0 18000 120, .tick {} 2000000 18000 120, .assert {} 0 { valid := true, phyMbps := 26 } true,
    .tick {} 10000 18000 120, .assert {} 0 { valid := true, phyMbps := 13 / 2 } true, .tick {} 10000 18000 120]

theorem gate_agrees_ratedDown :
    gateAgrees.Accepts none (ratedMachine.trace { clock := 10000000 } ratedDown) := by
  refine gate_agrees (by norm_num : (0 : ℚ) ≤ 15 / 100) _ _ ?_
  simp only [ratedDown, List.forall_mem_cons, List.not_mem_nil, false_imp_iff, implies_true, and_true]
  exact ⟨rfl, rfl, rfl, rfl, rfl, rfl⟩

end Waybeam.Vehicle
