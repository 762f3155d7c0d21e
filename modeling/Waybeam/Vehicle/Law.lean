/-
# `Waybeam.Vehicle.Law` — runs of the control law

The selector has two callers: a record that was scored goes through `update`, the watchdog
through `tickNoData`.  A run is any sequence of the two under one configuration, with whatever
scores, probe records and transport pressure come along.  Its history is what an observer of the
rung and of the records can write down:

    changes         when the rung changed, the newest first
    lastDemote      when it last went down
    pressureSince   since when every record has come under pressure
    fadeRun         how many of the latest records were fade samples

The selector's own timers, its guard and its ring of changes are that history
(`LawInv`), and every rule of the law reads them that way (`selector_law`).
-/
import Waybeam.Machine
import Waybeam.Vehicle.Selector

namespace Waybeam.Vehicle

/-! ## The law as a machine -/

/-- A call of the selector. -/
inductive SelCall where
  | record (dt : ℕ) (score : Score) (probe : ProbeState) (inPressure : Bool)
  | tick (dt : ℕ)

/-- How long after the last call it comes. -/
def SelCall.dt : SelCall → ℕ
  | .record dt _ _ _ => dt
  | .tick dt => dt

/-- The selector and the clock. -/
structure SelLoop where
  sel : Selector := {}
  clock : ℕ

/-- A call: when, what it found, what it left, and its decision. -/
structure SelSeen where
  call : SelCall
  now : ℕ
  before : Selector
  after : Selector
  decision : SelectDecision

/-- What a call returns. -/
def SelCall.result (cfg : McsConfig) (s : Selector) (now : ℕ) : SelCall → Selector × SelectDecision
  | .record _ score probe inPressure => s.update cfg score probe inPressure now
  | .tick _ => s.tickNoData cfg now

def SelLoop.step (cfg : McsConfig) (l : SelLoop) (e : SelCall) : SelLoop × List SelSeen :=
  let now := l.clock + e.dt
  let r := e.result cfg l.sel now
  (⟨r.1, now⟩, [⟨e, now, l.sel, r.1, r.2⟩])

def SelLoop.machine (cfg : McsConfig) : Machine SelLoop SelCall SelSeen := ⟨SelLoop.step cfg⟩

/-! ## What an observer writes down -/

structure SelHistory where
  changes : List ℕ := []
  lastDemote : Option ℕ := none
  pressureSince : Option ℕ := none
  fadeRun : ℕ := 0

namespace SelHistory

variable (cfg : McsConfig) (g : SelHistory)

/-- The rung went from one to another, or stayed. -/
def move (before after : ℤ) (now : ℕ) : SelHistory :=
  { g with
    changes := if after = before then g.changes else now :: g.changes
    lastDemote := if 0 ≤ before ∧ after < before then some now else g.lastDemote }

/-- A record came in. -/
def sample (score : Score) (inPressure : Bool) (now : ℕ) : SelHistory :=
  { g with
    pressureSince := if inPressure then some (g.pressureSince.getD now) else none
    fadeRun := if fadeSample cfg score then g.fadeRun + 1 else 0 }

/-- What a call brings. -/
def hear (call : SelCall) (now : ℕ) : SelHistory :=
  match call with
  | .record _ score _ inPressure => g.sample cfg score inPressure now
  | .tick _ => g

def upd (o : SelSeen) : SelHistory :=
  (g.hear cfg o.call o.now).move o.before.currentMcs o.after.currentMcs o.now

/-- The last change is that long ago. -/
def stood (secs : ℚ) (now : ℕ) : Bool := g.changes.head?.all fun t => secs ≤ secsOf (now - t)

/-- The latest changes inside the oscillation window, as many as the ring has slots. -/
def recent (now : ℕ) : List ℕ :=
  (g.changes.filter fun t => secsOf (now - t) ≤ cfg.oscillationWindowS).take oscRing

/-- The dwell before a step up from `s`: the longer one back into the rung that failed. -/
def dwell (s : Selector) (now : ℕ) : ℚ :=
  if 0 ≤ s.flapGuardMcs ∧ s.flapGuardMcs ≤ s.currentMcs + 1 ∧
      g.lastDemote.any fun t => secsOf (now - t) < cfg.reentryBackoffS
  then max cfg.promoteDwellS cfg.reentryDwellS else cfg.promoteDwellS

/-- Pressure has been held for the escape. -/
def escaping (now : ℕ) : Bool :=
  g.pressureSince.any fun t => cfg.pressureEscapeS ≤ secsOf (now - t)

end SelHistory

/-! ## What is demanded of a call -/

section Demands

variable (cfg : McsConfig)

/-- The rung is none yet or inside the window of the configuration. -/
def rungOk (o : SelSeen) : Bool :=
  o.after.currentMcs = -1 || (cfg.mcsMin ≤ o.after.currentMcs && o.after.currentMcs ≤ cfg.mcsMax)

/-- A step is one rung. -/
def stepOk (o : SelSeen) : Bool :=
  match o.decision with
  | .up => o.after.currentMcs = o.before.currentMcs + 1
  | .down => o.after.currentMcs = o.before.currentMcs - 1
  | _ => true

/-- A step comes after its dwell; `g` knows the record that brought it. -/
def dwellOk (g : SelHistory) (o : SelSeen) : Bool :=
  match o.decision with
  | .down => g.stood cfg.downCooldownS o.now
  | .up =>
      g.stood (g.dwell cfg o.before o.now) o.now ||
        (g.stood cfg.downCooldownS o.now && g.escaping cfg o.now)
  | _ => true

/-- Under pressure that blocks demotions, a step down is the floor's or a fade's. -/
def pressureOk (g : SelHistory) (o : SelSeen) : Bool :=
  match o.call, o.decision with
  | .record _ score _ inPressure, .down =>
      !(inPressure && cfg.pressureDemoteBlock) || floorHit cfg score || 3 ≤ g.fadeRun
  | _, _ => true

/-- The ring is expired in every tick and with every change. -/
def ringOk (g : SelHistory) (o : SelSeen) : Bool :=
  match o.call with
  | .tick _ => o.after.changes.toList = g.recent cfg o.now
  | .record .. =>
      o.after.currentMcs = o.before.currentMcs || o.after.changes.toList = g.recent cfg o.now

def lawOk (g : SelHistory) (o : SelSeen) : Bool :=
  rungOk cfg o && stepOk o && dwellOk cfg (g.hear cfg o.call o.now) o &&
    pressureOk cfg (g.hear cfg o.call o.now) o && ringOk cfg (g.upd cfg o) o

/-- The invariant of the selector, call by call. -/
def lawful : Monitor SelSeen SelHistory := ⟨SelHistory.upd cfg, lawOk cfg⟩

end Demands

/-! ## The ring of changes -/

/-- The times not older than `w`, as many as the ring has slots. -/
def latest (w now : ℕ) (times : List ℕ) : List ℕ :=
  (times.filter fun t => now ≤ t + w).take oscRing

/-- What is in order stays in order under a filter, and taking the first few commutes with it. -/
theorem filter_take_of_pairwise {p : ℕ → Bool} {l : List ℕ}
    (h : l.Pairwise fun a b => p b = true → p a = true) (n : ℕ) :
    (l.take n).filter p = (l.filter p).take n := by
  induction l generalizing n with
  | nil => simp
  | cons a l ih =>
      obtain ⟨hfirst, hrest⟩ := List.pairwise_cons.mp h
      cases n with
      | zero => rfl
      | succ n =>
          rw [List.take_succ_cons, List.filter_cons, List.filter_cons]
          cases ha : p a with
          | true =>
              rw [if_pos rfl, if_pos rfl, List.take_succ_cons, ih hrest]
          | false =>
              have hnone : ∀ b ∈ l, ¬p b = true := by
                intro b hb hpb
                rw [hfirst b hb hpb] at ha
                cases ha
              rw [if_neg Bool.false_ne_true, if_neg Bool.false_ne_true,
                List.filter_eq_nil_iff.mpr hnone,
                List.filter_eq_nil_iff.mpr fun b hb => hnone b (List.mem_of_mem_take hb)]
              rfl

/-- A filter of what is in order is a prefix. -/
theorem filter_prefix_of_pairwise {p : ℕ → Bool} {l : List ℕ}
    (h : l.Pairwise fun a b => p b = true → p a = true) :
    ∃ m, l.filter p = l.take m ∧ ∀ t ∈ l.drop m, p t = false := by
  induction l with
  | nil => exact ⟨0, rfl, fun _ ht => absurd ht List.not_mem_nil⟩
  | cons a l ih =>
      obtain ⟨hfirst, hrest⟩ := List.pairwise_cons.mp h
      cases ha : p a with
      | true =>
          obtain ⟨m, hm, hout⟩ := ih hrest
          refine ⟨m + 1, ?_, hout⟩
          rw [List.filter_cons, ha, if_pos rfl, List.take_succ_cons, hm]
      | false =>
          have hnone : ∀ b ∈ a :: l, p b = false := by
            intro b hb
            rcases List.mem_cons.mp hb with rfl | hb
            · exact ha
            · rw [← Bool.not_eq_true]
              intro hpb
              rw [hfirst b hb hpb] at ha
              cases ha
          refine ⟨0, ?_, hnone⟩
          rw [List.take_zero, List.filter_eq_nil_iff]
          intro b hb
          rw [hnone b hb]
          exact Bool.false_ne_true

/-- The live entries are the newest times, and what is missing is too old or too many. -/
def Kept (w : ℕ) (times : List ℕ) (now : ℕ) (live : List ℕ) : Prop :=
  ∃ k ≤ oscRing, live = times.take k ∧ (k = oscRing ∨ ∀ t ∈ times.drop k, t + w < now)

theorem Kept.later {w now later : ℕ} {times live : List ℕ} (h : Kept w times now live)
    (hle : now ≤ later) : Kept w times later live := by
  obtain ⟨k, hk, hlive, hgone⟩ := h
  exact ⟨k, hk, hlive, hgone.imp_right fun ho t ht => (ho t ht).trans_le hle⟩

theorem Kept.push {w now : ℕ} {times live : List ℕ} (h : Kept w times now live) (t : ℕ) :
    Kept w (t :: times) now ((t :: live).take oscRing) := by
  obtain ⟨k, hk, rfl, hgone⟩ := h
  rcases Nat.lt_or_ge k oscRing with hlt | hge
  · refine ⟨k + 1, hlt, ?_, .inr (hgone.resolve_left hlt.ne)⟩
    rw [List.take_of_length_le]
    · rfl
    · simp only [List.length_cons, List.length_take]
      omega
  · refine ⟨oscRing, le_rfl, ?_, .inl rfl⟩
    obtain rfl : k = oscRing := le_antisymm hk hge
    rw [oscRing, List.take_succ_cons, List.take_succ_cons, List.take_take]
    rfl

/-- Dropping what is too old leaves the latest. -/
theorem Kept.expire {w now : ℕ} {times live : List ℕ} (h : Kept w times now live)
    (hord : times.Pairwise fun a b => b ≤ a) :
    live.filter (fun t => now ≤ t + w) = latest w now times ∧
      Kept w times now (latest w now times) := by
  have hpass : times.Pairwise fun a b =>
      decide (now ≤ b + w) = true → decide (now ≤ a + w) = true := by
    refine hord.imp ?_
    intro a b hle hb
    rw [decide_eq_true_eq] at hb ⊢
    omega
  constructor
  · obtain ⟨k, hk, rfl, hgone⟩ := h
    rw [filter_take_of_pairwise hpass, latest]
    rcases hgone with rfl | hold
    · rfl
    · -- past the `k` newest nothing is left to keep
      have hdrop : (times.drop k).filter (fun t => now ≤ t + w) = [] := by
        rw [List.filter_eq_nil_iff]
        intro t ht
        simpa using hold t ht
      have hfew : (times.filter fun t => now ≤ t + w).length ≤ k := by
        rw [← List.take_append_drop k times, List.filter_append, hdrop, List.append_nil]
        exact (List.length_filter_le ..).trans (List.length_take_le ..)
      rw [List.take_of_length_le hfew, List.take_of_length_le (hfew.trans hk)]
  · obtain ⟨m, hm, hout⟩ := filter_prefix_of_pairwise hpass
    rw [latest, hm, List.take_take]
    refine ⟨min oscRing m, min_le_left .., rfl, ?_⟩
    rcases Nat.le_total oscRing m with hle | hle
    · exact .inl (min_eq_left hle)
    · refine .inr ?_
      rw [min_eq_right hle]
      intro t ht
      simpa using hout t ht

/-- Expiring the selector's ring. -/
theorem Kept.expireChanges {cfg : McsConfig} {s : Selector} {times : List ℕ} {clock now : ℕ}
    (h : Kept (usOf cfg.oscillationWindowS) times clock s.changes.toList)
    (hord : times.Pairwise fun a b => b ≤ a) (hw : usOf cfg.oscillationWindowS ≠ 0)
    (hle : clock ≤ now) :
    (s.expireChanges cfg now).changes.toList
      = latest (usOf cfg.oscillationWindowS) now times := by
  rw [← ((h.later hle).expire hord).1, Selector.expireChanges, if_neg hw]
  split
  · next hyoung =>
      rw [List.filter_eq_self.mpr]
      intro t _
      rw [decide_eq_true_eq]
      omega
  · obtain ⟨k, -, hlive, -⟩ := h
    have hkeep : s.changes.toList.Pairwise fun a b =>
        decide (now - usOf cfg.oscillationWindowS ≤ b) = true →
          decide (now - usOf cfg.oscillationWindowS ≤ a) = true := by
      rw [hlive]
      refine (hord.sublist (List.take_sublist ..)).imp ?_
      intro a b hba hb
      rw [decide_eq_true_eq] at hb ⊢
      omega
    rw [Ring.toList_expire _ hkeep]
    refine List.filter_congr ?_
    intro t _
    rw [decide_eq_decide]
    omega

/-! ## What a commit does -/

namespace Selector

variable (s : Selector) (cfg : McsConfig)

/-- Expiring touches the ring alone. -/
theorem expireChanges_eq (now : ℕ) :
    s.expireChanges cfg now = { s with changes := (s.expireChanges cfg now).changes } := by
  rw [expireChanges]
  split_ifs <;> rfl

/-- The selector on a rung it was not on. -/
def arrived (target : ℤ) (now : ℕ) : Selector :=
  let s := recordChange { s with currentMcs := target, lastChangeUs := now } cfg now
  { s with commitCount := s.commitCount + 1 }

/-- A commit to the rung the selector is on. -/
theorem commit_same {target : ℤ} (now : ℕ) (h : s.currentMcs = clampInt cfg.mcsMin cfg.mcsMax target) :
    s.commit cfg target now = s := by
  rw [commit, ← h, if_pos rfl]

/-- A commit to another rung. -/
theorem commit_moved {target : ℤ} (now : ℕ) (h : s.currentMcs ≠ clampInt cfg.mcsMin cfg.mcsMax target) :
    s.commit cfg target now =
      if 0 ≤ s.currentMcs ∧ clampInt cfg.mcsMin cfg.mcsMax target < s.currentMcs then
        (s.arrived cfg (clampInt cfg.mcsMin cfg.mcsMax target) now).noteDemote cfg s.currentMcs now
      else s.arrived cfg (clampInt cfg.mcsMin cfg.mcsMax target) now := by
  rw [commit, if_neg h]
  rfl

/-- What arriving on a rung leaves alone. -/
theorem arrived_kept (target : ℤ) (now : ℕ) :
    (s.arrived cfg target now).fadeStreak = s.fadeStreak ∧
      (s.arrived cfg target now).pressureSinceUs = s.pressureSinceUs ∧
      (s.arrived cfg target now).flapGuardMcs = s.flapGuardMcs ∧
      (s.arrived cfg target now).flapGuardUs = s.flapGuardUs := by
  rw [arrived, recordChange, expireChanges_eq]
  exact ⟨rfl, rfl, rfl, rfl⟩

theorem arrived_lastChangeUs (target : ℤ) (now : ℕ) :
    (s.arrived cfg target now).lastChangeUs = now := by
  rw [arrived, recordChange, expireChanges_eq]

/-- What the flap bookkeeping leaves alone. -/
theorem noteDemote_kept (prev : ℤ) (now : ℕ) :
    (s.noteDemote cfg prev now).lastChangeUs = s.lastChangeUs ∧
      (s.noteDemote cfg prev now).changes = s.changes ∧
      (s.noteDemote cfg prev now).fadeStreak = s.fadeStreak ∧
      (s.noteDemote cfg prev now).pressureSinceUs = s.pressureSinceUs ∧
      (s.noteDemote cfg prev now).flapGuardUs = now := by
  rw [noteDemote]
  dsimp only
  split_ifs <;> exact ⟨rfl, rfl, rfl, rfl, rfl⟩

/-- The timers of a commit to another rung: the guard's is a demotion's alone. -/
theorem commit_timers {target : ℤ} (now : ℕ)
    (h : s.currentMcs ≠ clampInt cfg.mcsMin cfg.mcsMax target) :
    (s.commit cfg target now).lastChangeUs = now ∧
      (0 ≤ s.currentMcs ∧ clampInt cfg.mcsMin cfg.mcsMax target < s.currentMcs →
        (s.commit cfg target now).flapGuardUs = now) ∧
      (¬(0 ≤ s.currentMcs ∧ clampInt cfg.mcsMin cfg.mcsMax target < s.currentMcs) →
        (s.commit cfg target now).flapGuardMcs = s.flapGuardMcs ∧
          (s.commit cfg target now).flapGuardUs = s.flapGuardUs) := by
  rw [s.commit_moved cfg now h]
  split
  · next hdem =>
      obtain ⟨hlast, -, -, -, hguard⟩ := (s.arrived cfg (clampInt cfg.mcsMin cfg.mcsMax target)
        now).noteDemote_kept cfg s.currentMcs now
      exact ⟨hlast.trans (s.arrived_lastChangeUs ..), fun _ => hguard, absurd hdem⟩
  · next hup =>
      obtain ⟨-, -, hmcs, hus⟩ := s.arrived_kept cfg (clampInt cfg.mcsMin cfg.mcsMax target) now
      exact ⟨s.arrived_lastChangeUs .., fun hdem => absurd hdem hup, fun _ => ⟨hmcs, hus⟩⟩

/-- A commit leaves the fade streak and the pressure run alone. -/
theorem commit_evidence (target : ℤ) (now : ℕ) :
    (s.commit cfg target now).fadeStreak = s.fadeStreak ∧
      (s.commit cfg target now).pressureSinceUs = s.pressureSinceUs := by
  by_cases h : s.currentMcs = clampInt cfg.mcsMin cfg.mcsMax target
  · rw [s.commit_same cfg now h]
    exact ⟨rfl, rfl⟩
  · rw [s.commit_moved cfg now h]
    obtain ⟨hf, hp, -, -⟩ := s.arrived_kept cfg (clampInt cfg.mcsMin cfg.mcsMax target) now
    split
    · obtain ⟨-, -, hf', hp', -⟩ := (s.arrived cfg (clampInt cfg.mcsMin cfg.mcsMax target)
        now).noteDemote_kept cfg s.currentMcs now
      exact ⟨hf'.trans hf, hp'.trans hp⟩
    · exact ⟨hf, hp⟩

end Selector

/-! ## What a call does -/

/-- The selector once it has taken a record in and looked at the guards. -/
def Selector.heard (s : Selector) (cfg : McsConfig) (score : Score) (inPressure : Bool) (now : ℕ) :
    Selector :=
  (s.intake inPressure now).noteGuards cfg score

/-- What a record does, rule by rule, with what the rule has checked. -/
inductive Ruled (cfg : McsConfig) (score : Score) (inPressure : Bool) (now : ℕ) (s : Selector) :
    Selector × SelectDecision → Prop
  | init (hc : s.currentMcs < 0) :
      Ruled cfg score inPressure now s ((s.intake inPressure now).commit cfg cfg.mcsMin now, .init)
  | hold (hc : 0 ≤ s.currentMcs) :
      Ruled cfg score inPressure now s (s.heard cfg score inPressure now, .none)
  | demote (hc : 0 ≤ s.currentMcs) (hd : (s.heard cfg score inPressure now).canDemote cfg now)
      (hp : inPressure → cfg.pressureDemoteBlock →
        (s.heard cfg score inPressure now).rssiFloorActive ∨
          (s.heard cfg score inPressure now).rssiFadeActive) :
      Ruled cfg score inPressure now s
        ((s.heard cfg score inPressure now).commit cfg
          ((s.heard cfg score inPressure now).currentMcs - 1) now, .down)
  | escape (hc : 0 ≤ s.currentMcs)
      (he : (s.heard cfg score inPressure now).escapes cfg score inPressure now) :
      Ruled cfg score inPressure now s
        ({ s.heard cfg score inPressure now with
            pressureEscapeCount :=
              (s.heard cfg score inPressure now).pressureEscapeCount + 1 }.commit cfg
          ((s.heard cfg score inPressure now).currentMcs + 1) now, .up)
  | promote (hc : 0 ≤ s.currentMcs)
      (hp : (s.heard cfg score inPressure now).canPromote cfg score now) :
      Ruled cfg score inPressure now s
        ((s.heard cfg score inPressure now).commit cfg
          ((s.heard cfg score inPressure now).currentMcs + 1) now, .up)

namespace Selector

variable {cfg : McsConfig} {score : Score} {probe : ProbeState} {inPressure : Bool} {now : ℕ}

/-- What each rule has checked when it fires. -/
theorem verdict_spec {s : Selector} :
    match s.verdict cfg score probe inPressure now with
    | .hold => True
    | .demote => s.canDemote cfg now ∧
        (inPressure → cfg.pressureDemoteBlock → s.rssiFloorActive ∨ s.rssiFadeActive)
    | .escape => s.escapes cfg score inPressure now
    | .promote => s.canPromote cfg score now := by
  rw [verdict]
  dsimp only
  split_ifs <;> simp_all <;> grind

theorem update_ruled (s : Selector) :
    Ruled cfg score inPressure now s (s.update cfg score probe inPressure now) := by
  have hspec := @verdict_spec cfg score probe inPressure now (s.heard cfg score inPressure now)
  rw [update, s.intake_currentMcs]
  split
  · next hcold => exact .init hcold
  · next hwarm =>
      have hc : 0 ≤ s.currentMcs := not_lt.mp hwarm
      rw [heard] at hspec
      dsimp only
      cases hv : ((s.intake inPressure now).noteGuards cfg score).verdict cfg score probe inPressure now
      all_goals rw [hv] at hspec
      case hold => exact .hold hc
      case demote => exact .demote hc hspec.1 hspec.2
      case escape => exact .escape hc hspec
      case promote => exact .promote hc hspec

/-- The selector the watchdog takes to the floor. -/
def failsafe (s : Selector) : Selector :=
  { s with inFailsafe := true, rssiFloorActive := false, rssiFadeActive := false }

/-- The watchdog expires the ring and, when records have stopped, goes to the floor. -/
theorem tickNoData_cases (s : Selector) (cfg : McsConfig) (now : ℕ) :
    s.tickNoData cfg now = (s.expireChanges cfg now, .none) ∨
      s.tickNoData cfg now =
        ((s.expireChanges cfg now).failsafe.commit cfg cfg.mcsMin now, .failsafe) := by
  rw [tickNoData]
  dsimp only
  split_ifs
  · exact .inl rfl
  · exact .inl rfl
  · exact .inl rfl
  · exact .inr rfl

end Selector

/-! ## The history in the selector -/

/-- What the selector knows of the rung's history at an instant. -/
structure Tracked (cfg : McsConfig) (s : Selector) (g : SelHistory) (now : ℕ) : Prop where
  rung : s.currentMcs = -1 ∨ (cfg.mcsMin ≤ s.currentMcs ∧ s.currentMcs ≤ cfg.mcsMax)
  last : ∀ t ∈ g.changes.head?, s.lastChangeUs = t
  guarded : 0 ≤ s.flapGuardMcs → g.lastDemote = some s.flapGuardUs
  order : g.changes.Pairwise fun a b => b ≤ a
  past : ∀ t ∈ g.changes, t ≤ now
  ring : Kept (usOf cfg.oscillationWindowS) g.changes now s.changes.toList

/-- The fields of the selector that are about its history. -/
structure SameTrack (s s' : Selector) : Prop where
  rung : s'.currentMcs = s.currentMcs
  last : s'.lastChangeUs = s.lastChangeUs
  guardMcs : s'.flapGuardMcs = s.flapGuardMcs
  guardUs : s'.flapGuardUs = s.flapGuardUs
  changes : s'.changes = s.changes

theorem Selector.intake_track (s : Selector) (inPressure : Bool) (now : ℕ) :
    SameTrack s (s.intake inPressure now) := by
  rw [Selector.intake]
  dsimp only
  split_ifs <;> exact ⟨rfl, rfl, rfl, rfl, rfl⟩

theorem Selector.heard_track (s : Selector) (cfg : McsConfig) (score : Score) (inPressure : Bool)
    (now : ℕ) : SameTrack s (s.heard cfg score inPressure now) := by
  obtain ⟨h1, h2, h3, h4, h5⟩ := s.intake_track inPressure now
  exact ⟨h1, h2, h3, h4, h5⟩

theorem Tracked.congr {cfg : McsConfig} {s s' : Selector} {g : SelHistory} {now : ℕ}
    (h : Tracked cfg s g now) (hs : SameTrack s s') : Tracked cfg s' g now where
  rung := by
    rw [hs.rung]
    exact h.rung
  last := by
    rw [hs.last]
    exact h.last
  guarded := by
    rw [hs.guardMcs, hs.guardUs]
    exact h.guarded
  order := h.order
  past := h.past
  ring := by
    rw [hs.changes]
    exact h.ring

theorem Tracked.later {cfg : McsConfig} {s : Selector} {g : SelHistory} {now later : ℕ}
    (h : Tracked cfg s g now) (hle : now ≤ later) : Tracked cfg s g later where
  rung := h.rung
  last := h.last
  guarded := h.guarded
  order := h.order
  past t ht := (h.past t ht).trans hle
  ring := h.ring.later hle

/-- A history that differs in what it says of the records. -/
theorem Tracked.sample {cfg : McsConfig} {s : Selector} {g : SelHistory} {now : ℕ}
    (h : Tracked cfg s g now) (score : Score) (inPressure : Bool) (t : ℕ) :
    Tracked cfg s (g.sample cfg score inPressure t) now :=
  ⟨h.rung, h.last, h.guarded, h.order, h.past, h.ring⟩

/-- A window of a microsecond or more is one to the clock. -/
theorem usOf_pos {secs : ℚ} (h : 1 / 1000000 ≤ secs) : 0 < usOf secs := by
  refine (secsOf_le_iff (le_trans (by norm_num) h)).mp ?_
  rw [secsOf, Nat.cast_one]
  exact h

theorem SelHistory.recent_eq {cfg : McsConfig} (hw : 1 / 1000000 ≤ cfg.oscillationWindowS)
    (g : SelHistory) (now : ℕ) :
    g.recent cfg now = latest (usOf cfg.oscillationWindowS) now g.changes := by
  have hwindow : ∀ t, decide (secsOf (now - t) ≤ cfg.oscillationWindowS) =
      decide (now ≤ t + usOf cfg.oscillationWindowS) := by
    intro t
    rw [decide_eq_decide, secsOf_le_iff (le_trans (by norm_num) hw)]
    omega
  rw [SelHistory.recent, latest, funext hwindow]

/-- Whenever the ring is expired it holds the latest changes. -/
theorem Tracked.recent {cfg : McsConfig} {s : Selector} {g : SelHistory} {clock now : ℕ}
    (h : Tracked cfg s g clock) (hw : 1 / 1000000 ≤ cfg.oscillationWindowS) (hle : clock ≤ now) :
    (s.expireChanges cfg now).changes.toList = g.recent cfg now := by
  rw [SelHistory.recent_eq hw]
  exact h.ring.expireChanges h.order (usOf_pos hw).ne' hle

theorem Tracked.expired {cfg : McsConfig} {s : Selector} {g : SelHistory} {clock now : ℕ}
    (h : Tracked cfg s g clock) (hw : 1 / 1000000 ≤ cfg.oscillationWindowS) (hle : clock ≤ now) :
    Tracked cfg (s.expireChanges cfg now) g now := by
  have hring : Kept (usOf cfg.oscillationWindowS) g.changes now
      (s.expireChanges cfg now).changes.toList := by
    rw [h.ring.expireChanges h.order (usOf_pos hw).ne' hle]
    exact ((h.ring.later hle).expire h.order).2
  rw [s.expireChanges_eq] at hring ⊢
  exact ⟨h.rung, h.last, h.guarded, h.order, (h.later hle).past, hring⟩

theorem SelHistory.move_same (g : SelHistory) (rung : ℤ) (now : ℕ) : g.move rung rung now = g := by
  rw [SelHistory.move, if_pos rfl, if_neg (by omega)]

/-- Arriving on another rung, before the flap bookkeeping. -/
theorem Tracked.arrived {cfg : McsConfig} {s : Selector} {g : SelHistory} {clock now : ℕ}
    (h : Tracked cfg s g clock) (hw : 1 / 1000000 ≤ cfg.oscillationWindowS) (hle : clock ≤ now)
    (target : ℤ) :
    (s.arrived cfg target now).changes.toList
      = latest (usOf cfg.oscillationWindowS) now (now :: g.changes) := by
  have hpushed : Kept (usOf cfg.oscillationWindowS) (now :: g.changes) clock
      (s.changes.push now).toList := by
    rw [Ring.toList_push]
    exact h.ring.push now
  have hord : (now :: g.changes).Pairwise fun a b => b ≤ a :=
    List.pairwise_cons.mpr ⟨fun t ht => (h.past t ht).trans hle, h.order⟩
  exact @Kept.expireChanges cfg { s with currentMcs := target, lastChangeUs := now, changes := s.changes.push now }
    _ _ _ hpushed hord (usOf_pos hw).ne' hle

/-- A commit is written down and keeps the selector in step with the history. -/
theorem Tracked.commit {cfg : McsConfig} {s : Selector} {g : SelHistory} {clock now : ℕ}
    (h : Tracked cfg s g clock) (hrange : cfg.mcsMin ≤ cfg.mcsMax)
    (hw : 1 / 1000000 ≤ cfg.oscillationWindowS) (hle : clock ≤ now) (target : ℤ) :
    Tracked cfg (s.commit cfg target now)
        (g.move s.currentMcs (s.commit cfg target now).currentMcs now) now ∧
      ((s.commit cfg target now).currentMcs ≠ s.currentMcs →
        (s.commit cfg target now).changes.toList =
          (g.move s.currentMcs (s.commit cfg target now).currentMcs now).recent cfg now) := by
  by_cases hsame : s.currentMcs = clampInt cfg.mcsMin cfg.mcsMax target
  · rw [s.commit_same cfg now hsame, SelHistory.move_same]
    exact ⟨h.later hle, fun hne => absurd rfl hne⟩
  · have hrung := s.commit_currentMcs cfg target now
    have hchanges : (s.commit cfg target now).changes.toList =
        latest (usOf cfg.oscillationWindowS) now (now :: g.changes) := by
      rw [s.commit_moved cfg now hsame]
      split
      · rw [(Selector.noteDemote_kept ..).2.1]
        exact h.arrived hw hle _
      · exact h.arrived hw hle _
    have hmoved : (g.move s.currentMcs (s.commit cfg target now).currentMcs now).changes
        = now :: g.changes := if_neg (by rw [hrung]; exact Ne.symm hsame)
    have hord : (now :: g.changes).Pairwise fun a b => b ≤ a :=
      List.pairwise_cons.mpr ⟨fun t ht => (h.past t ht).trans hle, h.order⟩
    have hkept : Kept (usOf cfg.oscillationWindowS) (now :: g.changes) now
        (s.commit cfg target now).changes.toList := by
      have hpushed := (h.ring.push now).later hle
      rw [hchanges]
      exact (hpushed.expire hord).2
    obtain ⟨hlast, hdown, hup⟩ := s.commit_timers cfg now hsame
    refine ⟨⟨?_, ?_, ?_, ?_, ?_, ?_⟩, fun _ => ?_⟩
    · rw [hrung]
      exact .inr (clampInt_mem hrange target)
    · rw [hmoved, hlast]
      intro t ht
      exact Option.some.inj ht
    · rw [SelHistory.move, hrung]
      by_cases hdem : 0 ≤ s.currentMcs ∧ clampInt cfg.mcsMin cfg.mcsMax target < s.currentMcs
      · rw [if_pos hdem, hdown hdem]
        exact fun _ => rfl
      · rw [if_neg hdem, (hup hdem).1, (hup hdem).2]
        exact h.guarded
    · rw [hmoved]
      exact hord
    · rw [hmoved]
      intro t ht
      rcases List.mem_cons.mp ht with rfl | hold
      · exact le_rfl
      · exact (h.past t hold).trans hle
    · rw [hmoved]
      exact hkept
    · rw [SelHistory.recent_eq hw, hmoved]
      exact hchanges

/-- What the selector knows of the records' history. -/
structure Weighed (cfg : McsConfig) (s : Selector) (g : SelHistory) (now : ℕ) : Prop where
  grounded : 0 ≤ s.currentMcs → 0 ≤ cfg.mcsMin
  fade : 0 ≤ s.currentMcs → s.fadeStreak ≤ g.fadeRun
  unfaded : s.currentMcs < 0 → s.fadeStreak = 0
  pressed : ∀ t ∈ g.pressureSince, t ≤ now
  pressure : s.pressureSinceUs ≠ 0 → ∃ t, g.pressureSince = some t ∧ t ≤ s.pressureSinceUs

theorem Weighed.later {cfg : McsConfig} {s : Selector} {g : SelHistory} {now later : ℕ}
    (h : Weighed cfg s g now) (hle : now ≤ later) : Weighed cfg s g later :=
  ⟨h.grounded, h.fade, h.unfaded, fun t ht => (h.pressed t ht).trans hle, h.pressure⟩

theorem Selector.intake_pressureSinceUs (s : Selector) (inPressure : Bool) (now : ℕ) :
    (s.intake inPressure now).pressureSinceUs =
      if inPressure then (if s.pressureSinceUs = 0 then now else s.pressureSinceUs) else 0 := by
  rw [Selector.intake]
  dsimp only
  split_ifs <;> rfl

theorem Selector.intake_fadeStreak (s : Selector) (inPressure : Bool) (now : ℕ) :
    (s.intake inPressure now).fadeStreak = s.fadeStreak := by
  rw [Selector.intake]
  dsimp only
  split_ifs <;> rfl

/-- The pressure run the selector times began no earlier than the one the records show. -/
theorem Weighed.sample_pressure {cfg : McsConfig} {s : Selector} {g : SelHistory} {clock now : ℕ}
    (h : Weighed cfg s g clock) (hle : clock ≤ now) (score : Score) (inPressure : Bool) :
    (∀ t ∈ (g.sample cfg score inPressure now).pressureSince, t ≤ now) ∧
      ((s.intake inPressure now).pressureSinceUs ≠ 0 →
        ∃ t, (g.sample cfg score inPressure now).pressureSince = some t ∧
          t ≤ (s.intake inPressure now).pressureSinceUs) := by
  rw [s.intake_pressureSinceUs]
  cases inPressure with
  | false => exact ⟨fun t ht => absurd ht (Option.not_mem_none t), fun hp => absurd rfl hp⟩
  | true =>
      have hsince : g.pressureSince.getD now ≤ now := by
        cases hg : g.pressureSince with
        | none => exact le_rfl
        | some t => exact (h.pressed t hg).trans hle
      refine ⟨fun t ht => Option.some.inj ht ▸ hsince, fun _ => ⟨_, rfl, ?_⟩⟩
      rw [if_pos rfl]
      by_cases hrun : s.pressureSinceUs = 0
      · rw [if_pos hrun]
        exact hsince
      · obtain ⟨t, ht, hlt⟩ := h.pressure hrun
        rw [if_neg hrun, ht]
        exact hlt

/-- A record before the first commit leaves the fade streak alone. -/
theorem Weighed.intake {cfg : McsConfig} {s : Selector} {g : SelHistory} {clock now : ℕ}
    (h : Weighed cfg s g clock) (hle : clock ≤ now) (score : Score) (inPressure : Bool)
    (hc : s.currentMcs < 0) :
    Weighed cfg (s.intake inPressure now) (g.sample cfg score inPressure now) now := by
  obtain ⟨hpressed, hpressure⟩ := h.sample_pressure hle score inPressure
  refine ⟨?_, ?_, ?_, hpressed, hpressure⟩
  all_goals rw [s.intake_currentMcs]
  · exact fun hpos => absurd hc (not_lt.mpr hpos)
  · exact fun hpos => absurd hc (not_lt.mpr hpos)
  · rw [s.intake_fadeStreak]
    exact h.unfaded

theorem Weighed.heard {cfg : McsConfig} {s : Selector} {g : SelHistory} {clock now : ℕ}
    (h : Weighed cfg s g clock) (hle : clock ≤ now) (score : Score) (inPressure : Bool)
    (hc : 0 ≤ s.currentMcs) :
    Weighed cfg (s.heard cfg score inPressure now) (g.sample cfg score inPressure now) now := by
  obtain ⟨hpressed, hpressure⟩ := h.sample_pressure hle score inPressure
  have hrung := (s.heard_track cfg score inPressure now).rung
  refine ⟨fun _ => h.grounded hc, fun _ => ?_, fun hneg => ?_, hpressed, hpressure⟩
  · show (if fadeSample cfg score then (s.intake inPressure now).fadeStreak + 1 else 0) ≤
      if fadeSample cfg score then g.fadeRun + 1 else 0
    rw [s.intake_fadeStreak]
    split
    · exact Nat.succ_le_succ (h.fade hc)
    · exact le_rfl
  · rw [hrung] at hneg
    exact absurd hneg (not_lt.mpr hc)

/-- A commit that starts at the floor of the configuration when there is no rung yet. -/
theorem Weighed.commit {cfg : McsConfig} {s : Selector} {g : SelHistory} {now : ℕ}
    (h : Weighed cfg s g now) (hrange : cfg.mcsMin ≤ cfg.mcsMax) {target : ℤ}
    (hcold : s.currentMcs < 0 → target = cfg.mcsMin) (before after : ℤ) (t : ℕ) :
    Weighed cfg (s.commit cfg target now) (g.move before after t) now := by
  obtain ⟨hfade, hpressure⟩ := s.commit_evidence cfg target now
  have hrung := s.commit_currentMcs cfg target now
  have hmem := clampInt_mem hrange target
  have hground : 0 ≤ (s.commit cfg target now).currentMcs → 0 ≤ cfg.mcsMin := by
    intro hpos
    rcases lt_or_ge s.currentMcs 0 with hneg | hc
    · rwa [hrung, hcold hneg, clampInt_of_mem le_rfl hrange] at hpos
    · exact h.grounded hc
  refine ⟨hground, fun _ => ?_, fun hneg => ?_, h.pressed, ?_⟩
  · rw [hfade]
    rcases lt_or_ge s.currentMcs 0 with hneg | hc
    · exact (h.unfaded hneg).le.trans (Nat.zero_le _)
    · exact h.fade hc
  · rw [hfade]
    refine h.unfaded ?_
    by_contra hc
    have := h.grounded (not_lt.mp hc)
    omega
  · rw [hpressure]
    exact h.pressure

/-! ## Every call keeps the law -/

/-- The selector is the history, at the clock. -/
structure LawInv (cfg : McsConfig) (l : SelLoop) (g : SelHistory) : Prop where
  track : Tracked cfg l.sel g l.clock
  weigh : Weighed cfg l.sel g l.clock

theorem lawInv_boot (cfg : McsConfig) (clock : ℕ) : LawInv cfg { clock := clock } {} where
  track := {
    rung := .inl rfl
    last := fun t ht => absurd ht (Option.not_mem_none t)
    guarded := fun hpos => absurd hpos (not_le.mpr neg_one_lt_zero)
    order := .nil
    past := fun _ ht => absurd ht List.not_mem_nil
    ring := ⟨0, Nat.zero_le _, rfl, .inr fun _ ht => absurd ht List.not_mem_nil⟩ }
  weigh := {
    grounded := fun hpos => absurd hpos (not_le.mpr neg_one_lt_zero)
    fade := fun _ => le_rfl
    unfaded := fun _ => rfl
    pressed := fun t ht => absurd ht (Option.not_mem_none t)
    pressure := fun hne => absurd rfl hne }

section Rules

variable {cfg : McsConfig} {s : Selector} {g : SelHistory} {now : ℕ}

/-- A dwell the selector measures is one the history shows. -/
theorem Tracked.stood {clock : ℕ} (h : Tracked cfg s g clock) {secs : ℚ}
    (hd : secs ≤ secsOf (now - s.lastChangeUs)) : g.stood secs now := by
  rw [SelHistory.stood]
  cases hhead : g.changes.head? with
  | none => rfl
  | some t =>
      rw [h.last t hhead] at hd
      exact decide_eq_true hd

/-- The dwell the selector needs is the one the history asks for. -/
theorem Tracked.dwell {clock : ℕ} (h : Tracked cfg s g clock) :
    s.needDwell cfg now = g.dwell cfg s now := by
  rw [Selector.needDwell, SelHistory.dwell]
  by_cases hguard : 0 ≤ s.flapGuardMcs
  · rw [h.guarded hguard]
    simp only [Option.any_some, decide_eq_true_eq]
    split_ifs with hlong hguarded hguarded
    · exact (max_eq_right hlong.2.2.2.le).symm
    · exact absurd ⟨hlong.1, hlong.2.1, hlong.2.2.1⟩ hguarded
    · refine (max_eq_left (not_lt.mp fun hlt => ?_)).symm
      exact hlong ⟨hguarded.1, hguarded.2.1, hguarded.2.2, hlt⟩
    · rfl
  · rw [if_neg fun hlong => hguard hlong.1, if_neg fun hlong => hguard hlong.1]

theorem SelHistory.dwell_congr {s' : Selector} (hs : SameTrack s s') :
    g.dwell cfg s' now = g.dwell cfg s now := by
  rw [SelHistory.dwell, SelHistory.dwell, hs.guardMcs, hs.rung]

/-- Pressure the selector has timed is pressure the records show. -/
theorem Weighed.escaping {clock : ℕ} (h : Weighed cfg s g clock) (hrun : s.pressureSinceUs ≠ 0)
    (hheld : cfg.pressureEscapeS ≤ secsOf (now - s.pressureSinceUs)) : g.escaping cfg now := by
  obtain ⟨t, ht, hle⟩ := h.pressure hrun
  rw [SelHistory.escaping, ht]
  exact decide_eq_true (hheld.trans (secsOf_mono (Nat.sub_le_sub_left hle now)))

/-- The history a call leaves when the selector ends in a commit. -/
theorem LawInv.commit {clock : ℕ} {s₀ : Selector} (ht : Tracked cfg s₀ g clock)
    (hg : Weighed cfg s₀ g now) (hrange : cfg.mcsMin ≤ cfg.mcsMax)
    (hw : 1 / 1000000 ≤ cfg.oscillationWindowS) (hle : clock ≤ now) {target : ℤ}
    (hcold : s₀.currentMcs < 0 → target = cfg.mcsMin) :
    LawInv cfg ⟨s₀.commit cfg target now, now⟩
      (g.move s₀.currentMcs (s₀.commit cfg target now).currentMcs now) :=
  ⟨(ht.commit hrange hw hle target).1, hg.commit hrange hcold ..⟩

/-- A rule that commits: what is left to check is the step, its dwell and its cause. -/
theorem lawful_commit {l : SelLoop} {s₀ : Selector} {dt : ℕ} {score : Score} {probe : ProbeState}
    {inPressure : Bool} {target : ℤ} {decision : SelectDecision}
    (ht : Tracked cfg s₀ (g.sample cfg score inPressure (l.clock + dt)) l.clock)
    (hg : Weighed cfg s₀ (g.sample cfg score inPressure (l.clock + dt)) (l.clock + dt))
    (hs : s₀.currentMcs = l.sel.currentMcs) (hrange : cfg.mcsMin ≤ cfg.mcsMax)
    (hw : 1 / 1000000 ≤ cfg.oscillationWindowS)
    (hcold : s₀.currentMcs < 0 → target = cfg.mcsMin)
    (hok : ∀ o : SelSeen, o.call = .record dt score probe inPressure → o.now = l.clock + dt →
      o.before = l.sel → o.after.currentMcs = clampInt cfg.mcsMin cfg.mcsMax target →
      o.decision = decision →
      stepOk o ∧ dwellOk cfg (g.sample cfg score inPressure (l.clock + dt)) o ∧
        pressureOk cfg (g.sample cfg score inPressure (l.clock + dt)) o) :
    (lawful cfg).wp g (⟨s₀.commit cfg target (l.clock + dt), l.clock + dt⟩,
      [⟨.record dt score probe inPressure, l.clock + dt, l.sel, s₀.commit cfg target (l.clock + dt),
        decision⟩]) (LawInv cfg) := by
  have hinv := LawInv.commit ht hg hrange hw (Nat.le_add_right _ _) hcold
  have hring := (ht.commit hrange hw (Nat.le_add_right _ dt) target).2
  rw [hs] at hinv hring
  obtain ⟨hstep, hdwell, hpressure⟩ := hok ⟨.record dt score probe inPressure, l.clock + dt, l.sel,
    s₀.commit cfg target (l.clock + dt), decision⟩ rfl rfl rfl (s₀.commit_currentMcs ..) rfl
  refine wp_emit ?_ hinv
  show lawOk cfg g _ = true
  rw [lawOk, Bool.and_eq_true, Bool.and_eq_true, Bool.and_eq_true, Bool.and_eq_true]
  refine ⟨⟨⟨⟨?_, hstep⟩, hdwell⟩, hpressure⟩, ?_⟩
  · simpa [rungOk] using hinv.track.rung
  · simp only [ringOk, Bool.or_eq_true, decide_eq_true_eq]
    exact or_iff_not_imp_left.mpr hring

/-- A rule that moves a selector with a rung to one in the window. -/
theorem lawful_warm {l : SelLoop} {s₀ : Selector} {dt : ℕ} {score : Score} {probe : ProbeState}
    {inPressure : Bool} {target : ℤ} {decision : SelectDecision}
    (ht : Tracked cfg s₀ (g.sample cfg score inPressure (l.clock + dt)) l.clock)
    (hg : Weighed cfg s₀ (g.sample cfg score inPressure (l.clock + dt)) (l.clock + dt))
    (hs : s₀.currentMcs = l.sel.currentMcs) (hc : 0 ≤ l.sel.currentMcs)
    (hw : 1 / 1000000 ≤ cfg.oscillationWindowS)
    (hmin : cfg.mcsMin ≤ target) (hmax : target ≤ cfg.mcsMax)
    (hok : ∀ o : SelSeen, o.call = .record dt score probe inPressure → o.now = l.clock + dt →
      o.before = l.sel → o.after.currentMcs = target → o.decision = decision →
      stepOk o ∧ dwellOk cfg (g.sample cfg score inPressure (l.clock + dt)) o ∧
        pressureOk cfg (g.sample cfg score inPressure (l.clock + dt)) o) :
    (lawful cfg).wp g (⟨s₀.commit cfg target (l.clock + dt), l.clock + dt⟩,
      [⟨.record dt score probe inPressure, l.clock + dt, l.sel, s₀.commit cfg target (l.clock + dt),
        decision⟩]) (LawInv cfg) := by
  refine lawful_commit ht hg hs (hmin.trans hmax) hw
    (fun hneg => absurd hc (not_le.mpr (hs ▸ hneg))) ?_
  intro o hcall hnow hbefore hafter hdec
  rw [clampInt_of_mem hmin hmax] at hafter
  exact hok o hcall hnow hbefore hafter hdec

/-- A call that ends without a commit. -/
theorem LawInv.hold {clock : ℕ} {s₀ : Selector} (ht : Tracked cfg s₀ g clock)
    (hg : Weighed cfg s₀ g now) (hle : clock ≤ now) : LawInv cfg ⟨s₀, now⟩ g :=
  ⟨ht.later hle, hg⟩

/-- Every rule keeps the law. -/
theorem lawful_ruled {l : SelLoop} {dt : ℕ} {score : Score} {probe : ProbeState} {inPressure : Bool}
    (hrange : cfg.mcsMin ≤ cfg.mcsMax) (hw : 1 / 1000000 ≤ cfg.oscillationWindowS)
    (h : LawInv cfg l g) {r : Selector × SelectDecision}
    (hr : Ruled cfg score inPressure (l.clock + dt) l.sel r) :
    (lawful cfg).wp g (⟨r.1, l.clock + dt⟩,
      [⟨.record dt score probe inPressure, l.clock + dt, l.sel, r.1, r.2⟩]) (LawInv cfg) := by
  have hle : l.clock ≤ l.clock + dt := Nat.le_add_right _ _
  have hsample := h.track.sample score inPressure (l.clock + dt)
  have hintake := l.sel.intake_track inPressure (l.clock + dt)
  have hheard := l.sel.heard_track cfg score inPressure (l.clock + dt)
  have hwindow : 0 ≤ l.sel.currentMcs →
      cfg.mcsMin ≤ l.sel.currentMcs ∧ l.sel.currentMcs ≤ cfg.mcsMax := fun hc =>
    h.track.rung.resolve_left (by omega)
  cases hr with
  | init hc =>
      refine lawful_commit (hsample.congr hintake) (h.weigh.intake hle score inPressure hc)
        hintake.rung hrange hw (fun _ => rfl) ?_
      intro o hcall _ _ _ hd
      rw [stepOk, dwellOk, pressureOk, hcall, hd]
      exact ⟨rfl, rfl, rfl⟩
  | hold hc =>
      have hinv := LawInv.hold (hsample.congr hheard) (h.weigh.heard hle score inPressure hc) hle
      refine wp_emit ?_ ?_
      · show lawOk cfg g _ = true
        simp only [lawOk, rungOk, stepOk, dwellOk, pressureOk, ringOk, hheard.rung]
        simpa using h.track.rung
      · show LawInv cfg _ (SelHistory.move _ _ _ _)
        rw [hheard.rung, SelHistory.move_same]
        exact hinv
  | demote hc hd hp =>
      have hwarm := h.weigh.heard hle score inPressure hc
      rw [Selector.canDemote, Bool.and_eq_true, decide_eq_true_eq, decide_eq_true_eq, hheard.rung] at hd
      rw [hheard.rung]
      refine lawful_warm (hsample.congr hheard) hwarm hheard.rung hc hw (by omega)
        (by have := hwindow hc; omega) ?_
      intro o hcall hnow hbefore hafter hdec
      rw [stepOk, dwellOk, pressureOk, hcall, hdec, hnow, hbefore, hafter]
      refine ⟨decide_eq_true rfl, (hsample.congr hheard).stood hd.2, ?_⟩
      simp only [Bool.or_eq_true, Bool.not_eq_true', Bool.and_eq_false_iff, decide_eq_true_eq]
      by_cases hblock : inPressure = true ∧ cfg.pressureDemoteBlock = true
      · rcases hp hblock.1 hblock.2 with hfloor | hfade
        · exact .inl (.inr hfloor)
        · exact .inr ((of_decide_eq_true hfade).trans (hwarm.fade (hheard.rung.symm ▸ hc)))
      · grind
  | escape hc he =>
      have hwarm := h.weigh.heard hle score inPressure hc
      simp only [Selector.escapes, Bool.and_eq_true, decide_eq_true_eq, hheard.rung] at he
      obtain ⟨⟨⟨⟨⟨⟨-, hrun⟩, htop⟩, -⟩, -⟩, hheld⟩, hcool⟩ := he
      rw [hheard.rung]
      have htrack : Tracked cfg { l.sel.heard cfg score inPressure (l.clock + dt) with
          pressureEscapeCount :=
            (l.sel.heard cfg score inPressure (l.clock + dt)).pressureEscapeCount + 1 }
          (g.sample cfg score inPressure (l.clock + dt)) l.clock :=
        (hsample.congr hheard).congr ⟨rfl, rfl, rfl, rfl, rfl⟩
      refine lawful_warm htrack
        ⟨hwarm.grounded, hwarm.fade, hwarm.unfaded, hwarm.pressed, hwarm.pressure⟩
        hheard.rung hc hw (by have := hwindow hc; omega) (by omega) ?_
      intro o hcall hnow hbefore hafter hdec
      rw [stepOk, dwellOk, pressureOk, hcall, hdec, hnow, hbefore, hafter]
      refine ⟨decide_eq_true rfl, ?_, rfl⟩
      rw [Bool.or_eq_true, Bool.and_eq_true]
      exact .inr ⟨htrack.stood hcool, hwarm.escaping hrun hheld⟩
  | promote hc hp =>
      have hwarm := h.weigh.heard hle score inPressure hc
      simp only [Selector.canPromote, Bool.and_eq_true, decide_eq_true_eq, hheard.rung] at hp
      obtain ⟨⟨-, htop⟩, hdwell⟩ := hp
      rw [hheard.rung]
      refine lawful_warm (hsample.congr hheard) hwarm hheard.rung hc hw
        (by have := hwindow hc; omega) (by omega) ?_
      intro o hcall hnow hbefore hafter hdec
      rw [stepOk, dwellOk, pressureOk, hcall, hdec, hnow, hbefore, hafter]
      refine ⟨decide_eq_true rfl, ?_, rfl⟩
      rw [Bool.or_eq_true]
      refine .inl ((hsample.congr hheard).stood ?_)
      rw [← SelHistory.dwell_congr hheard, ← (hsample.congr hheard).dwell]
      exact hdwell

/-- What the fields a ring does not touch say. -/
theorem Weighed.expired {clock : ℕ} (h : Weighed cfg s g clock) (hle : clock ≤ now) :
    Weighed cfg (s.expireChanges cfg now) g now := by
  rw [s.expireChanges_eq]
  exact ⟨h.grounded, h.fade, h.unfaded, (h.later hle).pressed, h.pressure⟩

/-- A commit of a selector whose ring is up to date leaves it up to date. -/
theorem Tracked.commit_recent (h : Tracked cfg s g now) (hrange : cfg.mcsMin ≤ cfg.mcsMax)
    (hw : 1 / 1000000 ≤ cfg.oscillationWindowS) (hring : s.changes.toList = g.recent cfg now)
    (target : ℤ) :
    (s.commit cfg target now).changes.toList =
      (g.move s.currentMcs (s.commit cfg target now).currentMcs now).recent cfg now := by
  by_cases hsame : s.currentMcs = clampInt cfg.mcsMin cfg.mcsMax target
  · rw [s.commit_same cfg now hsame, SelHistory.move_same]
    exact hring
  · refine (h.commit hrange hw le_rfl target).2 ?_
    rw [s.commit_currentMcs]
    exact Ne.symm hsame

/-- The watchdog keeps it too. -/
theorem lawful_tick {l : SelLoop} {dt : ℕ} (hrange : cfg.mcsMin ≤ cfg.mcsMax)
    (hw : 1 / 1000000 ≤ cfg.oscillationWindowS) (h : LawInv cfg l g) :
    (lawful cfg).wp g (SelLoop.step cfg l (.tick dt)) (LawInv cfg) := by
  have hle : l.clock ≤ l.clock + dt := Nat.le_add_right _ _
  have hring := h.track.recent hw hle
  have htrack := h.track.expired hw hle
  have hweigh := h.weigh.expired hle
  have hrung : (l.sel.expireChanges cfg (l.clock + dt)).currentMcs = l.sel.currentMcs :=
    l.sel.expireChanges_currentMcs ..
  -- a decision that is no step leaves the rung and the ring to check
  have hemit : ∀ r : Selector × SelectDecision, r.2 ≠ .down → r.2 ≠ .up →
      LawInv cfg ⟨r.1, l.clock + dt⟩ (g.move l.sel.currentMcs r.1.currentMcs (l.clock + dt)) →
      r.1.changes.toList =
        (g.move l.sel.currentMcs r.1.currentMcs (l.clock + dt)).recent cfg (l.clock + dt) →
      (lawful cfg).wp g (⟨r.1, l.clock + dt⟩, [⟨.tick dt, l.clock + dt, l.sel, r.1, r.2⟩])
        (LawInv cfg) := by
    intro r hdown hup hinv hlatest
    refine wp_emit ?_ hinv
    have hwindow := hinv.track.rung
    show lawOk cfg g _ = true
    simp only [lawOk, rungOk, stepOk, dwellOk, pressureOk, ringOk]
    cases hd : r.2 <;> simp_all [SelHistory.upd, SelHistory.hear]
  rw [SelLoop.step, SelCall.result]
  rcases l.sel.tickNoData_cases cfg (l.clock + dt) with hidle | hfloor
  · rw [SelCall.dt, hidle]
    refine hemit _ SelectDecision.noConfusion SelectDecision.noConfusion ?_ ?_
    · rw [hrung, SelHistory.move_same]
      exact ⟨htrack, hweigh⟩
    · rw [hrung, SelHistory.move_same]
      exact hring
  · rw [SelCall.dt, hfloor]
    have hdown : Tracked cfg (l.sel.expireChanges cfg (l.clock + dt)).failsafe g (l.clock + dt) :=
      htrack.congr ⟨rfl, rfl, rfl, rfl, rfl⟩
    have hlast : Weighed cfg (l.sel.expireChanges cfg (l.clock + dt)).failsafe g (l.clock + dt) :=
      ⟨hweigh.grounded, hweigh.fade, hweigh.unfaded, hweigh.pressed, hweigh.pressure⟩
    rw [← hrung] at hemit
    refine hemit _ SelectDecision.noConfusion SelectDecision.noConfusion ?_ ?_
    · exact LawInv.commit hdown hlast hrange hw le_rfl fun _ => rfl
    · exact hdown.commit_recent hrange hw hring _

end Rules

/-- In every run of the selector under one configuration the rung stays in its window, every
step is one rung and comes after its dwell, under a block on demotions only the floor or a fade
steps down, and whenever the ring is expired it holds the latest changes inside the window. -/
theorem selector_law (cfg : McsConfig) (hrange : cfg.mcsMin ≤ cfg.mcsMax)
    (hw : 1 / 1000000 ≤ cfg.oscillationWindowS) (clock : ℕ) (es : List SelCall) :
    (lawful cfg).Accepts {} ((SelLoop.machine cfg).trace { clock := clock } es) ∧
      ∀ later ≥ ((SelLoop.machine cfg).run { clock := clock } es).clock,
        (((SelLoop.machine cfg).run { clock := clock } es).sel.expireChanges cfg later).changes.toList
          = ((lawful cfg).after {} ((SelLoop.machine cfg).trace { clock := clock } es)).recent cfg
              later := by
  have hstep : ∀ l g e, LawInv cfg l g → True →
      (lawful cfg).wp g ((SelLoop.machine cfg).step l e) (LawInv cfg) := by
    intro l g e h _
    cases e with
    | record dt score probe inPressure => exact lawful_ruled hrange hw h (Selector.update_ruled _)
    | tick dt => exact lawful_tick hrange hw h
  obtain ⟨hlaw, hend⟩ := Machine.run_wp hstep (lawInv_boot cfg clock)
    (Machine.Meets.of_forall fun _ _ => trivial)
  exact ⟨hlaw, fun later hle => hend.track.recent hw hle⟩

/-- A score with that RSSI and that loss, on a flat slope. -/
def scoreAt (rssi lost : ℚ) : Score :=
  ⟨rssi, rssi, lost, lost, 0, 0, 0, 0, 1, 0, []⟩

/-- Every rung just measured clean. -/
def cleanProbe (now : ℕ) : ProbeState :=
  { rung := fun _ => { accounted := 100, lastUs := now, records := 1, valid := true } }

/-- A cold start, a step up on a clean probe, a loss that takes it back, and silence. -/
def climbRun : List SelCall :=
  [.record 1000000 (scoreAt (-40) 0) {} false,
    .record 1000000 (scoreAt (-40) 0) (cleanProbe 2000000) false,
    .record 500000 (scoreAt (-40) (1 / 2)) {} false, .tick 600000]

theorem selector_law_climb :
    ((({} : McsConfig).mcsMin ≤ ({} : McsConfig).mcsMax) ∧
      1 / 1000000 ≤ ({} : McsConfig).oscillationWindowS) ∧
      (lawful {}).Accepts {} ((SelLoop.machine {}).trace { clock := 0 } climbRun) := by
  have hrange : ({} : McsConfig).mcsMin ≤ ({} : McsConfig).mcsMax := by decide
  have hw : 1 / 1000000 ≤ ({} : McsConfig).oscillationWindowS := by decide +kernel
  exact ⟨⟨hrange, hw⟩, (selector_law {} hrange hw 0 climbRun).1⟩

/-- Under half a microsecond of window the change that was just made is gone from the ring. -/
theorem selector_law_broken : ¬ ∀ cfg : McsConfig, cfg.mcsMin ≤ cfg.mcsMax →
    0 < cfg.oscillationWindowS → ∀ clock es,
      (lawful cfg).Accepts {} ((SelLoop.machine cfg).trace { clock := clock } es) := by
  intro hall
  have hrun := hall { oscillationWindowS := 1 / 2000000 } (by decide) (by decide +kernel) 0
    [.record 1000000 (scoreAt (-40) 0) {} false]
  revert hrun
  decide +kernel

end Waybeam.Vehicle
