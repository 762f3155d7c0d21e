/-
# `Waybeam.Vehicle.Dwell` — when a block may be committed

Five timers decide.  Beside the controller a history is kept of the instants they are about
(`Past`), and every commit is held against it (`commitLaw`):

    startup     no commit
    settling    feed-forward only
    down, up    the computed `k` was on that side at every tick of the dwell
    up          by `k_hyst_up`, and `cooldown_up_s` after the last commit
    step        `ff_cooldown_s` after the last feed-forward step

A tick that returns before the hysteresis leaves the pending markers alone, whatever it has seen.  So
the law holds over the runs in which no such tick sees `k` on another side than a marker
(`keepsMarkers`), and not over all.
-/
import Waybeam.Vehicle.Ticks

namespace Waybeam.Vehicle

/-! ## The law -/

/-- The computed `k` is below the one in force, or above it. -/
def TickObs.below (o : TickObs) : Bool := o.cur.any fun cur => decide (o.cand.k < cur.k)
def TickObs.above (o : TickObs) : Bool := o.cur.any fun cur => decide (cur.k < o.cand.k)

/-- The last tick that did not see `k` below, and above; the last commit; the last step. -/
structure Past where
  notBelow : Option ℕ := none
  notAbove : Option ℕ := none
  commit : Option ℕ := none
  step : Option ℕ := none

/-- What the past must be for a commit of this kind. -/
def Past.allows (p : Past) (cfg : FecConfig) (o : TickObs) : CommitKind → Prop
  | .first => True
  | .settled => True
  | .feedForward => ∀ t ∈ p.step, usOf cfg.ffCooldownS ≤ o.now - t
  | .dwell =>
      (o.below = true → ∀ t ∈ p.notBelow, cfg.kDownDwellS ≤ secsOf (o.now - t)) ∧
      (o.above = true → (∀ t ∈ p.notAbove, cfg.kUpDwellS ≤ secsOf (o.now - t)) ∧
        (∀ cur ∈ o.cur, cfg.kHystUp ≤ o.cand.k - cur.k) ∧
        ∀ t ∈ p.commit, cfg.cooldownUpS ≤ secsOf (o.now - t))

instance (p : Past) (cfg : FecConfig) (o : TickObs) (kind : CommitKind) :
    Decidable (p.allows cfg o kind) :=
  match kind with
  | .first => inferInstanceAs (Decidable True)
  | .settled => inferInstanceAs (Decidable True)
  | .feedForward => inferInstanceAs (Decidable (∀ t ∈ p.step, _))
  | .dwell => inferInstanceAs (Decidable ((_ → ∀ t ∈ p.notBelow, _) ∧ (_ → (∀ t ∈ p.notAbove, _) ∧
      (∀ cur ∈ o.cur, _) ∧ ∀ t ∈ p.commit, _)))

/-- Every commit, against what has been before it. -/
def commitLaw (cfg : FecConfig) : Monitor TickObs Past where
  upd p o :=
    { notBelow := if o.below then p.notBelow else some o.now
      notAbove := if o.above then p.notAbove else some o.now
      commit := if o.kind.isSome then some o.now else p.commit
      step := if o.kind = some .feedForward then some o.now else p.step }
  ok p o := decide (∀ kind ∈ o.kind,
    o.startup = false ∧ (o.settle = true → kind = .feedForward) ∧ p.allows cfg o kind)

/-! ## Ticks that return early -/

/-- The tick returns before the hysteresis, without a commit. -/
def Controller.returnsEarly (c : Controller) (cfg : FecConfig) (now : ℕ) (cand : FecParams)
    (ffActive : Bool) (committedKbps : ℤ) : Bool :=
  match c.current with
  | none => c.inStartupGrace cfg now || c.inSettleGrace now
  | some cur =>
      if c.ffApplies cfg now cand ffActive cur committedKbps then c.ffCooling cfg now
      else c.inStartupGrace cfg now || c.inSettleGrace now ||
        (c.wasInGrace && decide (cand.k = cur.k ∧ cand.n = cur.n))

/-- What a tick that returns early sees agrees with the markers it leaves. -/
def Controller.keepsMarkers (c : Controller) (cfg : FecConfig) (now : ℕ) (cand : FecParams)
    (ffActive : Bool) (committedKbps : ℤ) : Bool :=
  let o := c.observe cfg now cand ffActive committedKbps
  decide (c.returnsEarly cfg now cand ffActive committedKbps = true →
    (c.kDownPendingSinceUs ≠ 0 → o.below = true) ∧ (c.kUpPendingSinceUs ≠ 0 → o.above = true))

def Sizer.keepsMarkers (cfg : FecConfig) (s : Sizer) : SizerEvent → Bool
  | .settle .. => true
  | .tick dt frameSize fps committedKbps =>
      let now := s.clock + dt
      let (c, ring) := s.ctrl.intake cfg frameSize s.ring now
      let (cand, ffActive) := c.candidate cfg ring fps committedKbps
      c.keepsMarkers cfg now cand ffActive committedKbps

/-! ## The markers and the past -/

/-- The markers are no older than what they are about. -/
structure Marks (c : Controller) (p : Past) (now : ℕ) : Prop where
  below : ∀ t ∈ p.notBelow, t ≤ now ∧ (c.kDownPendingSinceUs ≠ 0 → t ≤ c.kDownPendingSinceUs)
  above : ∀ t ∈ p.notAbove, t ≤ now ∧ (c.kUpPendingSinceUs ≠ 0 → t ≤ c.kUpPendingSinceUs)
  commit : ∀ t ∈ p.commit, c.lastUpdateUs = t
  step : ∀ t ∈ p.step, c.ffLastCommitUs = t ∧ t ≠ 0

section Decision

variable {cfg : FecConfig} {c c' : Controller} {p : Past} {o : TickObs} {now : ℕ} {cand cur : FecParams}

/-- A marker that agrees with what is seen, or is cleared, or set now. -/
theorem marker_past {seen : Bool} {last : Option ℕ} {since since' : ℕ}
    (h : ∀ t ∈ last, t ≤ now ∧ (since ≠ 0 → t ≤ since))
    (hmark : since' = since ∧ (since ≠ 0 → seen = true) ∨ since' = 0 ∨ since' = now) :
    ∀ t ∈ (if seen then last else some now), t ≤ now ∧ (since' ≠ 0 → t ≤ since') := by
  intro t ht
  have hle : t ≤ now := by
    cases seen
    · exact (Option.some.inj ht).symm.le
    · exact (h t ht).1
  refine ⟨hle, fun hne => ?_⟩
  rcases hmark with ⟨rfl, hseen⟩ | hzero | hnow
  · rw [if_pos (hseen hne)] at ht
    exact (h t ht).2 hne
  · exact absurd hzero hne
  · exact hnow.symm ▸ hle

theorem marks_quiet (h : Marks c p o.now) (hkind : o.kind = none)
    (hdown : c'.kDownPendingSinceUs = c.kDownPendingSinceUs ∧ (c.kDownPendingSinceUs ≠ 0 → o.below = true) ∨
      c'.kDownPendingSinceUs = 0 ∨ c'.kDownPendingSinceUs = o.now)
    (hup : c'.kUpPendingSinceUs = c.kUpPendingSinceUs ∧ (c.kUpPendingSinceUs ≠ 0 → o.above = true) ∨
      c'.kUpPendingSinceUs = 0 ∨ c'.kUpPendingSinceUs = o.now)
    (hlast : c'.lastUpdateUs = c.lastUpdateUs) (hff : c'.ffLastCommitUs = c.ffLastCommitUs) :
    Marks c' ((commitLaw cfg).upd p o) o.now := by
  refine ⟨marker_past h.below hdown, marker_past h.above hup, ?_, ?_⟩
  · intro t ht
    simp only [commitLaw, hkind, Option.isSome_none, Bool.false_eq_true, if_false] at ht
    exact hlast.trans (h.commit t ht)
  · intro t ht
    simp only [commitLaw, hkind, reduceCtorEq, if_false] at ht
    exact ⟨hff.trans (h.step t ht).1, (h.step t ht).2⟩

/-- A commit clears the markers. -/
theorem marks_commit {kind : CommitKind} (h : Marks c p o.now) (hkind : o.kind = some kind)
    (hdown : c'.kDownPendingSinceUs = 0) (hup : c'.kUpPendingSinceUs = 0) (hlast : c'.lastUpdateUs = o.now)
    (hff : c'.ffLastCommitUs = if kind = .feedForward then o.now else c.ffLastCommitUs) (hpos : 0 < o.now) :
    Marks c' ((commitLaw cfg).upd p o) o.now := by
  refine ⟨marker_past h.below (.inr (.inl hdown)), marker_past h.above (.inr (.inl hup)), ?_, ?_⟩
  · intro t ht
    simp only [commitLaw, hkind, Option.isSome_some, if_true] at ht
    exact hlast.trans (Option.some.inj ht)
  · intro t ht
    simp only [commitLaw, hkind, Option.some.injEq] at ht
    split at ht
    · next hstep =>
        rw [if_pos hstep] at hff
        rw [← Option.some.inj ht]
        exact ⟨hff, hpos.ne'⟩
    · next hstep =>
        rw [if_neg hstep] at hff
        exact ⟨hff.trans (h.step t ht).1, (h.step t ht).2⟩

/-- What the hysteresis does: it waits, or it replaces the block. -/
inductive Lingers (c : Controller) (cfg : FecConfig) (now : ℕ) (cand cur : FecParams) :
    Controller × Option FecParams → Prop
  | waits {c' : Controller}
      (hdown : c'.kDownPendingSinceUs = c.kDownPendingSinceUs ∧
          (c.kDownPendingSinceUs ≠ 0 → cand.k < cur.k) ∨
        c'.kDownPendingSinceUs = 0 ∨ c'.kDownPendingSinceUs = now)
      (hup : c'.kUpPendingSinceUs = c.kUpPendingSinceUs ∧ (c.kUpPendingSinceUs ≠ 0 → cur.k < cand.k) ∨
        c'.kUpPendingSinceUs = 0 ∨ c'.kUpPendingSinceUs = now)
      (hlast : c'.lastUpdateUs = c.lastUpdateUs) (hff : c'.ffLastCommitUs = c.ffLastCommitUs) :
      Lingers c cfg now cand cur (c', none)
  | replaces {c' : Controller}
      (hdown : c'.kDownPendingSinceUs = 0) (hup : c'.kUpPendingSinceUs = 0) (hlast : c'.lastUpdateUs = now)
      (hff : c'.ffLastCommitUs = c.ffLastCommitUs)
      (hbelow : cand.k < cur.k → cfg.kDownDwellS ≤
        secsOf (now - if c.kDownPendingSinceUs = 0 then now else c.kDownPendingSinceUs))
      (habove : cur.k < cand.k → cfg.kUpDwellS ≤
          secsOf (now - if c.kUpPendingSinceUs = 0 then now else c.kUpPendingSinceUs) ∧
        cfg.kHystUp ≤ cand.k - cur.k ∧ cfg.cooldownUpS ≤ secsOf (now - c.lastUpdateUs)) :
      Lingers c cfg now cand cur (c', some cand)

theorem hysteresis_lingers : Lingers c cfg now cand cur (c.hysteresis cfg now cand cur) := by
  have hsince : ∀ (since : ℕ) (seen : Prop), seen →
      (if since = 0 then now else since) = since ∧ (since ≠ 0 → seen) ∨
        (if since = 0 then now else since) = 0 ∨ (if since = 0 then now else since) = now := by
    intro since seen hseen
    split
    · exact .inr (.inr rfl)
    · exact .inl ⟨rfl, fun _ => hseen⟩
  rw [Controller.hysteresis]
  dsimp only
  by_cases hlt : cand.k < cur.k
  · rw [if_pos hlt]
    by_cases hheld : secsOf (now - if c.kDownPendingSinceUs = 0 then now else c.kDownPendingSinceUs)
        < cfg.kDownDwellS
    · rw [if_pos hheld]
      exact .waits (hsince _ _ hlt) (.inr (.inl rfl)) rfl rfl
    · rw [if_neg hheld]
      exact .replaces rfl rfl rfl rfl (fun _ => not_lt.mp hheld) fun hgt => absurd hlt hgt.not_gt
  rw [if_neg hlt]
  by_cases heq : cand.k = cur.k
  · rw [if_pos heq]
    split
    · exact .replaces rfl rfl rfl rfl (fun hno => absurd hno hlt) fun hgt => absurd heq hgt.ne'
    · exact .waits (.inr (.inl rfl)) (.inr (.inl rfl)) rfl rfl
  rw [if_neg heq]
  have hgt : cur.k < cand.k := lt_of_le_of_ne (not_lt.mp hlt) (Ne.symm heq)
  by_cases hheld : secsOf (now - if c.kUpPendingSinceUs = 0 then now else c.kUpPendingSinceUs) < cfg.kUpDwellS
  · rw [if_pos hheld]
    exact .waits (.inr (.inl rfl)) (hsince _ _ hgt) rfl rfl
  rw [if_neg hheld]
  by_cases hhyst : cand.k - cur.k < cfg.kHystUp
  · rw [if_pos hhyst]
    exact .waits (.inr (.inl rfl)) (hsince _ _ hgt) rfl rfl
  rw [if_neg hhyst]
  by_cases hcool : secsOf (now - c.lastUpdateUs) < cfg.cooldownUpS
  · rw [if_pos hcool]
    exact .waits (.inr (.inl rfl)) (hsince _ _ hgt) rfl rfl
  · rw [if_neg hcool]
    exact .replaces rfl rfl rfl rfl (fun hno => absurd hno hlt) fun _ =>
      ⟨not_lt.mp hheld, not_lt.mp hhyst, not_lt.mp hcool⟩

variable {ffActive : Bool} {committedKbps : ℤ}

theorem observe_none {c' : Controller} (hr : c.judge cfg now cand ffActive committedKbps = (c', none)) :
    (c.observe cfg now cand ffActive committedKbps).kind = none := by
  show (if (c.judge cfg now cand ffActive committedKbps).2.isSome = true then some _ else none) = none
  rw [hr]
  rfl

theorem observe_some {c' : Controller} {kind : CommitKind}
    (hr : c.judge cfg now cand ffActive committedKbps = (c', some cand))
    (hkind : c.kind cfg now cand ffActive committedKbps = kind) :
    (c.observe cfg now cand ffActive committedKbps).kind = some kind := by
  show (if (c.judge cfg now cand ffActive committedKbps).2.isSome = true then
    some (c.kind cfg now cand ffActive committedKbps) else none) = some kind
  rw [hr, hkind]
  rfl

theorem law_none (h : o.kind = none) : (commitLaw cfg).ok p o = true := by
  refine decide_eq_true fun kind hkind => ?_
  rw [h] at hkind
  cases hkind

theorem law_some {kind : CommitKind} (h : o.kind = some kind) (hstartup : o.startup = false)
    (hsettle : o.settle = true → kind = .feedForward) (hallows : p.allows cfg o kind) :
    (commitLaw cfg).ok p o = true := by
  refine decide_eq_true fun kind' hkind' => ?_
  obtain rfl : kind = kind' := Option.some.inj (h.symm.trans hkind')
  exact ⟨hstartup, hsettle, hallows⟩

/-- The law holds of the decision, and the marks hold after it. -/
structure Lawful (cfg : FecConfig) (c : Controller) (p : Past) (now : ℕ) (cand : FecParams) (ffActive : Bool)
    (committedKbps : ℤ) : Prop where
  ok : (commitLaw cfg).ok p (c.observe cfg now cand ffActive committedKbps) = true
  marks : Marks (c.judge cfg now cand ffActive committedKbps).1
    ((commitLaw cfg).upd p (c.observe cfg now cand ffActive committedKbps)) now

/-- A tick that returns early leaves the markers. -/
theorem lawful_early (h : Marks c p now) (hkeep : c.keepsMarkers cfg now cand ffActive committedKbps = true)
    (hr : c.judge cfg now cand ffActive committedKbps = (c', none))
    (hearly : c.returnsEarly cfg now cand ffActive committedKbps = true)
    (hdown : c'.kDownPendingSinceUs = c.kDownPendingSinceUs) (hup : c'.kUpPendingSinceUs = c.kUpPendingSinceUs)
    (hlast : c'.lastUpdateUs = c.lastUpdateUs) (hff : c'.ffLastCommitUs = c.ffLastCommitUs) :
    Lawful cfg c p now cand ffActive committedKbps := by
  have hagree := of_decide_eq_true hkeep hearly
  have hkind := observe_none hr
  refine ⟨law_none hkind, ?_⟩
  rw [hr]
  exact marks_quiet h hkind (.inl ⟨hdown, hagree.1⟩) (.inl ⟨hup, hagree.2⟩) hlast hff

theorem lawful_committing {kind : CommitKind} (h : Marks c p now) (hpos : 0 < now)
    (hr : c.judge cfg now cand ffActive committedKbps = (c', some cand))
    (hkind : c.kind cfg now cand ffActive committedKbps = kind) (hstartup : c.inStartupGrace cfg now = false)
    (hsettle : c.inSettleGrace now = true → kind = .feedForward)
    (hallows : p.allows cfg (c.observe cfg now cand ffActive committedKbps) kind)
    (hdown : c'.kDownPendingSinceUs = 0) (hup : c'.kUpPendingSinceUs = 0) (hlast : c'.lastUpdateUs = now)
    (hff : c'.ffLastCommitUs = if kind = .feedForward then now else c.ffLastCommitUs) :
    Lawful cfg c p now cand ffActive committedKbps := by
  have hsome := observe_some hr hkind
  refine ⟨law_some hsome hstartup hsettle hallows, ?_⟩
  rw [hr]
  exact marks_commit h hsome hdown hup hlast hff hpos

theorem lawful_none (h : Marks c p now) (hpos : 0 < now) (hcur : c.current = none)
    (hkeep : c.keepsMarkers cfg now cand ffActive committedKbps = true) :
    Lawful cfg c p now cand ffActive committedKbps := by
  have hr := c.judge_none cfg now cand hcur ffActive committedKbps
  by_cases hgrace : (c.inStartupGrace cfg now || c.inSettleGrace now) = true
  · rw [if_pos hgrace] at hr
    refine lawful_early h hkeep hr ?_ rfl rfl rfl rfl
    rw [Controller.returnsEarly, hcur]
    exact hgrace
  · rw [if_neg hgrace] at hr
    obtain ⟨hstartup, hsettle⟩ := Bool.or_eq_false_iff.mp (Bool.eq_false_iff.mpr hgrace)
    have hkind : c.kind cfg now cand ffActive committedKbps = .first := by rw [Controller.kind, hcur]
    refine lawful_committing h hpos hr hkind hstartup ?_ trivial rfl rfl rfl rfl
    intro hno
    cases hsettle.symm.trans hno

/-- A feed-forward step waits for the cooldown. -/
theorem step_allowed (h : Marks c p now) (hcool : ¬c.ffCooling cfg now = true) :
    ∀ t ∈ p.step, usOf cfg.ffCooldownS ≤ now - t := by
  intro t ht
  obtain ⟨hlast, hne⟩ := h.step t ht
  by_contra hnear
  refine hcool ?_
  have hcd : usOf cfg.ffCooldownS ≠ 0 := fun hzero => hnear (hzero ▸ Nat.zero_le _)
  rw [Controller.ffCooling, hlast, decide_eq_true hne, decide_eq_true hcd, decide_eq_true (not_le.mp hnear)]
  rfl

theorem lawful_hysteresis (h : Marks c p now) (hpos : 0 < now) (hcur : c.current = some cur)
    (hr : c.judge cfg now cand ffActive committedKbps =
      (c.noted now committedKbps).hysteresis cfg now cand cur)
    (hkind : c.kind cfg now cand ffActive committedKbps = .dwell)
    (hstartup : c.inStartupGrace cfg now = false) (hsettle : c.inSettleGrace now = false) :
    Lawful cfg c p now cand ffActive committedKbps := by
  have hbelow : (c.observe cfg now cand ffActive committedKbps).below = decide (cand.k < cur.k) := by
    show c.current.any _ = _
    rw [hcur]
    rfl
  have habove : (c.observe cfg now cand ffActive committedKbps).above = decide (cur.k < cand.k) := by
    show c.current.any _ = _
    rw [hcur]
    rfl
  have hlingers : Lingers (c.noted now committedKbps) cfg now cand cur
    ((c.noted now committedKbps).hysteresis cfg now cand cur) := hysteresis_lingers
  generalize (c.noted now committedKbps).hysteresis cfg now cand cur = out at hr hlingers
  cases hlingers with
  | waits hdown hup hlast hff =>
      have hnone := observe_none hr
      refine ⟨law_none hnone, ?_⟩
      rw [hr]
      refine marks_quiet h hnone ?_ ?_ hlast hff
      · rw [hbelow, decide_eq_true_iff]
        exact hdown
      · rw [habove, decide_eq_true_iff]
        exact hup
  | replaces hdown hup hlast hff hheldDown hheldUp =>
      have hsince : ∀ (last : Option ℕ) (since : ℕ), (∀ t ∈ last, t ≤ now ∧ (since ≠ 0 → t ≤ since)) →
          ∀ t ∈ last, secsOf (now - if since = 0 then now else since) ≤ secsOf (now - t) := by
        intro last since hpast t ht
        refine secsOf_mono (Nat.sub_le_sub_left ?_ now)
        split
        · exact (hpast t ht).1
        · next hne => exact (hpast t ht).2 hne
      refine lawful_committing h hpos hr hkind hstartup ?_ ⟨?_, ?_⟩ hdown hup hlast hff
      · intro hno
        cases hsettle.symm.trans hno
      · intro hb t ht
        rw [hbelow] at hb
        exact (hheldDown (of_decide_eq_true hb)).trans (hsince _ _ h.below t ht)
      · intro ha
        rw [habove] at ha
        obtain ⟨hheld, hhyst, hcool⟩ := hheldUp (of_decide_eq_true ha)
        refine ⟨fun t ht => hheld.trans (hsince _ _ h.above t ht), fun cur' hcur' => ?_, fun t ht => ?_⟩
        · obtain rfl : cur = cur' := Option.some.inj (hcur.symm.trans hcur')
          exact hhyst
        · rw [← h.commit t ht]
          exact hcool

theorem lawful_current (h : Marks c p now) (hpos : 0 < now) (hcur : c.current = some cur)
    (hkeep : c.keepsMarkers cfg now cand ffActive committedKbps = true) :
    Lawful cfg c p now cand ffActive committedKbps := by
  have hr := c.judge_current cfg now cand hcur ffActive committedKbps
  have hkind : c.kind cfg now cand ffActive committedKbps =
      if c.ffApplies cfg now cand ffActive cur committedKbps then .feedForward
      else if c.wasInGrace && !c.inSettleGrace now then .settled else .dwell := by
    rw [Controller.kind, hcur]
  have hreturns : c.returnsEarly cfg now cand ffActive committedKbps =
      if c.ffApplies cfg now cand ffActive cur committedKbps then c.ffCooling cfg now
      else c.inStartupGrace cfg now || c.inSettleGrace now ||
        (c.wasInGrace && decide (cand.k = cur.k ∧ cand.n = cur.n)) := by
    rw [Controller.returnsEarly, hcur]
  by_cases happ : c.ffApplies cfg now cand ffActive cur committedKbps = true
  · rw [if_pos happ] at hr hkind hreturns
    by_cases hcool : c.ffCooling cfg now = true
    · rw [if_pos hcool] at hr
      exact lawful_early h hkeep hr (hreturns.trans hcool) rfl rfl rfl rfl
    · rw [if_neg hcool] at hr
      have hstartup : c.inStartupGrace cfg now = false := by
        simp only [Controller.ffApplies, Bool.and_eq_true, Bool.not_eq_true'] at happ
        exact happ.1.1.2
      exact lawful_committing h hpos hr hkind hstartup (fun _ => rfl) (step_allowed h hcool) rfl rfl rfl rfl
  rw [if_neg happ] at hr hkind hreturns
  by_cases hgrace : (c.inStartupGrace cfg now || c.inSettleGrace now) = true
  · rw [if_pos hgrace] at hr
    refine lawful_early h hkeep hr ?_ rfl rfl rfl rfl
    rw [hreturns, hgrace, Bool.true_or]
  rw [if_neg hgrace] at hr
  obtain ⟨hstartup, hsettle⟩ := Bool.or_eq_false_iff.mp (Bool.eq_false_iff.mpr hgrace)
  by_cases hended : (c.wasInGrace && !c.inSettleGrace now) = true
  · rw [if_pos hended] at hr hkind
    by_cases hsame : cand.k = cur.k ∧ cand.n = cur.n
    · rw [if_pos hsame] at hr
      refine lawful_early h hkeep hr ?_ rfl rfl rfl rfl
      rw [hreturns, (Bool.and_eq_true_iff.mp hended).1, decide_eq_true hsame, Bool.and_true, Bool.or_true]
    · rw [if_neg hsame] at hr
      refine lawful_committing h hpos hr hkind hstartup ?_ trivial rfl rfl rfl rfl
      intro hno
      cases hsettle.symm.trans hno
  · rw [if_neg hended] at hr hkind
    exact lawful_hysteresis h hpos hcur hr hkind hstartup hsettle

theorem decision_lawful (h : Marks c p now) (hpos : 0 < now)
    (hkeep : c.keepsMarkers cfg now cand ffActive committedKbps = true) :
    Lawful cfg c p now cand ffActive committedKbps := by
  cases hcur : c.current with
  | none => exact lawful_none h hpos hcur hkeep
  | some cur => exact lawful_current h hpos hcur hkeep

end Decision

/-! ## Runs -/

/-- The marks hold now, and time has begun. -/
structure Marked (s : Sizer) (p : Past) : Prop where
  begun : 0 < s.clock
  marks : Marks s.ctrl p s.clock

theorem marks_later {c : Controller} {p : Past} {now : ℕ} (h : Marks c p now) (dt : ℕ) : Marks c p (now + dt) where
  below := fun t ht => ⟨(h.below t ht).1.trans (Nat.le_add_right _ _), (h.below t ht).2⟩
  above := fun t ht => ⟨(h.above t ht).1.trans (Nat.le_add_right _ _), (h.above t ht).2⟩
  commit := h.commit
  step := h.step

/-- The law holds of every commit of a run in which no tick that returns early sees `k` on another
side than a pending marker. -/
theorem commit_law (cfg : FecConfig) {now : ℕ} (hbegun : 0 < now) {es : List SizerEvent}
    (h : (sizerMachine cfg).Meets (fun s e => s.keepsMarkers cfg e = true) { clock := now } es) :
    (commitLaw cfg).Accepts {} ((sizerMachine cfg).trace { clock := now } es) := by
  have hstep : ∀ (s : Sizer) p e, Marked s p → s.keepsMarkers cfg e = true →
      (commitLaw cfg).wp p ((sizerMachine cfg).step s e) Marked := by
    intro s p e hs he
    cases e with
    | settle dt secs =>
        refine wp_pure ⟨Nat.add_pos_left hs.begun dt, ?_⟩
        have hlater := marks_later hs.marks dt
        show Marks (s.ctrl.armSettle _ secs) p _
        rw [Controller.armSettle]
        split
        · exact ⟨hlater.below, hlater.above, hlater.commit, hlater.step⟩
        · exact hlater
    | tick dt frameSize fps committedKbps =>
        let c := (s.ctrl.intake cfg frameSize s.ring (s.clock + dt)).1
        have hpos : 0 < s.clock + dt := Nat.add_pos_left hs.begun dt
        have hlater := marks_later hs.marks dt
        have hin : Marks c p (s.clock + dt) := ⟨hlater.below, hlater.above, hlater.commit, hlater.step⟩
        have hlawful := decision_lawful hin hpos he
        exact wp_emit hlawful.ok ⟨hpos, hlawful.marks⟩
  have hstart : Marked { clock := now } {} :=
    ⟨hbegun, fun t ht => (by cases ht), fun t ht => (by cases ht), fun t ht => (by cases ht),
      fun t ht => (by cases ht)⟩
  exact (Machine.run_wp hstep hstart h).1

/-- `k` is too large at 13 s and at 21 s, and not when the settling window opens and closes between. -/
def settlesBetween : List SizerEvent :=
  [.tick 0 18000 120 17333, .tick 2000000 18000 120 17333, .tick 500000 18000 120 17333,
    .tick 500000 18000 150 17333, .settle 100000 1, .tick 900000 18000 120 17333,
    .tick 500000 18000 120 17333, .tick 6500000 18000 150 17333]

/-- The dwell is counted from 13 s. -/
theorem not_commit_law :
    ¬(commitLaw {}).Accepts {} ((sizerMachine {}).trace { clock := 10000000 } settlesBetween) := by
  decide +kernel

/-- Without the window it is counted from the last tick. -/
theorem commit_law_unsettled :
    (commitLaw {}).Accepts {} ((sizerMachine {}).trace { clock := 10000000 }
      (settlesBetween.filter fun e => match e with | .settle .. => false | _ => true)) :=
  commit_law {} (by decide) (by decide +kernel)

end Waybeam.Vehicle
