/-
# `Waybeam.Vehicle.Window` — the window the headroom is computed from

Every tick pushes its frame and then drops, from the old end, what is older than `now - window`.
The ring is lazy and overwrites; what is left in it is compared with the history of all frames.

    now ≥ window     the newest 512 samples of the window, neither more nor fewer
    now < window     the cutoff wraps and lies in the future: the window is emptied, down to the
                     frame that was just pushed

So the headroom is the one of the window over exactly the runs that begin a window's length after
the zero of the clock (`window_exact_iff`).
-/
import Waybeam.Machine
import Waybeam.Vehicle.Fec

namespace Waybeam.Vehicle

deriving instance DecidableEq for FrameSample

/-! ## Ticks -/

/-- The window and the clock. -/
structure WindowState where
  ring : HeadroomRing := HeadroomRing.init
  clock : ℕ

/-- One `controller_update`, `dt` after the last: whatever the controller is by then, and the rest
of the configuration. -/
structure WindowTick where
  dt : ℕ
  ctrl : Controller := {}
  cfg : FecConfig := {}
  frameSize : ℕ
  fps : ℚ := 0
  committedKbps : ℤ := 0

/-- What a tick used: the samples, newest first, and the headroom of the block it asked for. -/
structure WindowObs where
  now : ℕ
  frameSize : ℕ
  cfg : FecConfig
  used : List FrameSample
  headroom : ℚ

/-- `controller_update` on the window. -/
def windowMachine : Machine WindowState WindowTick WindowObs where
  step s e :=
    let now := s.clock + e.dt
    let (ctrl, ring) := e.ctrl.intake e.cfg e.frameSize s.ring now
    ({ ring := (controllerUpdate e.ctrl e.cfg e.frameSize s.ring now e.fps e.committedKbps).2.1
       clock := now },
      [{ now, frameSize := e.frameSize, cfg := e.cfg, used := ring.toList
         headroom := (ctrl.candidate e.cfg ring e.fps e.committedKbps).1.headroom }])

/-! ## What the window should be -/

/-- Peak over mean of some samples, times the margin, clamped. -/
def headroomOf (samples : List FrameSample) (margin lo hi : ℚ) : ℚ :=
  let sizes := samples.map (·.size)
  if samples.length < 2 then lo
  else
    let avg : ℚ := ((sizes.sum : ℕ) : ℚ) / samples.length
    if avg ≤ 0 then lo else min (max (((sizes.foldr max 0 : ℕ) : ℚ) / avg * margin) lo) hi

/-- The newest samples of a history that are no older than the cutoff, as many as the ring has
slots. -/
def inWindow (cutoff : ℤ) (history : List FrameSample) : List FrameSample :=
  (history.filter fun x => decide (cutoff ≤ x.tsUs)).take ringMax

/-- All frames, newest first; each tick uses those of the last `window`, and its headroom is
theirs, within its bounds. -/
def headroomWindow (window : ℕ) : Monitor WindowObs (List FrameSample) where
  upd history o := ⟨o.now, o.frameSize⟩ :: history
  ok history o :=
    let due := inWindow (o.now - window) (⟨o.now, o.frameSize⟩ :: history)
    decide (o.used = due) &&
      decide (o.headroom = headroomOf due o.cfg.headroomMargin o.cfg.headroomMin o.cfg.headroomMax) &&
      decide (o.cfg.headroomMin ≤ o.cfg.headroomMax →
        o.cfg.headroomMin ≤ o.headroom ∧ o.headroom ≤ o.cfg.headroomMax)

/-! ## The headroom of a list -/

theorem computeHeadroom_eq (r : HeadroomRing) (margin lo hi : ℚ) :
    computeHeadroom r margin lo hi = headroomOf r.toList margin lo hi := by
  have hlen : r.toList.length = r.count := by simp [Ring.toList]
  rw [computeHeadroom, headroomOf, hlen]
  dsimp only
  generalize ((((r.toList.map (·.size)).foldr max 0 : ℕ) : ℚ) /
    ((((r.toList.map (·.size)).sum : ℕ) : ℚ) / r.count) * margin) = ratio
  split_ifs with hfew havg hlo hhi hhi
  · rfl
  · rfl
  · rw [max_eq_right hlo.le, min_eq_right hhi.le]
  · rw [max_eq_right hlo.le, min_eq_left (not_lt.mp hhi)]
  · rw [max_eq_left (not_lt.mp hlo), min_eq_right hhi.le]
  · rw [max_eq_left (not_lt.mp hlo), min_eq_left (not_lt.mp hhi)]

theorem headroomOf_mem (samples : List FrameSample) (margin : ℚ) {lo hi : ℚ} (h : lo ≤ hi) :
    lo ≤ headroomOf samples margin lo hi ∧ headroomOf samples margin lo hi ≤ hi := by
  rw [headroomOf]
  dsimp only
  split_ifs
  · exact ⟨le_rfl, h⟩
  · exact ⟨le_rfl, h⟩
  · exact ⟨le_min (le_max_right _ _) h, min_le_right _ _⟩

/-! ## Histories -/

/-- Newest first. -/
def Aged (history : List FrameSample) : Prop := history.Pairwise fun a b => b.tsUs ≤ a.tsUs

theorem Aged.keeps_prefix {history : List FrameSample} (h : Aged history) (cutoff : ℤ) :
    history.Pairwise fun a b =>
      decide (cutoff ≤ (b.tsUs : ℤ)) = true → decide (cutoff ≤ (a.tsUs : ℤ)) = true :=
  h.imp fun hle hb => by
    have := of_decide_eq_true hb
    exact decide_eq_true (by omega)

/-- What is kept of a list that is kept from the front is kept of any front part of it. -/
theorem filter_take_of_prefix {α : Type} {keep : α → Bool} {l : List α}
    (h : l.Pairwise fun a b => keep b = true → keep a = true) (n : ℕ) :
    (l.take n).filter keep = (l.filter keep).take n := by
  induction l generalizing n with
  | nil => simp
  | cons a l ih =>
      obtain ⟨hhead, htail⟩ := List.pairwise_cons.mp h
      cases n with
      | zero => rfl
      | succ n =>
          cases hk : keep a with
          | true => simp [hk, ih htail]
          | false =>
              -- nothing behind an entry that is dropped is kept
              have hnone : ∀ b ∈ l, keep b = false := fun b hb =>
                Bool.eq_false_iff.mpr fun hyes => Bool.false_ne_true (hk.symm.trans (hhead b hb hyes))
              have hl : l.filter keep = [] := List.filter_eq_nil_iff.mpr fun b hb => by simp [hnone b hb]
              have ht : (l.take n).filter keep = [] :=
                List.filter_eq_nil_iff.mpr fun b hb => by simp [hnone b (List.mem_of_mem_take hb)]
              simp [hk, hl, ht]

/-- What a push loses is lost anyway. -/
theorem take_cons_take {α : Type} (x : α) (l : List α) (n : ℕ) :
    (x :: l.take n).take n = (x :: l).take n := by
  cases n with
  | zero => rfl
  | succ n => simp [List.take_take]

/-- A push, then a later cutoff: the window moves on. -/
theorem inWindow_cons {history : List FrameSample} {x : FrameSample} {c k : ℤ}
    (hage : Aged (x :: history)) (hck : c ≤ k) (hx : c ≤ x.tsUs) :
    ((x :: inWindow c history).take ringMax).filter (fun x => decide (k ≤ (x.tsUs : ℤ))) =
      inWindow k (x :: history) := by
  have htake : (x :: inWindow c history).take ringMax =
      ((x :: history).filter fun x => decide (c ≤ (x.tsUs : ℤ))).take ringMax := by
    have hkeep : decide (c ≤ (x.tsUs : ℤ)) = true := decide_eq_true hx
    rw [inWindow, take_cons_take, List.filter_cons, if_pos hkeep]
  have hboth : ((x :: history).filter fun x => decide (c ≤ (x.tsUs : ℤ))).filter
        (fun x => decide (k ≤ (x.tsUs : ℤ))) =
      (x :: history).filter fun x => decide (k ≤ (x.tsUs : ℤ)) := by
    rw [List.filter_filter]
    refine List.filter_congr fun y _ => ?_
    by_cases hy : k ≤ (y.tsUs : ℤ)
    · simp [hy, hck.trans hy]
    · simp [hy]
  rw [htake, filter_take_of_prefix ((hage.keeps_prefix k).sublist List.filter_sublist), hboth,
    inWindow]

/-! ## One tick -/

section Tick

variable {w : ℚ} {s : WindowState} {history : List FrameSample} {e : WindowTick}

/-- A cutoff that wraps is later than any instant. -/
theorem sub64_of_lt {now w : ℕ} (h : now < w) (hw : w < 2 ^ 64) : now < sub64 now w := by
  rw [sub64, Nat.mod_eq_of_lt hw, Nat.mod_eq_of_lt (by omega)]
  omega

theorem sub64_of_le {now w : ℕ} (h : w ≤ now) (hnow : now < 2 ^ 64) : sub64 now w = now - w := by
  rw [sub64, Nat.mod_eq_of_lt (by omega : w < 2 ^ 64),
    show now + 2 ^ 64 - w = now - w + 2 ^ 64 by omega, Nat.add_mod_right,
    Nat.mod_eq_of_lt (by omega)]

/-- The ring holds the window of some earlier cutoff, and no frame is from the future. -/
structure WindowInv (window : ℕ) (s : WindowState) (history : List FrameSample) : Prop where
  aged : Aged history
  past : ∀ x ∈ history, x.tsUs ≤ s.clock
  window : ∃ c : ℤ, c + window ≤ s.clock ∧ s.ring.toList = inWindow c history

/-- What the tick leaves in the ring. -/
def WindowTick.kept (e : WindowTick) (s : WindowState) : HeadroomRing :=
  (e.ctrl.intake e.cfg e.frameSize s.ring (s.clock + e.dt)).2

theorem kept_eq (e : WindowTick) (s : WindowState) :
    e.kept s = (s.ring.push ⟨s.clock + e.dt, e.frameSize⟩).expire fun x =>
      decide (sub64 (s.clock + e.dt) (usOf e.cfg.headroomWindowS) ≤ x.tsUs) := rfl

/-- The frame a tick brings. -/
def WindowTick.sample (e : WindowTick) (s : WindowState) : FrameSample := ⟨s.clock + e.dt, e.frameSize⟩

/-- The frame itself is always due. -/
theorem due_ne_nil (window : ℕ) :
    inWindow ((s.clock + e.dt : ℕ) - window) (e.sample s :: history) ≠ [] := by
  have hts : (e.sample s).tsUs = s.clock + e.dt := rfl
  have hdue : decide ((((s.clock + e.dt : ℕ) : ℤ) - window) ≤ ((e.sample s).tsUs : ℤ)) = true :=
    decide_eq_true (by omega)
  rw [inWindow, List.filter_cons, if_pos hdue]
  exact List.cons_ne_nil _ _

variable {window : ℕ} (h : WindowInv window s history)
include h

theorem WindowInv.aged_cons : Aged (e.sample s :: history) :=
  List.pairwise_cons.mpr ⟨fun x hx => (h.past x hx).trans (Nat.le_add_right _ _), h.aged⟩

theorem WindowInv.pushed : ((s.ring.push (e.sample s)).toList).Sublist (e.sample s :: history) := by
  obtain ⟨c, -, hring⟩ := h.window
  rw [Ring.toList_push, hring]
  exact (List.take_sublist _ _).trans
    (((List.take_sublist _ _).trans List.filter_sublist).cons_cons _)

/-- A clock past the window: the cutoff is the right one. -/
theorem kept_toList (hw : usOf e.cfg.headroomWindowS = window) (hle : window ≤ s.clock + e.dt)
    (hnow : s.clock + e.dt < 2 ^ 64) :
    (e.kept s).toList = inWindow ((s.clock + e.dt : ℕ) - window) (e.sample s :: history) := by
  have hkeep : (fun x : FrameSample => decide (s.clock + e.dt - window ≤ x.tsUs)) =
      fun x => decide (((s.clock + e.dt : ℕ) : ℤ) - window ≤ x.tsUs) := by
    funext x
    exact decide_eq_decide.mpr (by omega)
  have hprefix := (h.aged_cons.keeps_prefix ((s.clock + e.dt : ℕ) - window)).sublist (h.pushed (e := e))
  obtain ⟨c, hc, hring⟩ := h.window
  rw [kept_eq, hw, sub64_of_le hle hnow, hkeep]
  refine (Ring.toList_expire _ hprefix).trans ?_
  rw [Ring.toList_push, hring]
  refine inWindow_cons h.aged_cons ?_ ?_
  · push_cast
    omega
  · rw [WindowTick.sample]
    push_cast
    omega

/-- An earlier clock: nothing is kept. -/
theorem kept_of_lt (hw : usOf e.cfg.headroomWindowS = window) (hlt : s.clock + e.dt < window)
    (hwin : window < 2 ^ 64) : (e.kept s).toList = [] := by
  have hlate := sub64_of_lt hlt hwin
  have hdrop : ∀ x ∈ (s.ring.push (e.sample s)).toList,
      decide (sub64 (s.clock + e.dt) window ≤ x.tsUs) = false := by
    intro x hx
    have hpast : x.tsUs ≤ s.clock + e.dt := by
      rcases List.mem_cons.mp (h.pushed.subset hx) with rfl | hold
      · exact le_rfl
      · exact (h.past x hold).trans (Nat.le_add_right _ _)
    exact decide_eq_false (by omega)
  rw [kept_eq, hw]
  refine (Ring.toList_expire _ ?_).trans ?_
  · refine List.pairwise_of_forall_mem_list fun a ha b hb hk => ?_
    exact absurd ((hdrop b hb).symm.trans hk) Bool.false_ne_true
  · exact List.filter_eq_nil_iff.mpr fun x hx => Bool.not_eq_true _ ▸ hdrop x hx

/-- A tick uses what is due iff its clock is past the window. -/
theorem tick_iff (hw : usOf e.cfg.headroomWindowS = window) (hwin : window < 2 ^ 64)
    (hnow : s.clock + e.dt < 2 ^ 64) :
    (headroomWindow window).Accepts history (windowMachine.step s e).2 ↔ window ≤ s.clock + e.dt := by
  have hobs : (windowMachine.step s e).2 = [{
      now := s.clock + e.dt, frameSize := e.frameSize, cfg := e.cfg, used := (e.kept s).toList
      headroom := computeHeadroom (e.kept s) e.cfg.headroomMargin e.cfg.headroomMin
        e.cfg.headroomMax }] := rfl
  rw [hobs, Monitor.accepts_cons, computeHeadroom_eq]
  simp only [Monitor.accepts_nil, and_true, headroomWindow, Bool.and_eq_true, decide_eq_true_eq]
  constructor
  · intro hok
    by_contra hlt
    rw [kept_of_lt h hw (not_le.mp hlt) hwin] at hok
    exact due_ne_nil window hok.1.1.symm
  · intro hle
    rw [kept_toList h hw hle hnow]
    exact ⟨⟨rfl, rfl⟩, fun hbounds => headroomOf_mem _ _ hbounds⟩

/-- Such a tick keeps the invariant. -/
theorem tick_inv (hw : usOf e.cfg.headroomWindowS = window) (hle : window ≤ s.clock + e.dt)
    (hnow : s.clock + e.dt < 2 ^ 64) :
    WindowInv window (windowMachine.step s e).1
      ((headroomWindow window).after history (windowMachine.step s e).2) where
  aged := h.aged_cons
  past x hx := by
    rcases List.mem_cons.mp hx with rfl | hold
    · exact le_rfl
    · exact (h.past x hold).trans (Nat.le_add_right _ _)
  window := by
    refine ⟨((s.clock + e.dt : ℕ) : ℤ) - window, ?_, kept_toList h hw hle hnow⟩
    show ((s.clock + e.dt : ℕ) : ℤ) - window + window ≤ ((s.clock + e.dt : ℕ) : ℤ)
    omega

end Tick

/-! ## Runs -/

theorem WindowInv.init (window clock : ℕ) : WindowInv window { clock } [] where
  aged := List.Pairwise.nil
  past _ hx := nomatch hx
  window := ⟨(clock : ℤ) - window, by show (clock : ℤ) - window + window ≤ clock; omega, rfl⟩

/-- A tick under the window, at a clock of 64 bits. -/
def WindowTick.legal (window : ℚ) (s : WindowState) (e : WindowTick) : Prop :=
  e.cfg.headroomWindowS = window ∧ s.clock + e.dt < 2 ^ 64

instance (window : ℚ) (s : WindowState) (e : WindowTick) : Decidable (e.legal window s) :=
  inferInstanceAs (Decidable (_ ∧ _))

/-- For a window of any length, each tick computes its headroom from the newest samples of the
window over exactly the runs in which no tick comes before the clock has run for a window. -/
theorem window_exact_iff {window : ℚ} (hwin : usOf window < 2 ^ 64) (clock : ℕ)
    {es : List WindowTick} (hl : windowMachine.Meets (fun s e => e.legal window s) { clock } es) :
    (headroomWindow (usOf window)).Accepts [] (windowMachine.trace { clock } es) ↔
      windowMachine.Meets (fun s e => usOf window ≤ s.clock + e.dt) { clock } es := by
  rw [← windowMachine.watch_meets (headroomWindow (usOf window)) _ { clock } []]
  refine Machine.accepts_trace_iff_of ?_ ?_ (WindowInv.init (usOf window) clock) hl
  · intro s history e h hlegal hle
    exact tick_inv h (congrArg usOf hlegal.1) hle hlegal.2
  · intro s history e h hlegal
    exact tick_iff h (congrArg usOf hlegal.1) hwin hlegal.2

/-- Two seconds after the zero of the clock, and later. -/
theorem window_exact_iff_late :
    (headroomWindow (usOf (5 / 2))).Accepts []
        (windowMachine.trace { clock := 0 } [{ dt := 2500000, frameSize := 900 }, { dt := 33000, frameSize := 1000 }]) ↔
      windowMachine.Meets (fun s e => usOf (5 / 2) ≤ s.clock + e.dt) { clock := 0 }
        [{ dt := 2500000, frameSize := 900 }, { dt := 33000, frameSize := 1000 }] :=
  window_exact_iff (by decide +kernel) 0 (by decide +kernel)

/-- Frames in the second second after boot, under the default window. -/
theorem not_window_exact :
    ¬∀ (window : ℚ) (clock : ℕ) (es : List WindowTick), usOf window < 2 ^ 64 →
      windowMachine.Meets (fun s e => e.legal window s) { clock } es →
      (headroomWindow (usOf window)).Accepts [] (windowMachine.trace { clock } es) := by
  intro h
  have hrun := h (5 / 2) 0 [{ dt := 1000000, frameSize := 900 }, { dt := 33000, frameSize := 1800 }]
    (by decide +kernel) (by decide +kernel)
  exact absurd hrun (by decide +kernel)

end Waybeam.Vehicle
