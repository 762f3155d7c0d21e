/-
# `Waybeam.Vehicle.Quiet` — the silence of a stable link

Frames of one size, one frame rate and one bitrate: the block that is asked for depends on the block
in force alone, through the dead band of its packet count.

    fresh count      a fixed point of the dead band
    held count       a fixed point of the dead band

So what is committed is asked for ever after, and a block that is asked for and in force commits
nothing on any path.  At most one commit is left, then (`stable_quiet`), as long as the headroom is one
number: a window of one frame has the least headroom, and a window of equal frames the margin.
-/
import Waybeam.Vehicle.Sizing
import Waybeam.Vehicle.Ticks

namespace Waybeam.Vehicle

/-! ## The block that is asked for -/

section Block

variable {cfg : FecConfig} {target : ℚ}

theorem fecPacketsPerFrame_fresh (p : ℤ) (hp : ¬0 < p) :
    fecPacketsPerFrame target cfg p = freshPpf cfg target := by
  have hfresh : (if ⌈target / cfg.mtu⌉ < 1 then 1 else ⌈target / cfg.mtu⌉) = freshPpf cfg target := by
    rw [freshPpf]
    split_ifs <;> omega
  simp only [fecPacketsPerFrame, hfresh, hp, false_and, if_false]

/-- Sizing the same frame again keeps the count. -/
theorem fecPacketsPerFrame_idem (target : ℚ) (cfg : FecConfig) (p : ℤ) :
    fecPacketsPerFrame target cfg (fecPacketsPerFrame target cfg p) = fecPacketsPerFrame target cfg p := by
  have hpos : 0 < freshPpf cfg target := by
    rw [freshPpf]
    omega
  have hfresh : fecPacketsPerFrame target cfg (freshPpf cfg target) = freshPpf cfg target := by
    rw [fecPacketsPerFrame_eq hpos]
    split <;> rfl
  by_cases hp : 0 < p
  · have hcase : fecPacketsPerFrame target cfg p = p ∨
        fecPacketsPerFrame target cfg p = freshPpf cfg target := by
      rw [fecPacketsPerFrame_eq hp]
      split
      · exact .inl rfl
      · exact .inr rfl
    rcases hcase with hheld | hmoved
    · rw [hheld, hheld]
    · rw [hmoved, hfresh]
  · rw [fecPacketsPerFrame_fresh p hp, hfresh]

theorem fecCompute_idem (avgSize headroom : ℚ) (cfg : FecConfig) (p : ℤ) :
    fecCompute avgSize headroom cfg (fecCompute avgSize headroom cfg p).packetsPerFrame =
      fecCompute avgSize headroom cfg p := by
  have hppf := fecPacketsPerFrame_idem (avgSize * headroom) cfg p
  show fecCompute avgSize headroom cfg (fecPacketsPerFrame (avgSize * headroom) cfg p) = _
  simp only [fecCompute, hppf]

end Block

/-! ## The headroom of equal frames -/

/-- The headroom of a window of equal frames. -/
def FecConfig.evenHeadroom (cfg : FecConfig) : ℚ :=
  let ratio := if cfg.headroomMargin < cfg.headroomMin then cfg.headroomMin else cfg.headroomMargin
  if ratio > cfg.headroomMax then cfg.headroomMax else ratio

/-- The headroom of frames of this size, where the window holds one of them only, or more. -/
def FecConfig.restHeadroom (cfg : FecConfig) (size : ℕ) (lone : Bool) : ℚ :=
  if lone ∨ size = 0 then cfg.headroomMin else cfg.evenHeadroom

theorem computeHeadroom_even {r : HeadroomRing} {size : ℕ} (h : ∀ x ∈ r.toList, x.size = size)
    (cfg : FecConfig) :
    computeHeadroom r cfg.headroomMargin cfg.headroomMin cfg.headroomMax =
      cfg.restHeadroom size (decide (r.count < 2)) := by
  have hlen : (r.toList.map (·.size)).length = r.count := by simp [Ring.toList]
  have hsizes : r.toList.map (·.size) = List.replicate r.count size := by
    refine List.eq_replicate_iff.mpr ⟨hlen, fun n hn => ?_⟩
    obtain ⟨x, hx, rfl⟩ := List.mem_map.mp hn
    exact h x hx
  have hmax : ∀ n, (List.replicate (n + 1) size).foldr max 0 = size := by
    intro n
    induction n with
    | zero => exact Nat.max_zero size
    | succ n ih => rw [List.replicate_succ, List.foldr_cons, ih, Nat.max_self]
  simp only [computeHeadroom, FecConfig.restHeadroom, hsizes, List.sum_replicate_nat,
    decide_eq_true_eq]
  by_cases hlone : r.count < 2
  · rw [if_pos hlone, if_pos (.inl hlone)]
  have hcount : (0 : ℚ) < r.count := by exact_mod_cast Nat.lt_of_lt_of_le (by decide : 0 < 2) (not_lt.mp hlone)
  have havg : ((r.count * size : ℕ) : ℚ) / r.count = size := by
    rw [Nat.cast_mul, mul_div_cancel_left₀ _ hcount.ne']
  rw [if_neg hlone, havg]
  by_cases hzero : size = 0
  · rw [hzero, Nat.cast_zero, if_pos (le_refl 0), if_pos (.inr rfl)]
  have hsize : (0 : ℚ) < size := by exact_mod_cast Nat.pos_of_ne_zero hzero
  obtain ⟨n, hn⟩ := Nat.exists_eq_add_of_le (Nat.le_of_lt (not_lt.mp hlone))
  have hfold : (List.replicate r.count size).foldr max 0 = size := by
    rw [hn, Nat.add_comm]
    exact hmax n
  rw [if_neg (not_le.mpr hsize), if_neg (not_or.mpr ⟨hlone, hzero⟩), hfold, div_self hsize.ne', one_mul]
  rfl

/-! ## The decision -/

namespace Controller

variable {c : Controller} {cfg : FecConfig} {now : ℕ} {cand : FecParams} {ffActive : Bool}
  {committedKbps : ℤ}

theorem hysteresis_block (c : Controller) (cfg : FecConfig) (now : ℕ) (cand cur : FecParams) :
    (c.hysteresis cfg now cand cur).1.current = (c.hysteresis cfg now cand cur).2.or c.current := by
  rw [hysteresis]
  dsimp only
  split_ifs <;> rfl

theorem hysteresis_average (c : Controller) (cfg : FecConfig) (now : ℕ) (cand cur : FecParams) :
    (c.hysteresis cfg now cand cur).1.avgFrameSize = c.avgFrameSize := by
  rw [hysteresis]
  dsimp only
  split_ifs <;> rfl

/-- The block in force is the one that is committed, or stays; the average stays. -/
theorem judge_block (c : Controller) (cfg : FecConfig) (now : ℕ) (cand : FecParams) (ffActive : Bool)
    (committedKbps : ℤ) :
    (c.judge cfg now cand ffActive committedKbps).1.current =
        (c.judge cfg now cand ffActive committedKbps).2.or c.current ∧
      (c.judge cfg now cand ffActive committedKbps).1.avgFrameSize = c.avgFrameSize := by
  cases hcur : c.current with
  | none =>
      rw [judge_none c cfg now cand hcur]
      split
      · exact ⟨hcur, rfl⟩
      · exact ⟨rfl, rfl⟩
  | some cur =>
      rw [judge_current c cfg now cand hcur]
      split_ifs
      · exact ⟨hcur, rfl⟩
      · exact ⟨rfl, rfl⟩
      · exact ⟨hcur, rfl⟩
      · exact ⟨hcur, rfl⟩
      · exact ⟨rfl, rfl⟩
      · rw [hysteresis_block, hysteresis_average]
        exact ⟨congrArg _ hcur, rfl⟩

/-- Nothing is committed where what is asked for is in force. -/
theorem commitDue_same {cur : FecParams} (hcur : c.current = some cur) (hk : cand.k = cur.k)
    (hn : cand.n = cur.n) : c.commitDue cfg now cand ffActive committedKbps = false := by
  have hff : c.ffApplies cfg now cand ffActive cur committedKbps = false := by
    rw [ffApplies, hk, bne_self_eq_false, Bool.and_false, Bool.false_and]
  have hslow : c.hysteresisDue cfg now cand cur = false := by
    rw [hysteresisDue, if_neg (by rw [hk]; exact lt_irrefl _), if_pos hk]
    exact decide_eq_false (not_not.mpr hn)
  simp only [commitDue, hcur, replaceDue, hff, hslow, hk, hn, and_self, not_true_eq_false, decide_false,
    Bool.false_eq_true, if_false, ite_self]

end Controller

/-! ## Runs -/

/-- The window holds frames of this size only, the average is this size, and the anchor the
bitrate. -/
structure AtRest (size : ℕ) (committedKbps : ℤ) (s : Sizer) : Prop where
  window : ∀ x ∈ s.ring.toList, x.size = size
  average : s.ctrl.avgFrameSize = size
  anchor : s.ctrl.lastCommittedKbps = committedKbps

/-- A frame of a stable link, or anything but a frame. -/
def SizerEvent.Stable (size : ℕ) (fps : ℚ) (committedKbps : ℤ) : SizerEvent → Prop
  | .settle .. => True
  | .tick _ frameSize fps' committedKbps' =>
      frameSize = size ∧ fps' = fps ∧ committedKbps' = committedKbps

/-- The window is left with one frame, or always with more, where that makes a difference to the
headroom. -/
def Sizer.sameWindow (cfg : FecConfig) (lone : Bool) (s : Sizer) : SizerEvent → Bool
  | .settle .. => true
  | .tick dt frameSize _ _ =>
      decide (frameSize = 0) || decide (cfg.evenHeadroom = cfg.headroomMin) ||
        decide ((s.ctrl.intake cfg frameSize s.ring (s.clock + dt)).2.count < 2) == lone

/-- One commit, at most. -/
def commitsOnce : Monitor TickObs Bool where
  upd done o := done || o.kind.isSome
  ok done o := !(done && o.kind.isSome)

theorem commitsOnce_iff {os : List TickObs} :
    commitsOnce.Accepts false os ↔ os.countP (·.kind.isSome) ≤ 1 := by
  have hdone : ∀ os : List TickObs, commitsOnce.Accepts true os ↔ os.countP (·.kind.isSome) = 0 := by
    intro os
    induction os with
    | nil => exact iff_of_true trivial rfl
    | cons o os ih =>
        rw [Monitor.accepts_cons, List.countP_cons]
        show (!(true && o.kind.isSome)) = true ∧ commitsOnce.Accepts true os ↔ _
        rw [ih]
        cases o.kind.isSome <;> simp
  induction os with
  | nil => exact iff_of_true trivial (Nat.zero_le 1)
  | cons o os ih =>
      rw [Monitor.accepts_cons, List.countP_cons]
      show (!(false && o.kind.isSome)) = true ∧ commitsOnce.Accepts (false || o.kind.isSome) os ↔ _
      cases o.kind.isSome with
      | false => simpa using ih
      | true => simpa using hdone os

variable {cfg : FecConfig} {size : ℕ} {fps : ℚ} {committedKbps : ℤ} {lone : Bool}

/-- What a block is sized for on a stable link. -/
def restBasis (cfg : FecConfig) (size : ℕ) (fps : ℚ) (committedKbps : ℤ) : ℚ :=
  let ffBytes : ℚ := (committedKbps : ℚ) * 1000 / 8 / fps
  let ffActive := cfg.blocksizeFeedforward && decide (0 < committedKbps) &&
    decide (1 / 10 < fps) && decide (0 < ffBytes)
  if ffActive then ffBytes else size

/-- The block that is asked for on a stable link, with so many packets per frame in force. -/
def restBlock (cfg : FecConfig) (size : ℕ) (fps : ℚ) (committedKbps : ℤ) (lone : Bool) (ppf : ℤ) :
    FecParams :=
  fecCompute (restBasis cfg size fps committedKbps) (cfg.restHeadroom size lone) cfg ppf

theorem candidate_rest {c : Controller} {ring : HeadroomRing} (havg : c.avgFrameSize = size)
    (hring : ∀ x ∈ ring.toList, x.size = size) :
    (c.candidate cfg ring fps committedKbps).1 =
      restBlock cfg size fps committedKbps (decide (ring.count < 2))
        ((c.current.map (·.packetsPerFrame)).getD 0) := by
  rw [restBlock, restBasis, ← computeHeadroom_even hring, ← havg]
  rfl

theorem restHeadroom_same (h : size = 0 ∨ cfg.evenHeadroom = cfg.headroomMin) (a b : Bool) :
    cfg.restHeadroom size a = cfg.restHeadroom size b := by
  simp only [FecConfig.restHeadroom]
  rcases h with rfl | heven
  · simp
  · rw [heven, ite_self, ite_self]

/-- The window and the average stay, and after a commit what is asked for is in force. -/
structure Settled (cfg : FecConfig) (size : ℕ) (fps : ℚ) (committedKbps : ℤ) (lone : Bool) (s : Sizer)
    (done : Bool) : Prop where
  window : ∀ x ∈ s.ring.toList, x.size = size
  average : s.ctrl.avgFrameSize = size
  fixed : done = true → ∃ cur, s.ctrl.current = some cur ∧
    restBlock cfg size fps committedKbps lone cur.packetsPerFrame = cur

theorem intake_rest {s : Sizer} {done : Bool} (h : Settled cfg size fps committedKbps lone s done)
    (now : ℕ) :
    (∀ x ∈ (s.ctrl.intake cfg size s.ring now).2.toList, x.size = size) ∧
      (s.ctrl.intake cfg size s.ring now).1.avgFrameSize = size := by
  constructor
  · intro x hx
    have hpush := Ring.mem_of_mem_expire _ hx
    rw [Ring.toList_push] at hpush
    rcases List.mem_cons.mp (List.mem_of_mem_take hpush) with rfl | hold
    · rfl
    · exact h.window x hold
  · show (if s.ctrl.avgFrameSize ≤ 0 then (size : ℚ)
      else cfg.ewmaAlpha * size + (1 - cfg.ewmaAlpha) * s.ctrl.avgFrameSize) = size
    rw [h.average]
    split
    · rfl
    · ring

/-- A tick of a stable link. -/
theorem settled_tick {s : Sizer} {done : Bool} (h : Settled cfg size fps committedKbps lone s done)
    (dt : ℕ) (hsame : s.sameWindow cfg lone (.tick dt size fps committedKbps) = true) :
    commitsOnce.wp done ((sizerMachine cfg).step s (.tick dt size fps committedKbps))
      (Settled cfg size fps committedKbps lone) := by
  let now := s.clock + dt
  let c := (s.ctrl.intake cfg size s.ring now).1
  let ring := (s.ctrl.intake cfg size s.ring now).2
  let ppf := (c.current.map (·.packetsPerFrame)).getD 0
  let cand := (c.candidate cfg ring fps committedKbps).1
  let ffActive := (c.candidate cfg ring fps committedKbps).2
  obtain ⟨hwindow, havg⟩ := intake_rest h now
  have hcand : cand = restBlock cfg size fps committedKbps lone ppf := by
    have hrest : cand = restBlock cfg size fps committedKbps (decide (ring.count < 2)) ppf :=
      candidate_rest havg hwindow
    rw [hrest]
    simp only [Sizer.sameWindow, Bool.or_eq_true, decide_eq_true_eq, beq_iff_eq] at hsame
    rcases hsame with heven | hlone
    · rw [restBlock, restBlock, restHeadroom_same heven]
    · exact congrArg (restBlock cfg size fps committedKbps · ppf) hlone
  have hkind : (c.observe cfg now cand ffActive committedKbps).kind.isSome =
      (c.judge cfg now cand ffActive committedKbps).2.isSome := by
    rw [Controller.observe_kind, Controller.judge_isSome]
  obtain ⟨hblock, hstays⟩ := c.judge_block cfg now cand ffActive committedKbps
  have hsilent : done = true → c.commitDue cfg now cand ffActive committedKbps = false := by
    intro hdone
    obtain ⟨cur, hcur, hfixed⟩ := h.fixed hdone
    have hcur : c.current = some cur := hcur
    have hppf : ppf = cur.packetsPerFrame := congrArg (fun b => (b.map (·.packetsPerFrame)).getD 0) hcur
    have hasked : cand = cur := by rw [hcand, hppf, hfixed]
    exact Controller.commitDue_same hcur (congrArg (·.k) hasked) (congrArg (·.n) hasked)
  rw [← Controller.judge_isSome] at hsilent
  refine wp_emit ?_ ⟨hwindow, hstays.trans havg, ?_⟩
  · show (!(done && (c.observe cfg now cand ffActive committedKbps).kind.isSome)) = true
    rw [hkind]
    cases hdone : done with
    | false => rfl
    | true => rw [hsilent hdone]; rfl
  · show (done || (c.observe cfg now cand ffActive committedKbps).kind.isSome) = true →
      ∃ cur, (c.judge cfg now cand ffActive committedKbps).1.current = some cur ∧ _
    rw [hkind, hblock]
    cases hout : (c.judge cfg now cand ffActive committedKbps).2 with
    | none =>
        intro hdone
        exact h.fixed (by simpa using hdone)
    | some p =>
        intro _
        obtain rfl : p = cand := Controller.judge_some hout
        refine ⟨cand, rfl, ?_⟩
        rw [hcand]
        exact fecCompute_idem ..

theorem settled_later {s : Sizer} {done : Bool} (h : Settled cfg size fps committedKbps lone s done)
    (dt : ℕ) (secs : ℚ) :
    Settled cfg size fps committedKbps lone ((sizerMachine cfg).step s (.settle dt secs)).1 done := by
  have harm : (s.ctrl.armSettle (s.clock + dt) secs).avgFrameSize = s.ctrl.avgFrameSize ∧
      (s.ctrl.armSettle (s.clock + dt) secs).current = s.ctrl.current := by
    rw [Controller.armSettle]
    split <;> exact ⟨rfl, rfl⟩
  refine ⟨h.window, harm.1.trans h.average, fun hdone => ?_⟩
  obtain ⟨cur, hcur, hfixed⟩ := h.fixed hdone
  exact ⟨cur, harm.2.trans hcur, hfixed⟩

/-- On a stable link at most one more block is committed, as long as no tick finds the window down
to its own frame where another did not. -/
theorem stable_quiet (cfg : FecConfig) (lone : Bool) {s : Sizer} (hrest : AtRest size committedKbps s)
    {es : List SizerEvent} (hstable : ∀ e ∈ es, e.Stable size fps committedKbps)
    (hsame : (sizerMachine cfg).Meets (fun s e => s.sameWindow cfg lone e = true) s es) :
    ((sizerMachine cfg).trace s es).countP (·.kind.isSome) ≤ 1 := by
  have hstep : ∀ (s : Sizer) done e, Settled cfg size fps committedKbps lone s done →
      e.Stable size fps committedKbps ∧ s.sameWindow cfg lone e = true →
      commitsOnce.wp done ((sizerMachine cfg).step s e) (Settled cfg size fps committedKbps lone) := by
    intro s done e h he
    cases e with
    | settle dt secs => exact wp_pure (settled_later h dt secs)
    | tick dt frameSize fps' committedKbps' =>
        obtain ⟨⟨rfl, rfl, rfl⟩, hwindow⟩ := he
        exact settled_tick h dt hwindow
  have hstart : Settled cfg size fps committedKbps lone s false :=
    ⟨hrest.window, hrest.average, fun hno => by cases hno⟩
  have hmeets : (sizerMachine cfg).Meets
      (fun s e => e.Stable size fps committedKbps ∧ s.sameWindow cfg lone e = true) s es :=
    Machine.Meets.and.mpr ⟨Machine.Meets.of_mem hstable, hsame⟩
  exact commitsOnce_iff.mp (Machine.run_wp hstep hstart hmeets).1

/-- A headroom margin above the least headroom. -/
def wideMargin : FecConfig := { headroomMargin := 120 / 100 }

/-- The controller starts, commits a block at 12 s and settles. -/
def warmed : Sizer :=
  (sizerMachine wideMargin).run { clock := 10000000 }
    [.tick 0 16000 120 15360, .tick 1000000 16000 120 15360, .tick 1000000 16000 120 15360,
      .tick 1000000 16000 120 15360]

/-- Frames that come every second, and a settling window. -/
def goesOn : List SizerEvent := .settle 0 2 :: List.replicate 6 (.tick 1000000 16000 120 15360)

theorem quiet_goesOn : ((sizerMachine wideMargin).trace warmed goesOn).countP (·.kind.isSome) ≤ 1 := by
  have hrest : AtRest 16000 15360 warmed := ⟨by decide +kernel, by decide +kernel, by decide +kernel⟩
  have hstable : ∀ e ∈ goesOn, e.Stable 16000 120 15360 := by
    simp [goesOn, SizerEvent.Stable]
  exact stable_quiet wideMargin false hrest hstable (by decide +kernel)

/-- A settling window, and frames that pause for three seconds. -/
def pauses : List SizerEvent :=
  [.settle 0 2, .tick 1000000 16000 120 15360, .tick 3000000 16000 120 15360,
    .tick 1000000 16000 120 15360, .tick 1000000 16000 120 15360, .tick 1000000 16000 120 15360]

/-- The pause makes the block smaller, and the frames after it make it as large as it was. -/
theorem not_quiet : AtRest 16000 15360 warmed ∧ (∀ e ∈ pauses, e.Stable 16000 120 15360) ∧
    ¬((sizerMachine wideMargin).trace warmed pauses).countP (·.kind.isSome) ≤ 1 := by
  have hstable : ∀ e ∈ pauses, e.Stable 16000 120 15360 := by
    simp [pauses, SizerEvent.Stable]
  exact ⟨⟨by decide +kernel, by decide +kernel, by decide +kernel⟩, hstable, by decide +kernel⟩

end Waybeam.Vehicle
