/-
# `Waybeam.Vehicle.Ordered` — the bitrate drops before the MCS does

A law-driven drop asserts the bitrate of the new MCS, arms the up-lock for the lead and the
settle time, and queues its SET_RADIO for after the lead.  Until the SET is acknowledged
three things can bring the bitrate back, or skip the order altogether:

    the retry outlasts the lock    an assert at the old MCS raises the encoder again
    writes past the mirror         the wedge watchdog; an operator's bitrate before the drop
    a stale cache                  a rung that is up from the cache is down from the air

Over every run in which none of them does, an acknowledged drop comes a lead after its
pre-drop assert and finds the encoder within the tolerance of its target (`ordered_drop`).
-/
import Waybeam.Vehicle.Mirror
import Waybeam.Vehicle.Override

namespace Waybeam.Vehicle

/-! ## The order -/

/-- A pre-drop assert: when, for which MCS, and the target it found. -/
structure PreDrop where
  since : ℕ
  mcs : ℤ
  target : Option ℤ := none

/-- The bitrate last written to the encoder, and the last pre-drop assert. -/
structure DropHist where
  real : Option ℤ := none
  preDrop : Option PreDrop := none

/-- The first target asserted after a pre-drop is its own. -/
def PreDrop.note (d : PreDrop) (target : ℤ) : PreDrop :=
  { d with target := d.target.or (some target) }

/-- Follow both. -/
def dropMonitor : Monitor Obs DropHist where
  upd
    | g, .preDrop now mcs => { g with preDrop := some { since := now, mcs } }
    | g, .asserted _ target => { g with preDrop := g.preDrop.map (PreDrop.note · target) }
    | g, o => { g with real := o.ackedKbps.or g.real }
  ok _ _ := true

/-- What a drop with this target allows the encoder. -/
def dropBound (cfg : Config) (target : ℤ) : ℚ := target * (1 + cfg.fec.bitrateTolerance) + 1

/-- The drop to `mcs` at `now` comes a lead after its pre-drop, and finds the encoder low. -/
def DropHist.inOrder (g : DropHist) (cfg : Config) (mcs : ℤ) (now : ℕ) : Bool :=
  g.preDrop.any fun d =>
    decide (d.mcs = mcs) && decide (d.since + usOf cfg.fec.bitrateLeadS ≤ now) &&
      d.target.any fun target => g.real.all fun kbps => decide ((kbps : ℚ) ≤ dropBound cfg target)

/-- An acknowledged SET_RADIO of the law that lowers the on-air MCS is in order. -/
def Obs.inOrder (cfg : Config) (air : RadioBody) (g : DropHist) : Obs → Bool
  | .setRadio now who body true =>
      !who.isLaw || !decide (body.mcs < air.mcs) || g.inOrder cfg body.mcs now
  | _ => true

/-- Every drop of the step is in order. -/
def Ordered (sg : Lc × DropHist) (e : Event) : Bool :=
  (machine.step sg.1 e).2.all (Obs.inOrder sg.1.cfg sg.1.air sg.2)

/-! ## The setting -/

/-- The body to commit with, synced if it was never valid. -/
def Lc.withBody (s : Lc) (getRadio : Bool) : Option Lc :=
  if (s.syncBody getRadio).1.radioBodyValid then some (s.syncBody getRadio).1 else none

/-- Where the law calls `commit_mcs_change`: the state with the rung to commit, and the clock
reading. -/
def Lc.committing (s : Lc) : Event → Option (Lc × ℕ)
  | .watchdog dt io =>
      if s.watchdogDue (s.clock + dt) && decide (s.watchdogDecision (s.clock + dt) ≠ .none) then
        ((s.watched (s.clock + dt)).withBody io.getRadio).map (·, s.clock + dt)
      else none
  | .rxAnt dt dt₁ _ r io =>
      (s.judged r (s.clock + dt)).bind fun (s', sd) =>
        if sd = .none then if s'.realignDue then some (s', s.clock + dt + dt₁) else none
        else (s'.withBody io.getRadio).map (·, s.clock + dt + dt₁)
  | _ => none

/-- The encoder acknowledges what the event may write. -/
def Event.vencAcks : Event → Bool
  | .watchdog _ io => io.commit.venc
  | .radioPoll _ _ venc | .txStats _ _ _ venc | .sidecar _ _ _ _ venc => venc
  | .rxAnt _ _ _ _ io => io.commit.venc
  | _ => true

/-- Off dry-run, with a lead and an encoder that answers; FEC control on, an observed radio and
a known block when the law commits; no operator while a drop is queued. -/
def Lc.setting (s : Lc) (e : Event) : Bool :=
  !s.cfg.dryRun && decide (0 < s.cfg.fec.bitrateLeadS) && e.vencAcks &&
    ((s.committing e).isNone ||
      (s.cfg.fec.enabled && s.radio.valid && s.fec.ctrl.current.isSome)) &&
    (s.pending.isNone || !e.configures)

/-! ## What keeps the order -/

/-- The GET_RADIO fallback is due. -/
def Lc.pollDue (s : Lc) (now : ℕ) : Bool :=
  s.cfg.fec.enabled && (s.cfg.fec.wfbStatsPort == 0 || s.statsWasStale) &&
    decide (s.nextRadioUs ≤ now)

/-- The block a sidecar frame makes the controller commit. -/
def Lc.blockOf (s : Lc) (d : SidecarDgram) (now : ℕ) : Option FecParams :=
  if s.hears d && d.hasSize && !s.skipFec d then
    (controllerUpdate s.fec.ctrl s.cfg.fec d.frameSizeBytes s.ring now
      (s.fps.feed d.frameReadyUs).get s.fec.lastWrittenKbps).2.2
  else none

/-- The `bitrate_assert` of a listening path: its clock reading, the radio and the block it
budgets for. -/
def Lc.asserting (s : Lc) : Event → Option (ℕ × RadioState × FecParams)
  | .radioPoll dt getRadio _ =>
      if s.pollDue (s.clock + dt) then
        s.fec.ctrl.current.map
          (s.clock + dt, if getRadio then .observe s.air.params else s.radio, ·)
      else none
  | .txStats dt _ d _ =>
      if s.statsOpen then
        d.params.bind fun p => s.fec.ctrl.current.map (s.clock + dt, .observe p, ·)
      else none
  | .sidecar dt dt₁ d _ _ =>
      (s.blockOf d (s.clock + dt + dt₁)).map (s.clock + dt + dt₁, s.radio, ·)
  | _ => none

/-- What a listening path writes to the encoder outside the up-lock. -/
def Lc.raisesTo (s : Lc) (e : Event) : Option ℤ :=
  (s.bypass e).or <| (s.asserting e).bind fun (now, radio, cur) =>
    let target := (assertTarget s.cfg.fec radio.phyMbps cur).1
    if s.cfg.fec.enabled && radio.valid && assertWrites s.cfg.fec s.fec target now &&
        !s.fec.ctrl.upLocked now then some target else none

/-- While a drop is queued, nothing past its bound is written outside the up-lock. -/
def staysLow (sg : Lc × DropHist) (e : Event) : Bool :=
  sg.1.pending.isNone || sg.2.preDrop.all fun d => d.target.all fun target =>
    (sg.1.raisesTo e).all fun kbps => decide ((kbps : ℚ) ≤ dropBound sg.1.cfg target)

/-- The up-lock a pre-drop arms. -/
def Lc.armed (s : Lc) (now : ℕ) : FecState :=
  let lockEnd := now + usOf (s.cfg.fec.bitrateLeadS + s.cfg.fec.mcsSettleS)
  { s.fec with ctrl :=
      if s.fec.ctrl.bitrateUpLockUntilUs < lockEnd
      then { s.fec.ctrl with bitrateUpLockUntilUs := lockEnd } else s.fec.ctrl }

/-- The pre-drop assert for `m` writes. -/
def Lc.preDropWrites (s : Lc) (m : ℤ) (now : ℕ) : Bool :=
  s.fec.ctrl.current.any fun cur =>
    assertWrites s.cfg.fec (s.armed now) (assertTarget s.cfg.fec (s.radio.future m).phyMbps cur).1
      now

/-- A commit to `m` that is deferred writes its pre-drop, or finds the encoder no higher than
the mirror; one that is sent at once finds the air no higher than `m`. -/
def Lc.commitsLevel (s : Lc) (m : ℤ) (now : ℕ) (real : Option ℤ) : Bool :=
  if commitDefers s.cfg s.radioBody m then
    s.preDropWrites m now || real.all fun kbps => decide (kbps ≤ s.fec.lastWrittenKbps)
  else decide (s.air.mcs ≤ m)

/-- Nothing of the three goes wrong. -/
def KeepsOrder (sg : Lc × DropHist) (e : Event) : Bool :=
  staysLow sg e &&
    (sg.1.committing e).all fun (s, now) => s.commitsLevel s.sel.currentMcs now sg.2.real

/-! ## The invariant -/

/-- A queued drop `p` with its pre-drop `d` and target `t`: the deadline leaves the lead, the
encoder is within the bound, and so is the mirror as long as the up-lock lasts. -/
structure Guarded (s : Lc) (g : DropHist) (clock : ℕ) (p : PendingMcsDown) (d : PreDrop)
    (t : ℤ) : Prop where
  preDrop : g.preDrop = some d
  target : d.target = some t
  mcs : d.mcs = p.targetMcs
  lead : d.since + usOf s.cfg.fec.bitrateLeadS ≤ p.deadlineUs
  body : p.pendingRadio.mcs = p.targetMcs
  mirror : 0 < s.fec.lastWrittenKbps
  held : s.fec.ctrl.bitrateUpLockUntilUs ≤ clock ∨
    (s.fec.lastWrittenKbps : ℚ) ≤ dropBound s.cfg t
  real : ∀ kbps, g.real = some kbps → (kbps : ℚ) ≤ dropBound s.cfg t

/-- Every queued drop is guarded. -/
def AllGuarded (s : Lc) (g : DropHist) (clock : ℕ) : Prop :=
  ∀ p, s.pending = some p → ∃ d t, Guarded s g clock p d t

/-- What the runs keep. -/
structure DropInv (s : Lc) (g : DropHist) : Prop where
  inRange : s.cfg.InRange
  rung : s.sel.currentMcs ≤ 11
  mirror : s.fec.lastWrittenKbps ≠ 0
  guarded : AllGuarded s g s.clock

/-- Same drop, same encoder: what `bitrate_assert` measures against. -/
structure SameEncoder (s s' : Lc) : Prop where
  cfg : s'.cfg = s.cfg
  mirror : s'.fec.lastWrittenKbps = s.fec.lastWrittenKbps
  lock : s'.fec.ctrl.bitrateUpLockUntilUs = s.fec.ctrl.bitrateUpLockUntilUs
  pending : s'.pending = s.pending

theorem SameEncoder.trans {s s' s'' : Lc} (h : SameEncoder s s') (h' : SameEncoder s' s'') :
    SameEncoder s s'' where
  cfg := h'.cfg.trans h.cfg
  mirror := h'.mirror.trans h.mirror
  lock := h'.lock.trans h.lock
  pending := h'.pending.trans h.pending

section Guarded

variable {s s' : Lc} {g : DropHist} {clock clock' : ℕ} {p : PendingMcsDown} {d : PreDrop} {t : ℤ}

/-- Time passes, the rest of the state moves. -/
theorem Guarded.of_same (h : Guarded s g clock p d t) (hs : SameEncoder s s')
    (hclock : clock ≤ clock') : Guarded s' g clock' p d t where
  preDrop := h.preDrop
  target := h.target
  mcs := h.mcs
  lead := by
    rw [hs.cfg]
    exact h.lead
  body := h.body
  mirror := by
    rw [hs.mirror]
    exact h.mirror
  held := by
    rw [hs.cfg, hs.mirror, hs.lock]
    exact h.held.imp_left (·.trans hclock)
  real := by
    rw [hs.cfg]
    exact h.real

theorem AllGuarded.of_same (h : AllGuarded s g clock) (hs : SameEncoder s s')
    (hclock : clock ≤ clock') : AllGuarded s' g clock' := by
  intro p hp
  rw [hs.pending] at hp
  obtain ⟨d, t, hg⟩ := h p hp
  exact ⟨d, t, hg.of_same hs hclock⟩

/-- A retry moves the deadline out. -/
theorem Guarded.retry (h : Guarded s g clock p d t) {deadline : ℕ} (hd : p.deadlineUs ≤ deadline) :
    Guarded s g clock { p with deadlineUs := deadline } d t :=
  { h with lead := h.lead.trans hd }

/-- An acknowledged SET of a guarded drop is in order. -/
theorem Guarded.inOrder (h : Guarded s g clock p d t) {now : ℕ} (hdue : p.deadlineUs ≤ now) :
    g.inOrder s.cfg p.pendingRadio.mcs now = true := by
  have hreal : (g.real.all fun kbps => decide ((kbps : ℚ) ≤ dropBound s.cfg t)) = true := by
    cases hr : g.real with
    | none => rfl
    | some kbps => exact decide_eq_true (h.real kbps hr)
  have hlead := h.lead.trans hdue
  simp only [DropHist.inOrder, h.preDrop, Option.any_some, h.target, hreal, h.mcs, h.body]
  simp [hlead]

end Guarded

/-! ## What the history does not see -/

/-- The observation moves no history and is no drop of the law. -/
def Unseen (o : Obs) : Prop :=
  (∀ g, dropMonitor.upd g o = g) ∧ ∀ cfg air g, o.inOrder cfg air g = true

theorem unseen_after {os : List Obs} (h : ∀ o ∈ os, Unseen o) (g : DropHist) :
    dropMonitor.after g os = g :=
  dropMonitor.after_of_kept fun o ho => (h o ho).1

theorem unseen_one {o : Obs} (h : Unseen o) : ∀ o' ∈ [o], Unseen o' :=
  fun _ ho => List.mem_singleton.mp ho ▸ h

/-- What a path did from a guarded state: its drops are in order, and the drop it leaves
queued is guarded. -/
structure Safe (cfg : Config) (air : RadioBody) (g : DropHist) (clock : ℕ) (r : Lc × List Obs) :
    Prop where
  inOrder : r.2.all (Obs.inOrder cfg air g) = true
  guarded : AllGuarded r.1 (dropMonitor.after g r.2) clock

namespace Safe

variable {cfg : Config} {air : RadioBody} {g : DropHist} {clock clock' : ℕ} {s s' : Lc}
  {os pre post : List Obs}

theorem of_unseen (h : AllGuarded s g clock) (hos : ∀ o ∈ os, Unseen o) :
    Safe cfg air g clock (s, os) where
  inOrder := List.all_eq_true.mpr fun o ho => (hos o ho).2 cfg air g
  guarded := by
    rw [unseen_after hos]
    exact h

theorem prepend (h : Safe cfg air g clock (s, os)) (hpre : ∀ o ∈ pre, Unseen o) :
    Safe cfg air g clock (s, pre ++ os) where
  inOrder := by
    rw [List.all_append, h.inOrder, Bool.and_true]
    exact List.all_eq_true.mpr fun o ho => (hpre o ho).2 cfg air g
  guarded := by
    rw [Monitor.after_append, unseen_after hpre]
    exact h.guarded

theorem append (h : Safe cfg air g clock (s, os)) (hpost : ∀ o ∈ post, Unseen o) :
    Safe cfg air g clock (s, os ++ post) where
  inOrder := by
    rw [List.all_append, h.inOrder, Bool.true_and]
    exact List.all_eq_true.mpr fun o ho => (hpost o ho).2 cfg air g
  guarded := by
    rw [Monitor.after_append, unseen_after hpost]
    exact h.guarded

theorem of_same (h : Safe cfg air g clock (s, os)) (hs : SameEncoder s s') (hclock : clock ≤ clock') :
    Safe cfg air g clock' (s', os) where
  inOrder := h.inOrder
  guarded := AllGuarded.of_same h.guarded hs hclock

end Safe

/-! ## `bitrate_assert` -/

/-- A noted target stays. -/
theorem dropMonitor_asserted {g : DropHist} {d : PreDrop} {t : ℤ} (hp : g.preDrop = some d)
    (ht : d.target = some t) (now : ℕ) (target : ℤ) :
    dropMonitor.upd g (.asserted now target) = g := by
  obtain ⟨real, preDrop⟩ := g
  obtain ⟨since, mcs, noted⟩ := d
  subst hp ht
  rfl

/-- The bound leaves room for the target and its dead band. -/
theorem le_dropBound {cfg : Config} (hc : cfg.InRange) {t : ℤ} (hpos : 0 < t) :
    (t : ℚ) ≤ dropBound cfg t := by
  have htol := hc.tolerance
  have ht : (0 : ℚ) ≤ t := by exact_mod_cast hpos.le
  have hprod : (0 : ℚ) ≤ t * cfg.fec.bitrateTolerance := mul_nonneg ht htol
  rw [dropBound]
  linarith

theorem band_le_dropBound {cfg : Config} (hc : cfg.InRange) {mirror t : ℤ} (hpos : 0 < t)
    (hband : |mirror - t| ≤ assertTolerance cfg.fec t) : (mirror : ℚ) ≤ dropBound cfg t := by
  have htol := hc.tolerance
  have ht : (0 : ℚ) ≤ t := by exact_mod_cast hpos.le
  have hprod : (0 : ℚ) ≤ t * cfg.fec.bitrateTolerance := mul_nonneg ht htol
  have hle : (assertTolerance cfg.fec t : ℚ) ≤ t * cfg.fec.bitrateTolerance + 1 := by
    unfold assertTolerance
    dsimp only
    split
    · push_cast
      linarith
    · linarith [truncQ_le hprod]
  have hdev : (mirror : ℚ) - t ≤ assertTolerance cfg.fec t := by
    have := (le_abs_self _).trans hband
    exact_mod_cast this
  unfold dropBound
  linarith

/-- What a `bitrate_assert` with this target did, off dry-run and with an encoder that
answers. -/
inductive AssertStep (cfg : Config) (f : FecState) (target : ℤ) (now : ℕ) :
    FecState → List Obs → Prop where
  | kept (hkeep : assertWrites cfg.fec f target now = false) :
      AssertStep cfg f target now f [.asserted now target]
  | wrote {f' : FecState} {req : VencReq} (hwrite : assertWrites cfg.fec f target now = true)
      (hkbps : req.bitrateKbps = some (min target 200000)) (hmirror : f'.lastWrittenKbps = target)
      (hlock : f'.ctrl.bitrateUpLockUntilUs = f.ctrl.bitrateUpLockUntilUs) :
      AssertStep cfg f target now f' [.asserted now target, .venc now .assert req true]

theorem assertWrite_lock (cfg : Config) (f : FecState) (target payload : ℤ) (now : ℕ)
    (answer : Bool) :
    (assertWrite cfg f target payload now answer).1.ctrl.bitrateUpLockUntilUs
      = f.ctrl.bitrateUpLockUntilUs := by
  have hsettle (c : Controller) (secs : ℚ) :
      (c.armSettle now secs).bitrateUpLockUntilUs = c.bitrateUpLockUntilUs := by
    unfold Controller.armSettle
    dsimp only
    split <;> rfl
  unfold assertWrite
  dsimp only
  generalize vencApply now .assert target _ answer = out
  split <;> split <;> split <;> first | exact hsettle _ _ | rfl

theorem bitrateAssert_step {cfg : Config} (hd : cfg.dryRun = false) (hc : cfg.InRange)
    {radio : RadioState} {f : FecState} {cur : FecParams} (hcur : f.ctrl.current = some cur)
    (hon : cfg.fec.enabled = true) (hv : radio.valid = true) (now : ℕ) :
    AssertStep cfg f (assertTarget cfg.fec radio.phyMbps cur).1 now
      (bitrateAssert radio cfg f now true).1 (bitrateAssert radio cfg f now true).2 := by
  have hpos : 0 < (assertTarget cfg.fec radio.phyMbps cur).1 :=
    assertTarget_pos (by have := hc.bitrateMin; omega) _ _
  obtain ⟨req, hkbps, hobs, hmirror⟩ := assertWrite_spec hd f hpos
    (assertTarget cfg.fec radio.phyMbps cur).2 now true
  have hcall : bitrateAssert radio cfg f now true =
      if assertWrites cfg.fec f (assertTarget cfg.fec radio.phyMbps cur).1 now then
        ((assertWrite cfg f (assertTarget cfg.fec radio.phyMbps cur).1
            (assertTarget cfg.fec radio.phyMbps cur).2 now true).1,
          .asserted now (assertTarget cfg.fec radio.phyMbps cur).1 ::
            (assertWrite cfg f (assertTarget cfg.fec radio.phyMbps cur).1
              (assertTarget cfg.fec radio.phyMbps cur).2 now true).2)
      else (f, [.asserted now (assertTarget cfg.fec radio.phyMbps cur).1]) := by
    simp only [bitrateAssert, hcur, hon, hv]
    rfl
  rw [hcall]
  split
  case isTrue hw =>
    rw [hobs]
    exact .wrote hw hkbps hmirror (assertWrite_lock _ _ _ _ _ _)
  case isFalse hw => exact .kept (Bool.not_eq_true _ ▸ hw)

/-- A write under the up-lock does not raise a positive mirror. -/
theorem assertWrites_locked {cfg : FecConfig} {f : FecState} {target : ℤ} {now : ℕ}
    (h : assertWrites cfg f target now = true) (hlock : f.ctrl.upLocked now = true)
    (hpos : 0 < f.lastWrittenKbps) : target ≤ f.lastWrittenKbps := by
  simp only [assertWrites, wouldIncrease, hlock, hpos, decide_true, Bool.true_and, Bool.and_true,
    Bool.and_eq_true, Bool.not_eq_true', decide_eq_false_iff_not, not_lt] at h
  exact h.2

/-- Not written: the target is in the mirror's band, or above the mirror under the lock. -/
theorem mirror_le_dropBound {cfg : Config} (hc : cfg.InRange) {f : FecState} {target : ℤ} {now : ℕ}
    (hpos : 0 < target) (hmirror : f.lastWrittenKbps ≠ 0)
    (h : assertWrites cfg.fec f target now = false) :
    0 < f.lastWrittenKbps ∧ (f.lastWrittenKbps : ℚ) ≤ dropBound cfg target := by
  simp only [assertWrites, Bool.and_eq_false_iff, Bool.not_eq_false', Bool.and_eq_true] at h
  rcases h with hband | ⟨hinc, -⟩
  · simp only [bitrateChanged, Bool.or_eq_false_iff, decide_eq_false_iff_not, not_lt] at hband
    have hm : 0 < f.lastWrittenKbps := lt_of_le_of_ne hband.1 hmirror.symm
    have hdev := hband.2
    rw [if_pos hm] at hdev
    exact ⟨hm, band_le_dropBound hc hpos hdev⟩
  · simp only [wouldIncrease, Bool.and_eq_true, decide_eq_true_eq] at hinc
    have hle : (f.lastWrittenKbps : ℚ) ≤ target := by exact_mod_cast hinc.2.le
    exact ⟨hinc.1, hle.trans (le_dropBound hc hpos)⟩

/-- What the encoder holds after a write of the target is no more than the target. -/
theorem written_le_target {q real : Option ℤ} {target kbps : ℤ}
    (hq : q = some (min target 200000)) (h : q.or real = some kbps) : (kbps : ℚ) ≤ target := by
  rw [hq] at h
  have hkbps : min target 200000 = kbps := Option.some.inj h
  rw [← hkbps]
  exact_mod_cast min_le_left _ _

/-- An assert keeps a guarded drop guarded, unless it writes past the bound and outside the
up-lock. -/
theorem Guarded.asserted {s : Lc} {g : DropHist} {clock now : ℕ} {p : PendingMcsDown} {d : PreDrop}
    {t target : ℤ} {f' : FecState} {os : List Obs} (h : Guarded s g clock p d t)
    (hclock : clock ≤ now) (hpos : 0 < target) (hstep : AssertStep s.cfg s.fec target now f' os)
    (hlow : assertWrites s.cfg.fec s.fec target now = true →
      s.fec.ctrl.upLocked now = false → (target : ℚ) ≤ dropBound s.cfg t) :
    Guarded { s with fec := f' } (dropMonitor.after g os) now p d t := by
  cases hstep with
  | kept =>
      rw [Monitor.after_cons, dropMonitor_asserted h.preDrop h.target, Monitor.after_nil]
      exact h.of_same ⟨rfl, rfl, rfl, rfl⟩ hclock
  | wrote hwrite hkbps hmirror hlock =>
      -- under the lock the write is no increase, and while it lasts the mirror is low
      have hbound : (target : ℚ) ≤ dropBound s.cfg t := by
        cases hup : s.fec.ctrl.upLocked now
        · exact hlow hwrite hup
        · have hle := assertWrites_locked hwrite hup h.mirror
          rcases h.held with hend | hmirror
          · simp only [Controller.upLocked, Bool.and_eq_true, decide_eq_true_eq] at hup
            omega
          · exact le_trans (by exact_mod_cast hle) hmirror
      rw [Monitor.after_cons, dropMonitor_asserted h.preDrop h.target, Monitor.after_cons,
        Monitor.after_nil]
      exact {
        preDrop := h.preDrop
        target := h.target
        mcs := h.mcs
        lead := h.lead
        body := h.body
        mirror := hmirror ▸ hpos
        held := .inr (hmirror ▸ hbound)
        real := by
          intro kbps hreal
          exact (written_le_target hkbps hreal).trans hbound }

/-! ## Commits -/

/-- A commit asserts FEC control's budget: it is on, knows a radio and a block. -/
structure Lc.Budgets (s : Lc) : Prop where
  dryRun : s.cfg.dryRun = false
  inRange : s.cfg.InRange
  enabled : s.cfg.fec.enabled = true
  valid : s.radio.valid = true
  current : s.fec.ctrl.current.isSome = true
  mirror : s.fec.lastWrittenKbps ≠ 0

section Commits

variable {s : Lc} {g : DropHist} {m : ℤ} {now : ℕ}

theorem armed_lastWrittenKbps (s : Lc) (now : ℕ) :
    (s.armed now).lastWrittenKbps = s.fec.lastWrittenKbps := rfl

theorem armed_current (s : Lc) (now : ℕ) :
    (s.armed now).ctrl.current = s.fec.ctrl.current := by
  rw [Lc.armed]
  dsimp only
  split <;> rfl

theorem preDrop_eq (h : s.Budgets) (answer : Bool) :
    s.preDrop m now answer =
      ((bitrateAssert (s.radio.future m) s.cfg (s.armed now) now answer).1,
        .preDrop now m :: (bitrateAssert (s.radio.future m) s.cfg (s.armed now) now answer).2) := by
  have hgate : ¬(!s.cfg.fec.enabled || !s.radio.valid || s.fec.ctrl.current.isNone) = true := by
    have := h.current
    simp [h.enabled, h.valid, Option.isSome_iff_ne_none.mp this]
  rw [Lc.preDrop, commitMcsPreDropBitrate]
  rw [if_neg hgate]
  rfl

/-- A drop that is queued is guarded from the start. -/
theorem deferredTo_guarded (h : s.Budgets) (h0 : 0 ≤ m) (h11 : m ≤ 11)
    (hlow : s.preDropWrites m now = true ∨
      ∀ kbps, g.real = some kbps → kbps ≤ s.fec.lastWrittenKbps) :
    AllGuarded (s.deferredTo m now true) (dropMonitor.after g (s.preDrop m now true).2) now := by
  obtain ⟨cur, hcur⟩ := Option.isSome_iff_exists.mp h.current
  set t := (assertTarget s.cfg.fec (s.radio.future m).phyMbps cur).1 with ht
  have hpos : 0 < t := assertTarget_pos (by have := h.inRange.bitrateMin; omega) _ _
  have hbound := le_dropBound h.inRange hpos
  have hvalid : (s.radio.future m).valid = true := h.valid
  have hstep := bitrateAssert_step h.dryRun h.inRange ((armed_current s now).trans hcur)
    h.enabled hvalid now
  rw [← ht] at hstep
  -- what is left to show of the encoder: it is within the bound, and so is its mirror
  have hguard (f' : FecState) (g' : DropHist)
      (hg : g'.preDrop = some { since := now, mcs := m, target := some t })
      (hm : 0 < f'.lastWrittenKbps) (hlow : (f'.lastWrittenKbps : ℚ) ≤ dropBound s.cfg t)
      (hreal : ∀ kbps, g'.real = some kbps → (kbps : ℚ) ≤ dropBound s.cfg t) :
      AllGuarded { s with pending := some (s.dropTo m now), fec := f' } g' now := by
    intro p hp
    obtain rfl := Option.some.inj hp
    exact ⟨_, t, hg, rfl, rfl, le_rfl, RadioBody.mcs_withMcs _ h0 (by omega), hm, .inr hlow, hreal⟩
  rw [Lc.deferredTo]
  rw [preDrop_eq h]
  dsimp only
  generalize (bitrateAssert (s.radio.future m) s.cfg (s.armed now) now true).1 = f' at hstep ⊢
  generalize (bitrateAssert (s.radio.future m) s.cfg (s.armed now) now true).2 = os at hstep ⊢
  cases hstep with
  | kept hkeep =>
      have hreal : ∀ kbps, g.real = some kbps → kbps ≤ s.fec.lastWrittenKbps := by
        refine hlow.resolve_left ?_
        intro hw
        simp only [Lc.preDropWrites, hcur, Option.any_some, ← ht, hkeep] at hw
        cases hw
      obtain ⟨hm, hmirror⟩ : 0 < s.fec.lastWrittenKbps ∧
          (s.fec.lastWrittenKbps : ℚ) ≤ dropBound s.cfg t := by
        have hbound := mirror_le_dropBound h.inRange hpos
          ((armed_lastWrittenKbps s now).symm ▸ h.mirror) hkeep
        rw [armed_lastWrittenKbps] at hbound
        exact hbound
      refine hguard _ _ rfl hm hmirror ?_
      intro kbps hk
      have hle : (kbps : ℚ) ≤ s.fec.lastWrittenKbps := by exact_mod_cast hreal kbps hk
      exact hle.trans hmirror
  | wrote hwrite hkbps hmirror hlock =>
      refine hguard _ _ rfl (hmirror ▸ hpos) (hmirror ▸ hbound) ?_
      intro kbps hk
      exact (written_le_target hkbps hk).trans hbound

theorem Obs.inOrder_of_isBudget {o : Obs} (h : o.isBudget) (cfg : Config) (air : RadioBody)
    (g : DropHist) : o.inOrder cfg air g = true := by
  cases o <;> first | rfl | cases h

theorem unseen_queued (now : ℕ) (m : ℤ) : Unseen (.queued now m) := ⟨fun _ => rfl, fun _ _ _ => rfl⟩

theorem setRadio_inOrder {cfg : Config} {air : RadioBody} {now : ℕ} {who : SetBy} {body : RadioBody}
    (h : air.mcs ≤ body.mcs) (acked : Bool) (g : DropHist) :
    (Obs.setRadio now who body acked).inOrder cfg air g = true := by
  cases acked
  · rfl
  · simp [Obs.inOrder, not_lt.mpr h]

/-- `commit_mcs_change`: a deferred drop is queued guarded, what is sent at once lowers nothing. -/
theorem commitTo_safe (h : s.Budgets) (h0 : 0 ≤ m) (h11 : m ≤ 11) (who : SetBy) {io : CommitIo}
    (hio : io.venc = true) (hlevel : s.commitsLevel m now g.real = true) :
    Safe s.cfg s.air g now (s.commitTo m who now io).2 := by
  rw [Lc.commitsLevel] at hlevel
  cases hdef : commitDefers s.cfg s.radioBody m
  · rw [hdef] at hlevel
    have hair : s.air.mcs ≤ m := of_decide_eq_true hlevel
    rw [commitTo_sent who now io hdef h.dryRun]
    refine ⟨?_, fun p hp => nomatch hp⟩
    rw [List.all_cons, List.all_nil, Bool.and_true]
    exact setRadio_inOrder (by rwa [RadioBody.mcs_withMcs _ h0 (by omega)]) _ g
  · rw [hdef] at hlevel
    have hlow : s.preDropWrites m now = true ∨
        ∀ kbps, g.real = some kbps → kbps ≤ s.fec.lastWrittenKbps := by
      rcases Bool.or_eq_true _ _ ▸ hlevel with hw | hreal
      · exact .inl hw
      · refine .inr ?_
        intro kbps hk
        rw [hk] at hreal
        exact of_decide_eq_true hreal
    rw [commitTo_deferred who now io hdef, hio]
    refine Safe.append ⟨List.all_eq_true.mpr fun o ho => ?_, deferredTo_guarded h h0 h11 hlow⟩
      (unseen_one (unseen_queued now m))
    rcases commitMcsPreDropBitrate_obs _ _ _ _ _ _ o ho with rfl | hb
    · rfl
    · exact Obs.inOrder_of_isBudget hb _ _ _

theorem sameEncoder_observe (s : Lc) (p : RadioParams) (now : ℕ) : SameEncoder s (s.observe p now) := by
  refine ⟨rfl, rfl, ?_, rfl⟩
  rw [Lc.observe, radioApplyObservation, Controller.armSettle]
  dsimp only
  split
  · split <;> rfl
  · rfl

theorem sameEncoder_stored (s : Lc) (m : ℤ) (now : ℕ) : SameEncoder s (s.stored m now) := by
  have hbody : SameEncoder s { s with radioBody := s.radioBody.withMcs m } := ⟨rfl, rfl, rfl, rfl⟩
  exact hbody.trans (sameEncoder_observe _ _ _)

theorem commitStored_safe (h : s.Budgets) (h0 : 0 ≤ m) (h11 : m ≤ 11) (who : SetBy) (nowObs : ℕ)
    {io : CommitIo} (hio : io.venc = true) (hlevel : s.commitsLevel m now g.real = true) :
    Safe s.cfg s.air g now (s.commitStored m who now nowObs io) := by
  have hsafe := commitTo_safe h h0 h11 who hio hlevel
  rw [Lc.commitStored]
  generalize s.commitTo m who now io = out at hsafe
  obtain ⟨rc, s', os⟩ := out
  dsimp only
  split
  · exact hsafe.of_same (sameEncoder_stored s' m nowObs) le_rfl
  · exact hsafe

end Commits

/-! ## The paths of the law -/

theorem Lc.Budgets.of_eq {s s' : Lc} (h : s.Budgets) (hcfg : s'.cfg = s.cfg)
    (hradio : s'.radio = s.radio) (hfec : s'.fec = s.fec) : s'.Budgets where
  dryRun := hcfg ▸ h.dryRun
  inRange := hcfg ▸ h.inRange
  enabled := hcfg ▸ h.enabled
  valid := hradio ▸ h.valid
  current := hfec ▸ h.current
  mirror := hfec ▸ h.mirror

theorem syncBody_pending (s : Lc) (ok : Bool) : (s.syncBody ok).1.pending = s.pending := by
  rw [Lc.syncBody]
  split
  · rfl
  · cases ok <;> rfl

theorem syncBody_radio (s : Lc) (ok : Bool) : (s.syncBody ok).1.radio = s.radio := by
  rw [Lc.syncBody]
  split
  · rfl
  · cases ok <;> rfl

theorem syncBody_air (s : Lc) (ok : Bool) : (s.syncBody ok).1.air = s.air := by
  rw [Lc.syncBody]
  split
  · rfl
  · cases ok <;> rfl

theorem syncBody_same (s : Lc) (ok : Bool) : SameEncoder s (s.syncBody ok).1 where
  cfg := syncBody_cfg ok
  mirror := by rw [syncBody_fec]
  lock := by rw [syncBody_fec]
  pending := syncBody_pending s ok

theorem unseen_adopted {r : Lc × List Obs} (h : Emits Obs.isAdopted r) : ∀ o ∈ r.2, Unseen o := by
  intro o ho
  have hadopted := h o ho
  cases o <;> first
    | exact ⟨fun _ => rfl, fun _ _ _ => rfl⟩
    | exact absurd hadopted Bool.false_ne_true

section Law

variable {s : Lc} {g : DropHist} {now clock : ℕ}

/-- What a path does once the cache is synced, if there is a body to commit with. -/
theorem synced_safe {k : Lc → Lc × List Obs} {ok : Bool}
    (hk : Safe s.cfg s.air g clock (k (s.syncBody ok).1)) :
    Safe s.cfg s.air g clock (andThen (s.syncBody ok) k) :=
  Safe.prepend hk (unseen_adopted (syncBody_emits s ok))

theorem watchdogCommit_safe (hd : s.cfg.dryRun = false) (h0 : 0 ≤ s.sel.currentMcs)
    (h11 : s.sel.currentMcs ≤ 11) (hg : AllGuarded s g now) {io : SyncIo}
    (hio : io.commit.venc = true)
    (hlevel : ∀ s', s.withBody io.getRadio = some s' →
      s.Budgets ∧ s'.commitsLevel s'.sel.currentMcs now g.real = true) :
    Safe s.cfg s.air g now (s.watchdogCommit now io) := by
  have hdry : ¬s.cfg.dryRun = true := by simp [hd]
  unfold Lc.watchdogCommit
  rw [if_neg hdry]
  refine synced_safe ?_
  unfold Lc.withBody at hlevel
  split
  case isTrue hv =>
    obtain ⟨h, hl⟩ := hlevel _ (if_pos hv)
    have hb := h.of_eq (syncBody_cfg io.getRadio) (syncBody_radio s _) (syncBody_fec s _)
    rw [← syncBody_cfg (s := s) io.getRadio, ← syncBody_air s io.getRadio]
    rw [← syncBody_sel s io.getRadio] at h0 h11
    exact commitStored_safe hb h0 h11 .watchdog now hio hl
  case isFalse => exact .of_unseen (hg.of_same (syncBody_same s _) le_rfl) fun _ ho => nomatch ho

theorem readBack_spec (s : Lc) (m : ℤ) (ok : Bool) (nowObs : ℕ) :
    SameEncoder s (s.readBack m ok nowObs).1 ∧ ∀ o ∈ (s.readBack m ok nowObs).2, Unseen o := by
  cases ok
  · exact ⟨sameEncoder_stored s m nowObs, fun _ ho => nomatch ho⟩
  · refine ⟨?_, unseen_one ⟨fun _ => rfl, fun _ _ _ => rfl⟩⟩
    have hbody : SameEncoder s s.synced := ⟨rfl, rfl, rfl, rfl⟩
    exact hbody.trans (sameEncoder_observe _ _ _)

theorem commitDecision_safe (h : s.Budgets) (h0 : 0 ≤ s.sel.currentMcs)
    (h11 : s.sel.currentMcs ≤ 11) (snap : Selector) (nowObs : ℕ) {io : RxIo}
    (hio : io.commit.venc = true) (hlevel : s.commitsLevel s.sel.currentMcs now g.real = true) :
    Safe s.cfg s.air g now (s.commitDecision snap now nowObs io) := by
  have hsafe := commitTo_safe h h0 h11 .decision hio hlevel
  unfold Lc.commitDecision
  dsimp only
  generalize s.commitTo s.sel.currentMcs .decision now io.commit = out at hsafe
  obtain ⟨rc, s', os⟩ := out
  dsimp only [andThen]
  cases rc with
  | failed =>
      have hsel : SameEncoder s' { s' with sel := snap } := ⟨rfl, rfl, rfl, rfl⟩
      exact Safe.append (hsafe.of_same hsel le_rfl) (unseen_one ⟨fun _ => rfl, fun _ _ _ => rfl⟩)
  | deferred => exact Safe.append hsafe fun _ ho => nomatch ho
  | acked =>
      obtain ⟨hsame, hos⟩ := readBack_spec s' s.sel.currentMcs io.readBack nowObs
      exact Safe.append (hsafe.of_same hsame le_rfl) hos

theorem decision_safe (hd : s.cfg.dryRun = false) (h0 : 0 ≤ s.sel.currentMcs)
    (h11 : s.sel.currentMcs ≤ 11) (hg : AllGuarded s g now) (snap : Selector) (nowObs : ℕ) {io : RxIo}
    (hio : io.commit.venc = true)
    (hlevel : ∀ s', s.withBody io.getRadio = some s' →
      s.Budgets ∧ s'.commitsLevel s'.sel.currentMcs now g.real = true) :
    Safe s.cfg s.air g now (s.decision snap now nowObs io) := by
  have hdry : ¬s.cfg.dryRun = true := by simp [hd]
  rw [Lc.decision]
  rw [if_neg hdry]
  refine synced_safe ?_
  rw [Lc.withBody] at hlevel
  split
  case isTrue hv =>
    obtain ⟨h, hl⟩ := hlevel _ (if_pos hv)
    have hb := h.of_eq (syncBody_cfg io.getRadio) (syncBody_radio s _) (syncBody_fec s _)
    rw [← syncBody_cfg (s := s) io.getRadio, ← syncBody_air s io.getRadio]
    rw [← syncBody_sel s io.getRadio] at h0 h11
    exact commitDecision_safe hb h0 h11 snap nowObs hio hl
  case isFalse =>
    refine .of_unseen ?_ (unseen_one ⟨fun _ => rfl, fun _ _ _ => rfl⟩)
    exact hg.of_same ((syncBody_same s _).trans ⟨rfl, rfl, rfl, rfl⟩) le_rfl

/-- The watchdog. -/
theorem watchdog_safe (hd : s.cfg.dryRun = false) (hc : s.cfg.InRange) (hg : AllGuarded s g s.clock)
    {dt : ℕ} {io : SyncIo} (hio : io.commit.venc = true)
    (hlevel : ∀ s' now, s.committing (.watchdog dt io) = some (s', now) →
      s.Budgets ∧ s'.commitsLevel s'.sel.currentMcs now g.real = true) :
    Safe s.cfg s.air g (s.clock + dt) (s.watchdog (s.clock + dt) io) := by
  have hg' : AllGuarded s g (s.clock + dt) := hg.of_same ⟨rfl, rfl, rfl, rfl⟩ (Nat.le_add_right _ _)
  cases hdue : s.watchdogDue (s.clock + dt)
  · rw [watchdog_idle hdue]
    exact .of_unseen hg' fun _ ho => nomatch ho
  · have hw : AllGuarded (s.watched (s.clock + dt)) g (s.clock + dt) :=
      hg'.of_same ⟨rfl, rfl, rfl, rfl⟩ le_rfl
    have hcommit (hsd : s.watchdogDecision (s.clock + dt) ≠ .none) : Safe s.cfg s.air g (s.clock + dt)
        ((s.watched (s.clock + dt)).watchdogCommit (s.clock + dt) io) := by
      obtain ⟨h0, h11⟩ := watched_range hc hsd
      refine watchdogCommit_safe (s := s.watched (s.clock + dt)) hd h0 h11 hw hio ?_
      intro s' hs'
      obtain ⟨h, hl⟩ := hlevel s' (s.clock + dt) (by simp [Lc.committing, hdue, hsd, hs'])
      exact ⟨h.of_eq rfl rfl rfl, hl⟩
    rw [watchdog_due hdue]
    cases hsd : s.watchdogDecision (s.clock + dt)
    case none => exact .of_unseen hw fun _ ho => nomatch ho
    case failsafe =>
      exact Safe.prepend (hcommit (by simp [hsd])) (unseen_one (o := .failsafe _ _ _)
        ⟨fun _ => rfl, fun _ _ _ => rfl⟩)
    all_goals exact hcommit (by simp [hsd])

/-- An rx_ant record. -/
theorem rxAnt_safe (hd : s.cfg.dryRun = false) (hc : s.cfg.InRange) (hrung : s.sel.currentMcs ≤ 11)
    (hg : AllGuarded s g s.clock) {dt dt₁ dt₂ : ℕ} {r : RxAnt} {io : RxIo}
    (hio : io.commit.venc = true)
    (hlevel : ∀ s' now, s.committing (.rxAnt dt dt₁ dt₂ r io) = some (s', now) →
      s.Budgets ∧ s'.commitsLevel s'.sel.currentMcs now g.real = true) :
    Safe s.cfg s.air g (s.clock + dt + dt₁)
      (s.rxAnt r (s.clock + dt) (s.clock + dt + dt₁) (s.clock + dt + dt₁ + dt₂) io) := by
  have hg' : AllGuarded s g (s.clock + dt + dt₁) := hg.of_same ⟨rfl, rfl, rfl, rfl⟩ (by omega)
  rcases hj : s.judged r (s.clock + dt) with _ | ⟨s', sd⟩
  · obtain ⟨scorer, hr⟩ := rxAnt_none hj (s.clock + dt + dt₁) (s.clock + dt + dt₁ + dt₂) io
    rw [hr]
    exact .of_unseen (hg'.of_same ⟨rfl, rfl, rfl, rfl⟩ le_rfl) fun _ ho => nomatch ho
  · obtain ⟨scorer, score, -, hs'⟩ := judged_some hj
    have hb (h : s.Budgets) : s'.Budgets := h.of_eq (hs' ▸ rfl) (hs' ▸ rfl) (hs' ▸ rfl)
    have hcfg : s'.cfg = s.cfg := hs' ▸ rfl
    have hair : s'.air = s.air := hs' ▸ rfl
    have hgs : AllGuarded s' g (s.clock + dt + dt₁) :=
      hg'.of_same ⟨hcfg, hs' ▸ rfl, hs' ▸ rfl, hs' ▸ rfl⟩ le_rfl
    rw [rxAnt_some hj]
    refine Safe.prepend ?_ (unseen_one (o := .selectorUpdate _ _ _)
      ⟨fun _ => rfl, fun _ _ _ => rfl⟩)
    rw [← hcfg, ← hair]
    show Safe s'.cfg s'.air g _ (s'.act s.sel sd _ _ io)
    rw [Lc.act]
    split
    case isTrue hsd =>
      rw [realign_eq]
      split
      case isTrue hdue =>
        obtain ⟨hsame, h0⟩ := judged_none_rung hj hsd
        obtain ⟨h, hl⟩ := hlevel s' (s.clock + dt + dt₁) (by simp [Lc.committing, hj, hsd, hdue])
        exact commitStored_safe (hb h) (hsame ▸ h0) (hsame ▸ hrung) .realign _ hio hl
      case isFalse => exact .of_unseen hgs fun _ ho => nomatch ho
    case isFalse hsd =>
      obtain ⟨h0, h11⟩ := judged_range hj hc hsd
      refine decision_safe (hcfg ▸ hd) h0 h11 hgs s.sel _ hio ?_
      intro s'' hs''
      obtain ⟨h, hl⟩ := hlevel s'' (s.clock + dt + dt₁) (by simp [Lc.committing, hj, hsd, hs''])
      exact ⟨hb h, hl⟩

end Law

/-! ## The listening paths -/

theorem observe_current (s : Lc) (p : RadioParams) (now : ℕ) :
    (s.observe p now).fec.ctrl.current = s.fec.ctrl.current := by
  rw [Lc.observe, radioApplyObservation, Controller.armSettle]
  dsimp only
  split
  · split <;> rfl
  · rfl

/-- `kbps` is within the bound of the drop the history knows. -/
def DropHist.Low (g : DropHist) (cfg : Config) (kbps : ℤ) : Prop :=
  ∀ d t, g.preDrop = some d → d.target = some t → (kbps : ℚ) ≤ dropBound cfg t

theorem staysLow_low {s : Lc} {g : DropHist} {e : Event} (h : staysLow (s, g) e = true)
    {p : PendingMcsDown} (hp : s.pending = some p) {kbps : ℤ} (hk : s.raisesTo e = some kbps) :
    g.Low s.cfg kbps := by
  intro d t hd ht
  simpa [staysLow, hp, hd, ht, hk] using h

theorem raisesTo_of_asserting {s : Lc} {e : Event} {now : ℕ} {radio : RadioState} {cur : FecParams}
    (hb : s.bypass e = none) (ha : s.asserting e = some (now, radio, cur))
    (hon : s.cfg.fec.enabled = true) (hv : radio.valid = true)
    (hw : assertWrites s.cfg.fec s.fec (assertTarget s.cfg.fec radio.phyMbps cur).1 now = true)
    (hl : s.fec.ctrl.upLocked now = false) :
    s.raisesTo e = some (assertTarget s.cfg.fec radio.phyMbps cur).1 := by
  simp [Lc.raisesTo, hb, ha, hon, hv, hw, hl]

/-- A tick keeps the up-lock, and what it emits is the block in force. -/
structure TickSpec (c : Controller) (out : Controller × Option FecParams) : Prop where
  lock : out.1.bitrateUpLockUntilUs = c.bitrateUpLockUntilUs
  current : ∀ p, out.2 = some p → out.1.current = some p

theorem hysteresis_spec (c : Controller) (cfg : FecConfig) (now : ℕ) (cand cur : FecParams) :
    TickSpec c (c.hysteresis cfg now cand cur) := by
  unfold Controller.hysteresis
  dsimp only
  split_ifs <;> first
    | exact ⟨rfl, fun _ hp => hp⟩
    | exact ⟨rfl, fun _ hp => nomatch hp⟩

theorem judge_spec (c : Controller) (cfg : FecConfig) (now : ℕ) (cand : FecParams)
    (ffActive : Bool) (committedKbps : ℤ) :
    TickSpec c (c.judge cfg now cand ffActive committedKbps) := by
  unfold Controller.judge
  dsimp only
  split
  · split
    · exact ⟨rfl, fun _ hp => nomatch hp⟩
    · exact ⟨rfl, fun _ hp => hp⟩
  · split
    · split
      · exact ⟨rfl, fun _ hp => hp⟩
      · exact ⟨rfl, fun _ hp => nomatch hp⟩
    · split
      · exact ⟨rfl, fun _ hp => nomatch hp⟩
      · split
        · split
          · exact ⟨rfl, fun _ hp => nomatch hp⟩
          · exact ⟨rfl, fun _ hp => hp⟩
        · have h := hysteresis_spec { c with
            wasInGrace := c.inSettleGrace now
            lastCommittedKbps := if 0 < committedKbps then committedKbps else c.lastCommittedKbps }
            cfg now cand
          exact ⟨(h _).lock, (h _).current⟩

theorem controllerUpdate_spec (c : Controller) (cfg : FecConfig) (frameSize : ℕ)
    (ring : HeadroomRing) (now : ℕ) (fps : ℚ) (committedKbps : ℤ) :
    TickSpec c ((controllerUpdate c cfg frameSize ring now fps committedKbps).1,
      (controllerUpdate c cfg frameSize ring now fps committedKbps).2.2) := by
  have h := judge_spec (c.intake cfg frameSize ring now).1 cfg now
  exact ⟨(h _ _ _).lock, (h _ _ _).current⟩

/-- The wedge watchdog, past the mirror. -/
theorem skipped_safe {s : Lc} {g : DropHist} {clock now : ℕ} (hg : AllGuarded s g clock)
    (hclock : clock ≤ now)
    (hbypass : s.wedgeArmed = true → s.wedgeDue now = true → ∀ req kbps,
      vencRequest s.cfg.fec.safeStartupBitrateKbps s.cfg.fec.safeStartupPayload = some req →
      req.bitrateKbps = some kbps → s.pending.isSome = true → g.Low s.cfg kbps)
    (air : RadioBody) : Safe s.cfg air g now (s.skipped now true) := by
  have hidle (s' : Lc) (hs' : SameEncoder s s') : Safe s.cfg air g now (s', []) :=
    .of_unseen (hg.of_same hs' hclock) fun _ ho => nomatch ho
  unfold Lc.skipped vencApply
  dsimp only
  split
  case isFalse => exact hidle s ⟨rfl, rfl, rfl, rfl⟩
  case isTrue harmed =>
    split
    case isFalse => exact hidle _ ⟨rfl, rfl, rfl, rfl⟩
    case isTrue hdue =>
      cases hreq : vencRequest s.cfg.fec.safeStartupBitrateKbps s.cfg.fec.safeStartupPayload with
      | none => exact hidle _ ⟨rfl, rfl, rfl, rfl⟩
      | some req =>
        refine ⟨rfl, fun p hp => ?_⟩
        have hp' : s.pending = some p := hp
        obtain ⟨d, t, h⟩ := hg p hp'
        refine ⟨d, t, h.preDrop, h.target, h.mcs, h.lead, h.body, h.mirror,
          h.held.imp_left (·.trans hclock), fun kbps hk => ?_⟩
        have hk' : req.bitrateKbps.or g.real = some kbps := hk
        cases hr : req.bitrateKbps with
        | none =>
            rw [hr] at hk'
            exact h.real kbps hk'
        | some kbps' =>
            rw [hr] at hk'
            obtain rfl := Option.some.inj hk'
            exact hbypass harmed hdue req kbps' hreq hr (hp' ▸ rfl) d t h.preDrop h.target

/-- What a frame brings before its size is looked at. -/
theorem heard_safe (s : Lc) (d : SidecarDgram) (now : ℕ) :
    (∀ o ∈ (s.heard d now).2, Unseen o) ∧ SameEncoder s (s.heard d now).1 ∧
      ((s.heard d now).1.wedgeArmed = s.wedgeArmed ∧
        ∀ now', (s.heard d now).1.wedgeDue now' = s.wedgeDue now') ∧
      ((s.heard d now).1.fec = s.fec ∧ (s.heard d now).1.ring = s.ring ∧
        (s.heard d now).1.radio = s.radio) ∧
      (s.heard d now).1.fps = s.fps.feed d.frameReadyUs := by
  unfold Lc.heard Lc.readTransport
  split
  · exact ⟨unseen_one ⟨fun _ => rfl, fun _ _ _ => rfl⟩, ⟨rfl, rfl, rfl, rfl⟩,
      ⟨rfl, fun _ => rfl⟩, ⟨rfl, rfl, rfl⟩, rfl⟩
  · exact ⟨(fun _ ho => nomatch ho), ⟨rfl, rfl, rfl, rfl⟩, ⟨rfl, fun _ => rfl⟩, ⟨rfl, rfl, rfl⟩, rfl⟩

section Listen

variable {s s' : Lc} {g : DropHist} {e : Event} (hd : s.cfg.dryRun = false) (hc : s.cfg.InRange)
  (hg : AllGuarded s g s.clock) (hlow : staysLow (s, g) e = true)
include hd hc hg hlow

/-- The `bitrate_assert` of a listening path. -/
theorem asserting_safe (hb : s.bypass e = none) (hsame : SameEncoder s s') {now : ℕ}
    (hclock : s.clock ≤ now)
    (ha : ∀ cur, s'.fec.ctrl.current = some cur → s.asserting e = some (now, s'.radio, cur))
    (air : RadioBody) : Safe s.cfg air g now (s'.assertBitrate now true) := by
  refine ⟨List.all_eq_true.mpr fun o ho =>
    Obs.inOrder_of_isBudget (assertBitrate_emits s' now true o ho) _ _ _, fun p hp => ?_⟩
  have hp' : s.pending = some p := hsame.pending ▸ hp
  obtain ⟨d, t, h⟩ := hg p hp'
  refine ⟨d, t, ?_⟩
  have hs' : Guarded s' g s.clock p d t := h.of_same hsame le_rfl
  have hidle : Guarded s' (dropMonitor.after g []) now p d t := h.of_same hsame hclock
  rw [Lc.assertBitrate]
  cases hcur : s'.fec.ctrl.current with
  | none =>
      have hcall : bitrateAssert s'.radio s'.cfg s'.fec now true = (s'.fec, []) := by
        simp only [bitrateAssert, hcur]
      rw [hcall]
      exact hidle
  | some cur =>
      by_cases hgate : s'.cfg.fec.enabled = true ∧ s'.radio.valid = true
      · have hpos : 0 < (assertTarget s'.cfg.fec s'.radio.phyMbps cur).1 :=
          assertTarget_pos (by have := hc.bitrateMin; rw [hsame.cfg]; omega) _ _
        refine hs'.asserted hclock hpos (bitrateAssert_step (hsame.cfg ▸ hd) (hsame.cfg ▸ hc) hcur
          hgate.1 hgate.2 now) fun hw hl => ?_
        -- outside the lock: the bound is what the condition asks
        rw [hsame.cfg]
        have hraises : s.raisesTo e = some (assertTarget s.cfg.fec s'.radio.phyMbps cur).1 := by
          refine raisesTo_of_asserting hb (ha cur hcur) (hsame.cfg ▸ hgate.1) hgate.2 ?_ ?_
          · simpa only [assertWrites, bitrateChanged, wouldIncrease, Controller.upLocked, hsame.cfg,
              hsame.mirror, hsame.lock] using hw
          · simpa only [Controller.upLocked, hsame.lock] using hl
        exact staysLow_low hlow hp' hraises d t h.preDrop h.target
      · have hcall : bitrateAssert s'.radio s'.cfg s'.fec now true = (s'.fec, []) := by
          have : (!s'.cfg.fec.enabled || !s'.radio.valid) = true := by
            rw [not_and_or] at hgate
            rcases hgate with h | h <;> simp [h]
          simp only [bitrateAssert, hcur]
          rw [if_pos this]
        rw [hcall]
        exact hidle

theorem radioPoll_safe {dt : ℕ} {getRadio venc : Bool} (he : e = .radioPoll dt getRadio venc)
    (hv : venc = true) (air : RadioBody) :
    Safe s.cfg air g (s.clock + dt) (s.radioPoll (s.clock + dt) getRadio venc) := by
  have hclock : s.clock ≤ s.clock + dt := Nat.le_add_right _ _
  unfold Lc.radioPoll
  split
  case isFalse =>
    exact .of_unseen (hg.of_same ⟨rfl, rfl, rfl, rfl⟩ hclock) fun _ ho => nomatch ho
  case isTrue hdue =>
    subst he hv
    have hpoll : s.pollDue (s.clock + dt) = true := hdue
    let polled : Lc := { s with nextRadioUs := s.clock + dt + usOf s.cfg.fec.radioPollS }
    have hpolled : SameEncoder s polled := ⟨rfl, rfl, rfl, rfl⟩
    cases getRadio
    · refine asserting_safe hd hc hg hlow rfl hpolled hclock (fun cur hcur => ?_) air
      have hcur' : s.fec.ctrl.current = some cur := hcur
      simp [Lc.asserting, hpoll, hcur', polled]
    · refine Safe.prepend ?_ (unseen_one (o := .radioSeen _) ⟨fun _ => rfl, fun _ _ _ => rfl⟩)
      have hseen := hpolled.trans (sameEncoder_observe polled s.air.params (s.clock + dt))
      refine asserting_safe hd hc hg hlow rfl hseen hclock (fun cur hcur => ?_) air
      have hcur' : s.fec.ctrl.current = some cur := (observe_current s _ _).symm.trans hcur
      simp [Lc.asserting, hpoll, hcur']
      rfl

theorem txStats_safe {dt dt₁ : ℕ} {d : TxStats} {venc : Bool} (he : e = .txStats dt dt₁ d venc)
    (hv : venc = true) (air : RadioBody) :
    Safe s.cfg air g (s.clock + dt)
      (s.txStats d (s.clock + dt) (s.clock + dt + dt₁) venc) := by
  have hclock : s.clock ≤ s.clock + dt := Nat.le_add_right _ _
  have hidle : Safe s.cfg air g (s.clock + dt) (s, []) :=
    .of_unseen (hg.of_same ⟨rfl, rfl, rfl, rfl⟩ hclock) fun _ ho => nomatch ho
  rw [Lc.txStats]
  split
  case h_1 => exact hidle
  case h_2 p hp =>
    cases hopen : s.statsOpen
    · exact hidle
    · subst he hv
      refine Safe.prepend ?_ (unseen_one (o := .radioSeen _) ⟨fun _ => rfl, fun _ _ _ => rfl⟩)
      let seen : Lc := { s.observe p (s.clock + dt) with
        lastWrittenFec :=
          radioTrackExternalFec (i32 (d.fecK.getD (-1))) (i32 (d.fecN.getD (-1))) s.lastWrittenFec
        lastStatsUs := s.clock + dt + dt₁, statsWasStale := false }
      have hseen : SameEncoder s seen :=
        (sameEncoder_observe s p (s.clock + dt)).trans ⟨rfl, rfl, rfl, rfl⟩
      refine asserting_safe hd hc hg hlow rfl hseen hclock (fun cur hcur => ?_) air
      have hcur' : s.fec.ctrl.current = some cur := (observe_current s _ _).symm.trans hcur
      simp [Lc.asserting, hopen, hp, hcur']
      rfl

theorem cleanFrame_safe {frameSize now : ℕ} {setFec : Bool} (hb : s.bypass e = none)
    (hsame : SameEncoder s s') (hclock : s.clock ≤ now)
    (ha : ∀ cur, (controllerUpdate s'.fec.ctrl s'.cfg.fec frameSize s'.ring now s'.fps.get
      s'.fec.lastWrittenKbps).2.2 = some cur → s.asserting e = some (now, s'.radio, cur))
    (air : RadioBody) : Safe s.cfg air g now (s'.cleanFrame frameSize now setFec true) := by
  have htick := controllerUpdate_spec s'.fec.ctrl s'.cfg.fec frameSize s'.ring now s'.fps.get
    s'.fec.lastWrittenKbps
  unfold Lc.cleanFrame
  dsimp only
  generalize controllerUpdate s'.fec.ctrl s'.cfg.fec frameSize s'.ring now s'.fps.get
    s'.fec.lastWrittenKbps = out at htick ha
  obtain ⟨ctrl, ring, emit⟩ := out
  dsimp only at htick ha ⊢
  let ticked : Lc := { s' with
    bpSkipSinceUs := 0, bpRecoverUs := 0, fec := { s'.fec with ctrl }, ring }
  have hticked : SameEncoder s ticked := hsame.trans ⟨rfl, rfl, htick.lock, rfl⟩
  cases emit with
  | none => exact .of_unseen (s := ticked) (hg.of_same hticked hclock) fun _ ho => nomatch ho
  | some cur =>
      show Safe s.cfg air g now (andThen (ticked.sendFec cur setFec) fun s => s.assertBitrate now true)
      have hdry : ¬ticked.cfg.dryRun = true := by simp [hticked.cfg, hd]
      unfold Lc.sendFec
      rw [if_neg hdry]
      refine Safe.prepend ?_ (unseen_one (o := .lawFec _ _ _) ⟨fun _ => rfl, fun _ _ _ => rfl⟩)
      have hcur : ctrl.current = some cur := htick.current cur rfl
      refine asserting_safe hd hc hg hlow hb ?_ hclock (fun cur' hcur' => ?_) air
      · cases setFec
        · exact hticked
        · exact hticked.trans ⟨rfl, rfl, rfl, rfl⟩
      · have hsome : ctrl.current = some cur' := by cases setFec <;> exact hcur'
        obtain rfl := Option.some.inj (hcur.symm.trans hsome)
        cases setFec <;> exact ha _ rfl

theorem sidecar_safe {dt dt₁ : ℕ} {d : SidecarDgram} {setFec venc : Bool}
    (he : e = .sidecar dt dt₁ d setFec venc) (hv : venc = true) (air : RadioBody) :
    Safe s.cfg air g (s.clock + dt + dt₁)
      (s.sidecar d (s.clock + dt) (s.clock + dt + dt₁) setFec venc) := by
  have hclock : s.clock ≤ s.clock + dt + dt₁ := by omega
  have hidle (s' : Lc) (hs' : SameEncoder s s') : Safe s.cfg air g (s.clock + dt + dt₁) (s', []) :=
    .of_unseen (hg.of_same hs' hclock) fun _ ho => nomatch ho
  subst he hv
  rw [Lc.sidecar]
  cases hhears : s.hears d
  · exact hidle s ⟨rfl, rfl, rfl, rfl⟩
  rw [Bool.not_true, if_neg Bool.false_ne_true]
  obtain ⟨hos, hs', hwedge, hfec, hfps⟩ := heard_safe s d (s.clock + dt)
  refine Safe.prepend ?_ hos
  generalize (s.heard d (s.clock + dt)).1 = s' at hs' hwedge hfec hfps ⊢
  show Safe s.cfg air g _ (s'.sizeTick d (s.skipFec d) _ setFec true)
  rw [Lc.sizeTick]
  cases hsize : d.hasSize
  · exact hidle s' hs'
  rw [Bool.not_true, if_neg Bool.false_ne_true]
  cases hskip : s.skipFec d
  · rw [if_neg Bool.false_ne_true]
    refine cleanFrame_safe hd hc hg hlow ?_ hs' hclock (fun cur hcur => ?_) air
    · simp [Lc.bypass, Lc.wedgeWrites, hskip]
    · rw [hfec.1, hfec.2.1, hs'.cfg, hfps] at hcur
      simp [Lc.asserting, Lc.blockOf, hhears, hsize, hskip, hcur, hfec.2.2]
  · rw [if_pos rfl]
    have hsafe := skipped_safe (hg.of_same hs' le_rfl) hclock (fun harmed hdue req kbps hreq hk hp => ?_)
      air
    · rw [hs'.cfg] at hsafe
      exact hsafe
    · rw [hwedge.1] at harmed
      rw [hwedge.2] at hdue
      rw [hs'.cfg] at hreq ⊢
      rw [hs'.pending] at hp
      obtain ⟨p, hp⟩ := Option.isSome_iff_exists.mp hp
      refine staysLow_low hlow hp ?_
      simp [Lc.raisesTo, Lc.bypass, Lc.wedgeWrites, hhears, hsize, hskip, harmed, hdue, hreq, hk]

end Listen

/-! ## Runs -/

/-- The probe tick writes to the probe radio only. -/
theorem probeTick_safe {s : Lc} {g : DropHist} (hg : AllGuarded s g s.clock) (dt : ℕ)
    (acked : Bool) :
    Safe s.cfg s.air g (s.clock + dt) (s.probeTick (s.clock + dt) acked) := by
  have hquiet (s' : Lc) (os : List Obs) (hs' : SameEncoder s s') (hos : ∀ o ∈ os, Unseen o) :
      Safe s.cfg s.air g (s.clock + dt) (s', os) :=
    .of_unseen (hg.of_same hs' (Nat.le_add_right _ _)) hos
  simp only [Lc.probeTick]
  generalize hs' : (if s.sel.currentMcs ≠ s.probeGateMcs then _ else s : Lc) = s'
  have hsame : SameEncoder s s' := by
    subst hs'
    split <;> exact ⟨rfl, rfl, rfl, rfl⟩
  split
  · split
    · exact hquiet _ _ hsame (List.forall_mem_nil _)
    · split
      all_goals
        exact hquiet _ _ (hsame.trans ⟨rfl, rfl, rfl, rfl⟩)
          (unseen_one ⟨fun _ => rfl, fun _ _ _ => rfl⟩)
  · exact hquiet _ _ hsame (List.forall_mem_nil _)

/-- The pending tick: what it sends is guarded, what it keeps stays so. -/
theorem pendingTick_safe {s : Lc} {g : DropHist} (hg : AllGuarded s g s.clock) (dt : ℕ)
    (reply : SetReply) :
    Safe s.cfg s.air g (s.clock + dt) (s.pendingTick (s.clock + dt) reply) := by
  have hclock : s.clock ≤ s.clock + dt := Nat.le_add_right _ _
  cases hdue : s.dropDue (s.clock + dt)
  · rw [pendingTick_idle hdue]
    exact .of_unseen (hg.of_same ⟨rfl, rfl, rfl, rfl⟩ hclock) fun _ ho => nomatch ho
  · obtain ⟨p, hp, hle⟩ := Option.any_eq_true _ _ |>.mp hdue
    have hle : p.deadlineUs ≤ s.clock + dt := of_decide_eq_true hle
    obtain ⟨d, t, h⟩ := hg p hp
    rw [pendingTick_due hp hle]
    refine ⟨?_, fun p' hp' => ?_⟩
    · rw [List.all_cons, List.all_nil, Bool.and_true]
      cases reply <;> first | rfl | skip
      show (_ || _ || g.inOrder s.cfg p.pendingRadio.mcs (s.clock + dt)) = true
      rw [h.inOrder hle, Bool.or_true]
    · rw [Lc.dropSent] at hp'
      dsimp only at hp'
      split at hp'
      · cases hp'
      case isFalse hr =>
        -- not acknowledged: retried later
        obtain rfl := Option.some.inj hp'
        have hr' := h.retry (hle.trans (Nat.le_add_right _ 100000))
        rw [Lc.dropSent]
        rw [if_neg hr]
        exact ⟨d, t, hr'.preDrop, hr'.target, hr'.mcs, hr'.lead, hr'.body, hr'.mirror,
          hr'.held.imp_left (·.trans hclock), hr'.real⟩

/-- An operator's command while no drop is queued. -/
theorem configures_safe {s : Lc} {g : DropHist} {e : Event} (he : e.configures = true)
    (hp : s.pending = none) (air : RadioBody) (clock : ℕ) : Safe s.cfg air g clock (s.handle e) := by
  refine ⟨List.all_eq_true.mpr fun o ho => ?_, ?_⟩
  · have hemits := handle_emits s e o ho
    cases e <;> cases he
    all_goals cases o <;> first | rfl | cases hemits | skip
    all_goals
      rename_i who _ acked
      cases who <;> cases hemits
      cases acked <;> rfl
  · have hnone : (s.handle e).1.pending = none := by
      cases e with
      | httpSet qs => exact hp
      | httpCmd dt key value io =>
          simp only [Lc.handle, Lc.httpCmd]
          split <;> exact hp
      | wcmd dt dt₁ dt₂ req loop io =>
          simp only [Lc.handle, Lc.wcmdFrame, Lc.adoptOutstanding, Lc.adoptWritten]
          split
          · exact hp
          · split
            · exact hp
            · dsimp only
              split <;> exact congrArg (Option.map _) hp
      | _ => cases he
    intro p hsome
    rw [hnone] at hsome
    cases hsome

/-- Every event keeps the order and the guard. -/
theorem handle_safe {s : Lc} {g : DropHist} {e : Event} (h : DropInv s g)
    (hset : s.setting e = true) (hk : KeepsOrder (s, g) e = true) :
    Safe s.cfg s.air g (s.clock + e.elapsed) (s.handle e) := by
  simp only [Lc.setting, Bool.and_eq_true, Bool.not_eq_true', Bool.or_eq_true,
    decide_eq_true_eq] at hset
  obtain ⟨⟨⟨⟨hd, -⟩, hvenc⟩, hcommit⟩, hoperator⟩ := hset
  obtain ⟨hlow, hlevel⟩ := Bool.and_eq_true _ _ ▸ hk
  have hg := h.guarded
  have hlevel' (s' : Lc) (now : ℕ) (hs' : s.committing e = some (s', now)) :
      s.Budgets ∧ s'.commitsLevel s'.sel.currentMcs now g.real = true := by
    obtain ⟨⟨hon, hv⟩, hcur⟩ := hcommit.resolve_left (by simp [hs'])
    exact ⟨⟨hd, h.inRange, hon, hv, hcur, h.mirror⟩, by simpa [hs'] using hlevel⟩
  have hquiet (s' : Lc) (os : List Obs) (hs' : SameEncoder s s') (hos : ∀ o ∈ os, Unseen o) :
      Safe s.cfg s.air g (s.clock + e.elapsed) (s', os) :=
    .of_unseen (hg.of_same hs' (Nat.le_add_right _ _)) hos
  have hop (he : e.configures = true) : Safe s.cfg s.air g (s.clock + e.elapsed) (s.handle e) := by
    refine configures_safe he ?_ _ _
    rcases hoperator with hp | hn
    · exact Option.isNone_iff_eq_none.mp hp
    · rw [he] at hn
      cases hn
  cases e with
  | pendingTick dt reply => exact pendingTick_safe hg dt reply
  | watchdog dt io => exact watchdog_safe hd h.inRange hg hvenc hlevel'
  | rxAnt dt dt₁ dt₂ r io =>
      have hsafe := rxAnt_safe hd h.inRange h.rung hg hvenc hlevel'
      exact hsafe.of_same ⟨rfl, rfl, rfl, rfl⟩ (by simp only [Event.elapsed]; omega)
  | radioPoll dt getRadio venc => exact radioPoll_safe hd h.inRange hg hlow rfl hvenc _
  | txStats dt dt₁ d venc =>
      have hsafe := txStats_safe hd h.inRange hg hlow rfl hvenc s.air
      exact hsafe.of_same ⟨rfl, rfl, rfl, rfl⟩ (by simp only [Event.elapsed]; omega)
  | sidecar dt dt₁ d setFec venc =>
      have hsafe := sidecar_safe hd h.inRange hg hlow rfl hvenc s.air
      exact hsafe.of_same ⟨rfl, rfl, rfl, rfl⟩ (by simp only [Event.elapsed]; omega)
  | httpSet | httpCmd | wcmd => exact hop rfl
  | probeTick dt acked => exact probeTick_safe hg dt acked
  | subscribe dt =>
      simp only [Lc.handle, Lc.subscribe]
      split
      · exact hquiet _ _ ⟨rfl, rfl, rfl, rfl⟩ (unseen_one ⟨fun _ => rfl, fun _ _ _ => rfl⟩)
      · exact hquiet _ _ ⟨rfl, rfl, rfl, rfl⟩ (List.forall_mem_nil _)
  | stale dt =>
      simp only [Lc.handle, Lc.stale]
      split <;> exact hquiet _ _ ⟨rfl, rfl, rfl, rfl⟩ (List.forall_mem_nil _)
  | probeRec dt r =>
      simp only [Lc.handle, Lc.probeRec]
      split <;> exact hquiet _ _ ⟨rfl, rfl, rfl, rfl⟩ (List.forall_mem_nil _)
  | external air => exact hquiet _ _ ⟨rfl, rfl, rfl, rfl⟩ (List.forall_mem_nil _)

theorem step_ordered {s : Lc} {g : DropHist} {e : Event} (h : DropInv s g)
    (hset : s.setting e = true) (hk : KeepsOrder (s, g) e = true) :
    Ordered (s, g) e = true ∧
      DropInv (machine.step s e).1 (dropMonitor.after g (machine.step s e).2) := by
  have hsafe := handle_safe h hset hk
  have hd : s.cfg.dryRun = false := by
    simp only [Lc.setting, Bool.and_eq_true, Bool.not_eq_true'] at hset
    exact hset.1.1.1.1
  refine ⟨hsafe.inOrder, handle_inRange h.inRange e, handle_rung h.inRange h.rung e,
    (handle_mirror hd h.inRange e).ne_zero h.mirror, ?_⟩
  exact AllGuarded.of_same hsafe.guarded ⟨rfl, rfl, rfl, rfl⟩ le_rfl

theorem Boot.dropInv (b : Boot) (g : DropHist) : DropInv b.init g where
  inRange := b.init_inRange
  rung := b.init_rung
  mirror := by
    rw [b.init_mirror]
    decide
  guarded := by
    have hnone : b.init.pending = none := by
      rw [Boot.init]
      dsimp only
      split <;> rfl
    intro p hp
    rw [hnone] at hp
    cases hp

/-- In every run of the setting that keeps the order, each acknowledged drop of the law comes
a lead after its pre-drop assert, and finds the encoder within the bound of its target: over
any retries, further drops, datagrams and frames. -/
theorem ordered_drop (b : Boot) (es : List Event)
    (hset : machine.Meets (fun s e => s.setting e = true) b.init es)
    (hk : (machine.watch dropMonitor).Meets (fun sg e => KeepsOrder sg e = true)
      (b.init, dropMonitor.after {} b.obs) es) :
    (machine.watch dropMonitor).Meets (fun sg e => Ordered sg e = true)
      (b.init, dropMonitor.after {} b.obs) es := by
  rw [← machine.watch_meets dropMonitor _ b.init (dropMonitor.after {} b.obs)] at hset
  have hstep (sg : Lc × DropHist) (e : Event) (h : DropInv sg.1 sg.2)
      (hok : sg.1.setting e = true ∧ KeepsOrder sg e = true) :
      Ordered sg e = true ∧
        DropInv ((machine.watch dropMonitor).step sg e).1.1
          ((machine.watch dropMonitor).step sg e).1.2 :=
    step_ordered h hok.1 hok.2
  exact Machine.Meets.of_inv hstep (b.dropInv _) (Machine.Meets.and.mpr ⟨hset, hk⟩)

/-- A run that drops from MCS 3 to 0, at the first attempt. -/
theorem ordered_drop_first :
    (machine.watch dropMonitor).Meets (fun sg e => Ordered sg e = true)
      ((Boot.withDefaults { bandwidth := 20, mcsIndex := 3 }).init,
        dropMonitor.after {} (Boot.withDefaults { bandwidth := 20, mcsIndex := 3 }).obs)
      (loopRun [
        { dt := 1000, served := [.httpSet [("fec.startup_grace_s", .float 0)],
            .sidecar 0 0 (.sized 1000000 12000) true true] },
        { dt := 1000, served := [.rxAnt 0 0 0 RxAnt.clean {}] },
        { dt := 600000 }]) :=
  ordered_drop (.withDefaults { bandwidth := 20, mcsIndex := 3 }) _ (by decide +kernel)
    (by decide +kernel)

/-- A drop whose SET_RADIO is refused until the up-lock is over, and then acknowledged. -/
def refusedDrop : List Iter :=
  [{ dt := 1000, served := [.httpSet [("fec.startup_grace_s", .float 0),
        ("mcs.failsafe_timeout_s", .float 30)], .sidecar 0 0 (.sized 1000000 12000) true true] },
    { dt := 1000, served := [.rxAnt 0 0 0 RxAnt.clean {}] }] ++
  List.replicate 12 { dt := 500000, pending := .refused } ++ [{ dt := 500000 }]

/-- The poll past the end of the up-lock raises the bitrate for the MCS still on air, and the
next attempt of the drop is acknowledged. -/
theorem ordered_drop_broken :
    ¬∀ (b : Boot) (is : List Iter),
      machine.Meets (fun s e => s.setting e = true) b.init (loopRun is) →
      (machine.watch dropMonitor).Meets (fun sg e => Ordered sg e = true)
        (b.init, dropMonitor.after {} b.obs) (loopRun is) := fun h =>
  absurd
    (h (.withDefaults { bandwidth := 20, mcsIndex := 3 }) refusedDrop (by decide +kernel))
    (by decide +kernel)

end Waybeam.Vehicle
