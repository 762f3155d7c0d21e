/-
# `Waybeam.Csa.Session` — cooldown between hops, and what one session can do

Two facts hold of the agent in every run.

The cooldown is tested when a frame arrives, the hop comes later; between the two the agent
is ARMED, and no hop can happen then.  So the distance the frame had from the last hop is a
lower bound for the switch's (`Spaced`, `cooldown_respected`).

An armed session is carried unchanged to its end: no frame and no heartbeat touches it
except by ending it or by arming a newer one, it switches at most once, and it reverts at
most once, after its switch, no sooner than its revert time, and only when nothing was heard
in between (`Carries`, `session_kept`).
-/
import Waybeam.Csa.Agent

namespace Waybeam.Csa

open Text

/-! ## Cooldown -/

instance (a : Agent) (e : Event) : Decidable (Monotone a e) :=
  inferInstanceAs (Decidable (_ ≤ _))

/-- Switches keep their distance from the hop before, a switch or a revert. -/
def apart (cooldown : ℤ) : Monitor Obs (Option ℤ) where
  upd g
    | .switched _ _ now => some now
    | .reverted _ _ now => some now
    | _ => g
  ok g
    | .switched _ _ now => g.all (· + cooldown ≤ now)
    | _ => true

theorem apart_switched {cooldown : ℤ} {last : Option ℤ} {now : ℤ}
    (h : ∀ t ∈ last, t + cooldown ≤ now) (chan : ℤ) (ht : Bytes) :
    (apart cooldown).ok last (.switched chan ht now) := by
  cases last with
  | none => rfl
  | some t => simpa [apart] using h t rfl

/-- The agent knows when its last hop was, and is ARMED only when that is long ago. -/
structure Spaced (cfg : CsaCfg) (a : Agent) (last : Option ℤ) : Prop where
  clock : 0 ≤ a.clock
  known : ∀ t ∈ last, a.csa.lastSwitchMs = t ∧ 0 ≤ t ∧ t ≤ a.clock
  armed : a.csa.st = .armed → ∀ t ∈ last, t + cfg.cooldownMs ≤ a.clock

/-- After a hop the agent is not ARMED. -/
theorem Spaced.hop {cfg : CsaCfg} {s : CsaState} {now : ℤ} (h0 : 0 ≤ now)
    (hst : s.st ≠ .armed) (hlast : s.lastSwitchMs = now) : Spaced cfg ⟨s, now⟩ (some now) where
  clock := h0
  known t ht := by
    cases ht
    exact ⟨hlast, h0, le_rfl⟩
  armed ha := absurd ha hst

/-- Time passes, and the agent's session goes on or ends. -/
theorem Spaced.later {cfg : CsaCfg} {a : Agent} {last : Option ℤ} (h : Spaced cfg a last)
    {s : CsaState} {now : ℤ} (hnow : a.clock ≤ now) (hlast : s.lastSwitchMs = a.csa.lastSwitchMs)
    (hst : s.st = .armed → a.csa.st = .armed) : Spaced cfg ⟨s, now⟩ last where
  clock := h.clock.trans hnow
  known t ht := by
    obtain ⟨heq, h0, hle⟩ := h.known t ht
    exact ⟨hlast.trans heq, h0, hle.trans hnow⟩
  armed ha t ht := (h.armed (hst ha) t ht).trans hnow

/-- A session that is not refused is a cooldown away from the last hop. -/
theorem le_of_not_cooling {cfg : CsaCfg} (hcool : 0 < cfg.cooldownMs) {s : CsaState} {now t : ℤ}
    (hc : s.cooling cfg now = false) (hlast : s.lastSwitchMs = t) (h0 : 0 ≤ t) :
    t + cfg.cooldownMs ≤ now := by
  simp only [CsaState.cooling, Bool.and_eq_false_iff, decide_eq_false_iff_not] at hc
  omega

/-- One call keeps the distance. -/
theorem step_spaced {cfg : CsaCfg} (hcool : 0 < cfg.cooldownMs) (a : Agent) (last : Option ℤ)
    (e : Event) (h : Spaced cfg a last) (hmono : Monotone a e) :
    (apart cfg.cooldownMs).wp last ((machine cfg).step a e) (Spaced cfg) := by
  have hmove := step_moves cfg a e
  have hclock : ((machine cfg).step a e).1 = ⟨((machine cfg).step a e).1.csa, e.now⟩ := rfl
  have h0 : 0 ≤ e.now := h.clock.trans hmono
  rw [Monitor.wp, hclock]
  generalize ((machine cfg).step a e).1.csa = s' at hmove ⊢
  generalize ((machine cfg).step a e).2 = os at hmove ⊢
  cases hmove with
  | rest => exact ⟨trivial, h.later hmono rfl id⟩
  | commit => exact ⟨⟨rfl, trivial⟩, h.later hmono rfl id⟩
  | alive => exact ⟨⟨rfl, trivial⟩, h.later hmono rfl id⟩
  | heardCommit => exact ⟨⟨rfl, trivial⟩, h.later hmono rfl fun ha => nomatch ha⟩
  | heard => exact ⟨⟨rfl, trivial⟩, h.later hmono rfl fun ha => nomatch ha⟩
  | arm f _ _ _ hc =>
      refine ⟨⟨rfl, rfl, trivial⟩, h0, fun t ht => ?_, fun _ t ht => ?_⟩
      · obtain ⟨heq, ht0, hle⟩ := h.known t ht
        exact ⟨heq, ht0, hle.trans hmono⟩
      · obtain ⟨heq, ht0, -⟩ := h.known t ht
        exact le_of_not_cooling hcool hc heq ht0
  | switch _ hst _ _ =>
      have hfar : ∀ t ∈ last, t + cfg.cooldownMs ≤ e.now :=
        fun t ht => (h.armed hst t ht).trans hmono
      exact ⟨⟨apart_switched hfar _ _, trivial⟩, .hop h0 (fun ha => nomatch ha) rfl⟩
  | stay _ hst _ _ =>
      have hfar : ∀ t ∈ last, t + cfg.cooldownMs ≤ e.now :=
        fun t ht => (h.armed hst t ht).trans hmono
      exact ⟨⟨apart_switched hfar _ _, trivial⟩, .hop h0 (fun ha => nomatch ha) rfl⟩
  | revert => exact ⟨⟨rfl, trivial⟩, .hop h0 (fun ha => nomatch ha) rfl⟩

/-- Every switch comes at least a cooldown after the hop before it. -/
theorem cooldown_respected (cfg : CsaCfg) (hcool : 0 < cfg.cooldownMs) (es : List Event)
    (hmono : (machine cfg).Meets Monotone {} es) :
    (apart cfg.cooldownMs).Accepts none ((machine cfg).trace {} es) := by
  have hinit : Spaced cfg {} none := ⟨le_rfl, fun t ht => (nomatch ht), fun _ t ht => (nomatch ht)⟩
  exact (Machine.run_wp (step_spaced hcool) hinit hmono).1

/-- Two sessions: the first switches and goes back, the second is refused, then armed. -/
def twoSessions : List Event :=
  [⟨1000, .feed (sampleFrame 7)⟩, ⟨1500, .tick⟩, ⟨4500, .tick⟩, ⟨5000, .feed (sampleFrame 8)⟩,
    ⟨6500, .feed (sampleFrame 8)⟩, ⟨7000, .tick⟩, ⟨7100, .linkAlive⟩]

theorem cooldown_respected_two :
    (apart 2000).Accepts none ((machine {}).trace {} twoSessions) :=
  cooldown_respected {} (by decide) twoSessions (by decide +kernel)

/-! ## Sessions -/

/-- A session as it was armed, and what has become of it. -/
structure Session where
  frame : Commit
  since : ℤ
  switchedAt : Option ℤ := none
  heard : Bool := false
  reverted : Bool := false

namespace Session

/-- Something that confirms the link arrived; it counts after the switch. -/
def hear (x : Session) : Session := { x with heard := x.heard || x.switchedAt.isSome }

/-- The one switch of the session: to its target, at T_switch or later. -/
def maySwitch (x : Session) (chan : ℤ) (ht : Bytes) (now : ℤ) : Prop :=
  x.switchedAt = none ∧ chan = x.frame.targetChan ∧ ht = x.frame.targetHt ∧
    x.since + x.frame.dt ≤ now

/-- The one revert: back to where the frame says, after a silent revert time. -/
def mayRevert (x : Session) (chan : ℤ) (ht : Bytes) (now : ℤ) : Prop :=
  x.reverted = false ∧ x.heard = false ∧ chan = i32 x.frame.prevChan ∧ ht = x.frame.prevHt ∧
    ∃ t ∈ x.switchedAt, t + x.frame.tRevert ≤ now

instance (x : Session) (chan : ℤ) (ht : Bytes) (now : ℤ) : Decidable (x.maySwitch chan ht now) :=
  inferInstanceAs (Decidable (_ ∧ _))

instance (x : Session) (chan : ℤ) (ht : Bytes) (now : ℤ) : Decidable (x.mayRevert chan ht now) :=
  inferInstanceAs (Decidable (_ ∧ _ ∧ _ ∧ _ ∧ ∃ t ∈ x.switchedAt, _))

end Session

/-- The session armed last, and the hops it may make. -/
def lifetime : Monitor Obs (Option Session) where
  upd g
    | .armed f now => some { frame := f, since := now }
    | .commit f => g.map fun x => if f.sess = x.frame.sess then x.hear else x
    | .linkAlive => g.map Session.hear
    | .switched _ _ now => g.map fun x => { x with switchedAt := some now }
    | .reverted .. => g.map fun x => { x with reverted := true }
  ok g
    | .switched chan ht now => g.any (·.maySwitch chan ht now)
    | .reverted chan ht now => g.any (·.mayRevert chan ht now)
    | _ => true

/-- The state holds the session as its frame had it. -/
structure Holds (s : CsaState) (x : Session) : Prop where
  sess : s.sess = x.frame.sess
  targetChan : s.targetChan = x.frame.targetChan
  targetHt : s.targetHt = x.frame.targetHt
  prevChan : s.prevChan = i32 x.frame.prevChan
  prevHt : s.prevHt = x.frame.prevHt
  heard : x.heard = false
  reverted : x.reverted = false

/-- What an agent that is not idle knows of its session. -/
inductive Carries (s : CsaState) : Option Session → Prop
  | idle {g : Option Session} (h : s.st = .idle) : Carries s g
  | armed {x : Session} (h : s.st = .armed) (hx : Holds s x) (hs : x.switchedAt = none)
      (ht : s.tSwitchMs = x.since + x.frame.dt) (hr : s.tRevertMs = x.frame.tRevert) :
      Carries s (some x)
  | verify {x : Session} {t : ℤ} (h : s.st = .verify) (hx : Holds s x)
      (hs : x.switchedAt = some t) (hr : s.tRevertMs = t + x.frame.tRevert) :
      Carries s (some x)

/-- The deadlines of a frame, and of the switch it leads to, are in range. -/
def NoOverflow (a : Agent) (e : Event) : Prop :=
  (∀ f ∈ e.call.frame, InI64 (e.now + f.dt)) ∧
    (e.call = .tick → a.csa.st = .armed → InI64 (e.now + a.csa.tRevertMs))

instance (a : Agent) (e : Event) : Decidable (NoOverflow a e) :=
  inferInstanceAs (Decidable ((∀ f ∈ e.call.frame, _) ∧ _))

/-- What confirms the link before the switch changes nothing. -/
theorem Session.hear_of_ahead {x : Session} (hs : x.switchedAt = none) (hh : x.heard = false) :
    x.hear = x := by
  obtain ⟨f, since, at', heard, reverted⟩ := x
  simp only at hs hh
  subst hs hh
  rfl

/-- A commit frame that is not its session's own leaves the session as it is. -/
theorem Carries.commit {s : CsaState} {g : Option Session} (h : Carries s g) {f : Commit}
    (hf : s.st = .verify → f.sess ≠ s.sess) : Carries s (lifetime.upd g (.commit f)) := by
  cases h with
  | idle hst => exact .idle hst
  | @armed x hst hx hs ht hr =>
      have hkept : (if f.sess = x.frame.sess then x.hear else x) = x := by
        rw [x.hear_of_ahead hs hx.heard, ite_self]
      show Carries s (some (if f.sess = x.frame.sess then x.hear else x))
      rw [hkept]
      exact .armed hst hx hs ht hr
  | @verify x t hst hx hs hr =>
      have hkept : (if f.sess = x.frame.sess then x.hear else x) = x :=
        if_neg (hx.sess ▸ hf hst)
      show Carries s (some (if f.sess = x.frame.sess then x.hear else x))
      rw [hkept]
      exact .verify hst hx hs hr

/-- Traffic on the old channel is no news to an armed session. -/
theorem Carries.alive {s : CsaState} {g : Option Session} (h : Carries s g)
    (hst : s.st ≠ .verify) : Carries s (lifetime.upd g .linkAlive) := by
  cases h with
  | idle hi => exact .idle hi
  | @armed x ha hx hs ht hr =>
      show Carries s (some x.hear)
      rw [x.hear_of_ahead hs hx.heard]
      exact .armed ha hx hs ht hr
  | verify hv => exact absurd hv hst

/-- A switch is the session's first, and leads into VERIFY or ends the session. -/
theorem Carries.switched {s : CsaState} {g : Option Session} (h : Carries s g)
    (hst : s.st = .armed) {now : ℤ} (hdue : s.tSwitchMs ≤ now) :
    lifetime.ok g (.switched s.targetChan s.targetHt now) := by
  cases h with
  | idle hi => exact nomatch hi.symm.trans hst
  | verify hv => exact nomatch hv.symm.trans hst
  | @armed x _ hx hs ht =>
      have hmay : x.maySwitch s.targetChan s.targetHt now :=
        ⟨hs, hx.targetChan, hx.targetHt, ht ▸ hdue⟩
      simpa [lifetime] using hmay

/-- A revert is the session's first, after its switch and a silence of its revert time. -/
theorem Carries.reverted {s : CsaState} {g : Option Session} (h : Carries s g)
    (hst : s.st = .verify) {now : ℤ} (hdue : s.tRevertMs ≤ now) :
    lifetime.ok g (.reverted s.prevChan s.prevHt now) := by
  cases h with
  | idle hi => exact nomatch hi.symm.trans hst
  | armed ha => exact nomatch ha.symm.trans hst
  | @verify x t _ hx hs hr =>
      have hmay : x.mayRevert s.prevChan s.prevHt now :=
        ⟨hx.reverted, hx.heard, hx.prevChan, hx.prevHt, t, hs, hr ▸ hdue⟩
      simpa [lifetime] using hmay

/-- Into VERIFY: the revert time becomes a deadline. -/
theorem Carries.verifying {s : CsaState} {g : Option Session} (h : Carries s g)
    (hst : s.st = .armed) {now : ℤ} (hov : InI64 (now + s.tRevertMs)) (chan : ℤ) (ht : Bytes) :
    Carries { s with st := .verify, tRevertMs := i64 (now + s.tRevertMs), lastSwitchMs := now }
      (lifetime.upd g (.switched chan ht now)) := by
  cases h with
  | idle hi => exact nomatch hi.symm.trans hst
  | verify hv => exact nomatch hv.symm.trans hst
  | @armed x _ hx hs ht hr =>
      have hrev : i64 (now + s.tRevertMs) = now + x.frame.tRevert := by
        rw [i64_of_inI64 hov, hr]
      exact .verify rfl ⟨hx.sess, hx.targetChan, hx.targetHt, hx.prevChan, hx.prevHt, hx.heard,
        hx.reverted⟩ rfl hrev

/-- One call makes only the hops the session allows, and carries it on. -/
theorem step_carries (cfg : CsaCfg) (a : Agent) (g : Option Session) (e : Event)
    (h : Carries a.csa g) (hov : NoOverflow a e) :
    lifetime.wp g ((machine cfg).step a e) fun a g => Carries a.csa g := by
  have hmove := step_moves cfg a e
  rw [Monitor.wp]
  generalize ((machine cfg).step a e).1 = a' at hmove ⊢
  generalize ((machine cfg).step a e).2 = os at hmove ⊢
  generalize a'.csa = s' at hmove ⊢
  cases hmove with
  | rest => exact ⟨trivial, h⟩
  | commit f hf _ hs => exact ⟨⟨rfl, trivial⟩, h.commit hs⟩
  | alive hst => exact ⟨⟨rfl, trivial⟩, h.alive hst⟩
  | heardCommit => exact ⟨⟨rfl, trivial⟩, .idle rfl⟩
  | heard => exact ⟨⟨rfl, trivial⟩, .idle rfl⟩
  | arm f hf =>
      have hsw : i64 (e.now + f.dt) = e.now + f.dt := i64_of_inI64 (hov.1 f hf)
      have hholds : Holds (a.csa.arm f e.now) { frame := f, since := e.now } :=
        ⟨rfl, rfl, rfl, rfl, rfl, rfl, rfl⟩
      exact ⟨⟨rfl, rfl, trivial⟩, .armed rfl hholds rfl hsw rfl⟩
  | switch he hst hdue _ =>
      exact ⟨⟨h.switched hst hdue, trivial⟩, h.verifying hst (hov.2 he hst) _ _⟩
  | stay _ hst hdue _ => exact ⟨⟨h.switched hst hdue, trivial⟩, .idle rfl⟩
  | revert _ hst hdue => exact ⟨⟨h.reverted hst hdue, trivial⟩, .idle rfl⟩

/-- No frame and no heartbeat touches an armed session, except by ending it or by arming a
newer one. -/
def Untouched (cfg : CsaCfg) (a : Agent) (e : Event) : Prop :=
  a.csa.st ≠ .idle → e.call ≠ .tick →
    ((machine cfg).step a e).1.csa = a.csa ∨ ((machine cfg).step a e).1.csa.st = .idle ∨
      ∃ f, .armed f e.now ∈ ((machine cfg).step a e).2 ∧ a.csa.sess < f.sess

theorem step_untouched (cfg : CsaCfg) (a : Agent) (e : Event) : Untouched cfg a e := by
  intro hup hcall
  have hmove := step_moves cfg a e
  generalize ((machine cfg).step a e).1.csa = s' at hmove ⊢
  generalize ((machine cfg).step a e).2 = os at hmove ⊢
  cases hmove with
  | rest => exact .inl rfl
  | commit => exact .inl rfl
  | alive => exact .inl rfl
  | heardCommit => exact .inr (.inl rfl)
  | heard => exact .inr (.inl rfl)
  | arm f _ _ hst => exact .inr (.inr ⟨f, by simp, hst.resolve_left hup⟩)
  | switch he => exact absurd he hcall
  | stay he => exact absurd he hcall
  | revert he => exact absurd he hcall

/-- In every run without overflow an armed session stays as its frame had it, switches at
most once, and reverts at most once, after its switch and a silent revert time. -/
theorem session_kept (cfg : CsaCfg) (es : List Event)
    (hov : (machine cfg).Meets NoOverflow {} es) :
    (machine cfg).Meets (Untouched cfg) {} es ∧
      lifetime.Accepts none ((machine cfg).trace {} es) := by
  have hinit : Carries ({} : Agent).csa none := .idle rfl
  exact ⟨Machine.Meets.of_forall (step_untouched cfg),
    (Machine.run_wp (step_carries cfg) hinit hov).1⟩

theorem session_kept_two :
    (machine {}).Meets (Untouched {}) {} twoSessions ∧
      lifetime.Accepts none ((machine {}).trace {} twoSessions) :=
  session_kept {} twoSessions (by decide +kernel)

end Waybeam.Csa
