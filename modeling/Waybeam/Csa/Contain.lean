/-
# `Waybeam.Csa.Contain` — where the agent can be sent

The guards are there so that a forged frame cannot send the radio off the channels and
widths it is allowed on.  They look at the target.  The frame carries a second pair, the one
the agent goes back to when nothing is heard, and two numbers that are added to the clock;
those are used as they come.

    target pair      range and allowlists, on arrival
    previous pair    unchecked, cut to an `int`
    dt, t_revert     added to the clock, unchecked

So the agent is contained exactly in the runs in which no armed frame overflows the clock and
no session comes to its revert with a pair its own guards would refuse.
-/
import Waybeam.Csa.Agent

namespace Waybeam.Csa

open Text

/-- A pair the configuration lets the radio be on. -/
def CsaCfg.Contains (cfg : CsaCfg) (chan : ℤ) (ht : Bytes) : Prop :=
  (1 ≤ chan ∧ chan ≤ 200) ∧ (cfg.allowChan ≠ [] → chan ∈ cfg.allowChan) ∧
    (cfg.allowBw ≠ [] → ht ∈ cfg.allowBw)

instance (cfg : CsaCfg) (chan : ℤ) (ht : Bytes) : Decidable (cfg.Contains chan ht) :=
  inferInstanceAs (Decidable (_ ∧ _ ∧ _))

/-- The guards let a frame pass iff its target is contained. -/
theorem admits_iff (cfg : CsaCfg) (f : Commit) :
    cfg.admits f ↔ cfg.Contains f.targetChan f.targetHt := by
  simp only [CsaCfg.admits, CsaCfg.chanOk, CsaCfg.bwOk, CsaCfg.Contains, Bool.and_eq_true,
    Bool.or_eq_true, decide_eq_true_eq, List.isEmpty_iff, List.contains_iff_mem, and_assoc, ne_eq,
    or_iff_not_imp_left]

/-- The deadline a frame sets lies ahead of it. -/
def Ahead (now dt : ℤ) : Prop := InI64 (now + dt) ∧ (0 < dt → now < i64 (now + dt))

instance (now dt : ℤ) : Decidable (Ahead now dt) := inferInstanceAs (Decidable (_ ∧ _))

theorem ahead_iff (now dt : ℤ) : Ahead now dt ↔ InI64 (now + dt) := by
  constructor
  · intro h
    exact h.1
  · intro h
    refine ⟨h, fun hdt => ?_⟩
    rw [i64_of_inI64 h]
    omega

/-- Every hop goes where the configuration allows, and no deadline overflows.  The history is
the frame armed last: its revert time is due when the switch sets the second deadline. -/
def contained (cfg : CsaCfg) : Monitor Obs (Option Commit) where
  upd g
    | .armed f _ => some f
    | _ => g
  ok g
    | .armed f now => Ahead now f.dt
    | .switched chan ht now =>
        cfg.Contains chan ht ∧ (cfg.noRevert = false → ∀ f ∈ g, Ahead now f.tRevert)
    | .reverted chan ht _ => cfg.Contains chan ht
    | _ => true

/-- An armed frame does not overflow the clock, at a switch the revert time does not, and
a session that comes to its revert deadline names a pair the guards would let pass. -/
structure Confined (cfg : CsaCfg) (a : Agent) (e : Event) : Prop where
  armed : ∀ f ∈ e.call.frame, a.csa.Arms cfg f e.now → InI64 (e.now + f.dt)
  switched : e.call = .tick → a.csa.st = .armed → a.csa.tSwitchMs ≤ e.now →
    cfg.noRevert = false → InI64 (e.now + a.csa.tRevertMs)
  reverted : e.call = .tick → a.csa.st = .verify → a.csa.tRevertMs ≤ e.now →
    cfg.Contains a.csa.prevChan a.csa.prevHt

/-- While a session is ARMED its target is contained and its revert time is the frame's. -/
def Targeted (cfg : CsaCfg) (s : CsaState) (g : Option Commit) : Prop :=
  s.st = .armed → cfg.Contains s.targetChan s.targetHt ∧ ∃ f, g = some f ∧ s.tRevertMs = f.tRevert

theorem Targeted.of_ne {cfg : CsaCfg} {s : CsaState} {g : Option Commit} (h : s.st ≠ .armed) :
    Targeted cfg s g := fun ha => absurd ha h

theorem Moves.targeted {cfg : CsaCfg} {s s' : CsaState} {e : Event} {os : List Obs}
    {g : Option Commit} (h : Moves cfg s e s' os) (hg : Targeted cfg s g) :
    Targeted cfg s' ((contained cfg).after g os) := by
  cases h with
  | rest => exact hg
  | commit => exact hg
  | alive => exact hg
  | heardCommit => exact .of_ne fun ha => nomatch ha
  | heard => exact .of_ne fun ha => nomatch ha
  | switch => exact .of_ne fun ha => nomatch ha
  | stay => exact .of_ne fun ha => nomatch ha
  | revert => exact .of_ne fun ha => nomatch ha
  | arm f _ ha => exact fun _ => ⟨(admits_iff cfg f).mp ha, f, rfl, rfl⟩

theorem onCommit_contained_iff (cfg : CsaCfg) (s : CsaState) (g : Option Commit) (f : Commit)
    (now : ℤ) :
    (contained cfg).Accepts g (s.onCommit cfg f now).2 ↔
      (s.Arms cfg f now → InI64 (now + f.dt)) := by
  rw [CsaState.onCommit, CsaState.Arms]
  cases ha : cfg.admits f with
  | false => simp
  | true =>
      simp only [Bool.not_true, Bool.false_eq_true, if_false, true_and]
      split
      · next h => simp [contained, h]
      · next hown =>
          split
          · next h =>
              cases hc : s.cooling cfg now with
              | true => simp [contained]
              | false => simp [contained, hown, h, ahead_iff]
          · next h => simp [contained, h]

theorem csaTick_contained_iff (cfg : CsaCfg) {s : CsaState} {g : Option Commit}
    (hg : Targeted cfg s g) (now : ℤ) :
    (contained cfg).Accepts g (s.csaTick cfg now).2 ↔
      (s.st = .armed → s.tSwitchMs ≤ now → cfg.noRevert = false → InI64 (now + s.tRevertMs)) ∧
        (s.st = .verify → s.tRevertMs ≤ now → cfg.Contains s.prevChan s.prevHt) := by
  rw [CsaState.csaTick]
  cases hst : s.st with
  | idle => simp
  | armed =>
      obtain ⟨hin, f, rfl, hrev⟩ := hg hst
      dsimp only
      split
      · next ht =>
          cases hn : cfg.noRevert with
          | true => simp [contained, hin, hn]
          | false => simp [contained, hin, hn, ht, hrev, ahead_iff]
      · next ht => simp [ht]
  | verify =>
      dsimp only
      split
      · next ht => simp [contained, ht]
      · next ht => simp [ht]

/-- One call stays contained iff it meets the condition. -/
theorem step_contained_iff (cfg : CsaCfg) (a : Agent) (g : Option Commit) (e : Event)
    (hg : Targeted cfg a.csa g) :
    (contained cfg).Accepts g ((machine cfg).step a e).2 ↔ Confined cfg a e := by
  obtain ⟨now, call⟩ := e
  cases call with
  | linkAlive =>
      have hacc : (contained cfg).Accepts g a.csa.csaLinkAlive.2 := by
        rw [CsaState.csaLinkAlive]
        cases a.csa.st <;> exact ⟨rfl, trivial⟩
      refine iff_of_true hacc ⟨fun f hf => ?_, fun he => ?_, fun he => ?_⟩
      · cases hf
      · cases he
      · cases he
  | tick =>
      refine (csaTick_contained_iff cfg hg now).trans ⟨fun h => ?_, fun h => ?_⟩
      · refine ⟨fun f hf => ?_, fun _ => h.1, fun _ => h.2⟩
        cases hf
      · exact ⟨h.switched rfl, h.reverted rfl⟩
  | feed buf =>
      show (contained cfg).Accepts g (a.csa.csaFeed cfg buf now).2.2 ↔ _
      rw [csaFeed_eq]
      have hiff : Confined cfg a ⟨now, .feed buf⟩ ↔
          ∀ f ∈ frameOf buf, a.csa.Arms cfg f now → InI64 (now + f.dt) := by
        refine ⟨fun h => h.armed, fun h => ⟨h, fun he => ?_, fun he => ?_⟩⟩
        · cases he
        · cases he
      rw [hiff]
      cases frameOf buf with
      | none => simp
      | some f => simpa using onCommit_contained_iff cfg a.csa g f now

/-- The agent is contained in a run iff every step of it is confined. -/
theorem contained_iff (cfg : CsaCfg) (es : List Event) :
    (contained cfg).Accepts none ((machine cfg).trace {} es) ↔
      (machine cfg).Meets (Confined cfg) {} es := by
  rw [← (machine cfg).watch_meets (contained cfg) (Confined cfg) {} none es]
  let Inv (a : Agent) (g : Option Commit) : Prop := Targeted cfg a.csa g
  have hinit : Inv {} none := .of_ne fun ha => nomatch ha
  have hkeep : ∀ (a : Agent) (g : Option Commit) (e : Event), Inv a g → Confined cfg a e →
      Inv ((machine cfg).step a e).1 ((contained cfg).after g ((machine cfg).step a e).2) :=
    fun a g e hg _ => (step_moves cfg a e).targeted hg
  have hok : ∀ (a : Agent) (g : Option Commit) (e : Event), Inv a g →
      ((contained cfg).Accepts g ((machine cfg).step a e).2 ↔ Confined cfg a e) :=
    step_contained_iff cfg
  exact Machine.accepts_trace_iff hkeep hok hinit es

/-- The agent is held to channel 149 and not confirmed there: it reverts to channel 161. -/
def strayRun : List Event := [⟨1000, .feed (sampleFrame 7)⟩, ⟨1500, .tick⟩, ⟨4500, .tick⟩]

theorem containment_broken :
    ¬ ∀ (cfg : CsaCfg) (es : List Event),
      (contained cfg).Accepts none ((machine cfg).trace {} es) :=
  not_forall.mpr ⟨{ allowChan := [149] }, not_forall.mpr ⟨strayRun, by decide +kernel⟩⟩

end Waybeam.Csa
