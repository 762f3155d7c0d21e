/-
# `Waybeam.Csa.Anchor` — the clock a commit frame is read at

The receiver counts `dt_to_switch_ms` from the clock it is called with.  The main loop of the vehicle
samples that clock once a turn, and reads the frames later:

    top of the turn       csa_tick
    sample                `now`
    poll, handlers        up to 100 ms, and what the console, the encoder and the commands take
    drain, 32 datagrams   csa_feed with `now`

So every deadline is early by what lies between the sample and the read (`anchored_iff`).
-/
import Waybeam.Csa.Agent

namespace Waybeam.Csa

open Text

/-! ## The main loop, as far as the agent goes -/

/-- A WCMD request, by its length, magic, version and type. -/
def isCommand (dgram : Bytes) : Bool :=
  decide (16 ≤ dgram.length) && ("WCMD".toList ++ [Char.ofNat 1, Char.ofNat 1]).isPrefixOf dgram

/-- The agent in the main loop of a vehicle that has one, and the microsecond clock. -/
structure Main where
  csa : CsaState := {}
  clock : ℕ
  /-- `now` of this turn -/
  now : ℕ := 0
  /-- datagrams that may still be read in this turn -/
  room : ℕ := 0

inductive MainEvent where
  /-- the turn begins, and `tickUs` later its clock is sampled again -/
  | turn (dtUs tickUs : ℕ)
  /-- `recvfrom` on the rx_ant socket -/
  | read (dtUs : ℕ) (dgram : Bytes)

/-- What the agent does, and when, and the deadline it is left with. -/
structure MainObs where
  atUs : ℕ
  tSwitchMs : ℤ
  did : Obs

/-- A datagram that is no command: for the agent, or a sign of life. -/
def CsaState.heard (s : CsaState) (cfg : CsaCfg) (dgram : Bytes) (now : ℤ) : CsaState × List Obs :=
  let r := s.csaFeed cfg dgram now
  if r.1 then r.2 else r.2.1.csaLinkAlive

/-- The agent takes no part in this read: there is none, or the datagram is empty, truncated or a
command. -/
def Main.skips (m : Main) (dgram : Bytes) : Bool :=
  decide (m.room = 0) || dgram.isEmpty || decide (2048 ≤ dgram.length) || isCommand dgram

def Main.step (cfg : CsaCfg) (m : Main) : MainEvent → Main × List MainObs
  | .turn dtUs tickUs =>
      let sample := m.clock + dtUs
      let r := m.csa.csaTick cfg (sample / 1000 : ℕ)
      let now := sample + tickUs
      ({ csa := r.1, clock := now, now, room := 32 }, r.2.map (MainObs.mk sample r.1.tSwitchMs))
  | .read dtUs dgram =>
      let clock := m.clock + dtUs
      -- an empty datagram ends the drain
      let room := if dgram.isEmpty then 0 else m.room - 1
      if m.skips dgram then ({ m with clock, room }, [])
      else
        let r := m.csa.heard cfg dgram (m.now / 1000 : ℕ)
        ({ m with csa := r.1, clock, room }, r.2.map (MainObs.mk clock r.1.tSwitchMs))

def mainLoop (cfg : CsaCfg) : Machine Main MainEvent MainObs := ⟨Main.step cfg⟩

/-! ## Anchored deadlines -/

/-- The tolerance of a refresh, in microseconds. -/
def refreshToleranceUs : ℤ := 20 * 1000

/-- The deadline of a frame is where it is when counted from the read. -/
def Anchored (readUs : ℕ) (dtMs tSwitchMs : ℤ) : Prop :=
  |1000 * tSwitchMs - (readUs + 1000 * dtMs)| ≤ refreshToleranceUs

instance (readUs : ℕ) (dtMs tSwitchMs : ℤ) : Decidable (Anchored readUs dtMs tSwitchMs) :=
  inferInstanceAs (Decidable (_ ≤ _))

/-- Every frame that is armed has such a deadline. -/
def anchored : Monitor MainObs Unit where
  upd _ _ := ()
  ok _ o :=
    match o.did with
    | .armed f _ => decide (Anchored o.atUs f.dt o.tSwitchMs)
    | _ => true

/-- A frame that is armed is read within the tolerance of the sample, a whole number of milliseconds,
and its deadline does not overflow. -/
def Main.Prompt (cfg : CsaCfg) (m : Main) : MainEvent → Prop
  | .turn .. => True
  | .read dtUs dgram =>
      m.skips dgram = false → ∀ f ∈ frameOf dgram, m.csa.Arms cfg f (m.now / 1000 : ℕ) →
        InI64 ((m.now / 1000 : ℕ) + f.dt) ∧
          ((m.clock + dtUs : ℕ) : ℤ) - 1000 * (m.now / 1000 : ℕ) ≤ refreshToleranceUs

instance (cfg : CsaCfg) (m : Main) (e : MainEvent) : Decidable (m.Prompt cfg e) :=
  match e with
  | .turn .. => inferInstanceAs (Decidable True)
  | .read .. => inferInstanceAs (Decidable (_ → ∀ f ∈ frameOf _, _))

/-! ### The numbers -/

theorem saturate_inI64 (l : ℤ) : InI64 (saturate l) := by
  simp only [InI64, saturate]
  omega

theorem strtoll_inI64 {s rest : Bytes} {l : ℤ} (h : strtoll s = some (l, rest)) : InI64 l := by
  rw [strtoll] at h
  split at h
  all_goals
    obtain ⟨r, -, hr⟩ := Option.map_eq_some_iff.mp h
    rw [← (Prod.mk.inj hr).1]
    exact saturate_inI64 _

theorem getInt_inI64 {buf key : Bytes} {l : ℤ} (h : getInt buf key = some l) : InI64 l := by
  rw [getInt] at h
  split at h
  · obtain ⟨r, hr, rfl⟩ := Option.map_eq_some_iff.mp h
    exact strtoll_inI64 hr
  · cases h

/-- The remaining time of a frame is a `long long`. -/
theorem frameOf_dt {dgram : Bytes} {f : Commit} (h : frameOf dgram = some f) : InI64 f.dt := by
  rw [frameOf] at h
  split at h
  · cases h
  · split at h
    · simp only [Commit.parse, Option.bind_eq_bind, Option.bind_eq_some_iff] at h
      obtain ⟨sess, -, dt, hdt, chan, -, hf⟩ := h
      cases hf
      exact getInt_inI64 hdt
    · cases h

/-- A deadline counted from an earlier millisecond is early by what has passed since. -/
theorem anchored_num_iff {n readUs : ℕ} {dt : ℤ} (hdt : InI64 dt) (hread : 1000 * n ≤ readUs) :
    Anchored readUs dt (i64 (n + dt)) ↔
      InI64 (n + dt) ∧ (readUs : ℤ) - 1000 * n ≤ refreshToleranceUs := by
  simp only [Anchored, InI64, i64, Int.bmod, refreshToleranceUs, abs_le] at hdt ⊢
  split_ifs <;> omega

/-! ### One read -/

variable {cfg : CsaCfg} {s : CsaState} {now : ℤ}

/-- Nothing is armed here. -/
def Unarming (os : List Obs) : Prop := ∀ f at', Obs.armed f at' ∉ os

theorem linkAlive_unarming (s : CsaState) : Unarming s.csaLinkAlive.2 := by
  intro f at' ho
  rw [CsaState.csaLinkAlive] at ho
  split at ho <;> simp at ho

theorem onCommit_arms {f : Commit} (h : s.Arms cfg f now) :
    s.onCommit cfg f now = (s.arm f now, [.commit f, .armed f now]) := by
  obtain ⟨hadmits, hown, hnew, hcool⟩ := h
  rw [CsaState.onCommit, if_neg (by rw [hadmits]; exact Bool.false_ne_true), if_neg hown, if_pos hnew,
    if_neg (by rw [hcool]; exact Bool.false_ne_true)]

theorem onCommit_unarming {f : Commit} (h : ¬s.Arms cfg f now) : Unarming (s.onCommit cfg f now).2 := by
  intro f' at' ho
  rw [CsaState.onCommit] at ho
  split at ho
  · cases ho
  next hadmits =>
  split at ho
  · simp at ho
  next hown =>
  split at ho
  · next hnew =>
      split at ho
      · simp at ho
      · next hcool =>
          exact h ⟨by simpa using hadmits, hown, hnew, Bool.eq_false_iff.mpr hcool⟩
  · simp at ho

/-- What is heard arms the frame in it, or nothing. -/
theorem heard_cases (s : CsaState) (cfg : CsaCfg) (dgram : Bytes) (now : ℤ) :
    (∃ f, frameOf dgram = some f ∧ s.Arms cfg f now ∧
        s.heard cfg dgram now = (s.arm f now, [.commit f, .armed f now])) ∨
      (∀ f ∈ frameOf dgram, ¬s.Arms cfg f now) ∧ Unarming (s.heard cfg dgram now).2 := by
  have hfeed := csaFeed_eq s cfg dgram now
  have hconsumed : ∀ f, frameOf dgram = some f → (s.csaFeed cfg dgram now).1 = true := by
    intro f hf
    rw [frameOf] at hf
    rw [CsaState.csaFeed]
    split at hf
    · cases hf
    next type htype =>
    split at hf
    · next hcommit =>
        simp only [csa_isPrefixOf hcommit, hcommit, Bool.not_true, Bool.false_eq_true, if_false]
        rw [hf]
    · cases hf
  rw [CsaState.heard]
  cases hf : frameOf dgram with
  | some f =>
      rw [hf] at hfeed
      dsimp only at hfeed ⊢
      rw [if_pos (hconsumed f hf), hfeed]
      by_cases harms : s.Arms cfg f now
      · exact .inl ⟨f, rfl, harms, onCommit_arms harms⟩
      · refine .inr ⟨fun f' hf' => ?_, onCommit_unarming harms⟩
        cases hf'
        exact harms
  | none =>
      rw [hf] at hfeed
      dsimp only at hfeed ⊢
      refine .inr ⟨fun f' hf' => (by cases hf'), ?_⟩
      split
      · rw [hfeed]
        exact fun _ _ ho => by cases ho
      · exact linkAlive_unarming _

theorem anchored_unarming {os : List Obs} (h : Unarming os) (atUs : ℕ) (tSwitchMs : ℤ) :
    anchored.Accepts () (os.map (MainObs.mk atUs tSwitchMs)) := by
  induction os with
  | nil => trivial
  | cons o os ih =>
      refine ⟨?_, ih fun f at' ho => h f at' (List.mem_cons_of_mem _ ho)⟩
      cases o with
      | armed f at' => exact absurd List.mem_cons_self (h f at')
      | _ => rfl

theorem tick_unarming (s : CsaState) (cfg : CsaCfg) (now : ℤ) : Unarming (s.csaTick cfg now).2 := by
  intro f at' ho
  rw [CsaState.csaTick] at ho
  split at ho
  · cases ho
  · split at ho <;> simp at ho
  · split at ho <;> simp at ho

/-! ### Runs -/

/-- One event keeps the deadline anchored if and only if it is prompt. -/
theorem step_anchored_iff (cfg : CsaCfg) (m : Main) (e : MainEvent) (h : m.now ≤ m.clock) :
    anchored.Accepts () (m.step cfg e).2 ↔ m.Prompt cfg e := by
  cases e with
  | turn dtUs tickUs => exact iff_of_true (anchored_unarming (tick_unarming _ _ _) _ _) trivial
  | read dtUs dgram =>
      rw [Main.step, Main.Prompt]
      dsimp only
      cases hskips : m.skips dgram with
      | true =>
          rw [if_pos rfl]
          exact iff_of_true trivial fun hno => by cases hno
      | false =>
          rw [if_neg Bool.false_ne_true, imp_iff_right (rfl : false = false)]
          rcases heard_cases m.csa cfg dgram (m.now / 1000 : ℕ) with ⟨f, hf, harms, hheard⟩ | ⟨hnone, hun⟩
          · have hread : 1000 * (m.now / 1000) ≤ m.clock + dtUs := by omega
            rw [hheard]
            show (true = true ∧ decide (Anchored (m.clock + dtUs) f.dt (i64 ((m.now / 1000 : ℕ) + f.dt))) = true
              ∧ True) ↔ _
            rw [decide_eq_true_iff, anchored_num_iff (frameOf_dt hf) hread]
            constructor
            · rintro ⟨-, hprompt, -⟩ f' hf' _
              obtain rfl : f = f' := Option.some.inj (hf.symm.trans hf')
              exact hprompt
            · intro hprompt
              exact ⟨rfl, hprompt f hf harms, trivial⟩
          · exact iff_of_true (anchored_unarming hun _ _) fun f hf harms => absurd harms (hnone f hf)

/-- Every frame that is armed in a run has its deadline within the tolerance of the read, exactly if
every one was read so soon after the sample. -/
theorem anchored_iff (cfg : CsaCfg) (clock : ℕ) (es : List MainEvent) :
    anchored.Accepts () ((mainLoop cfg).trace { clock } es) ↔
      (mainLoop cfg).Meets (Main.Prompt cfg) { clock } es := by
  rw [← (mainLoop cfg).watch_meets anchored (Main.Prompt cfg) { clock } () es]
  let Inv (m : Main) (_ : Unit) : Prop := m.now ≤ m.clock
  have hinv : ∀ (m : Main) (u : Unit) e, Inv m u → m.Prompt cfg e →
      Inv ((mainLoop cfg).step m e).1 (anchored.after u ((mainLoop cfg).step m e).2) := by
    intro m u e h _
    cases e with
    | turn dtUs tickUs => exact le_refl _
    | read dtUs dgram =>
        show (m.step cfg _).1.now ≤ (m.step cfg _).1.clock
        rw [Main.step]
        dsimp only
        split <;> exact h.trans (Nat.le_add_right _ _)
  have hok : ∀ (m : Main) (u : Unit) e, Inv m u →
      (anchored.Accepts u ((mainLoop cfg).step m e).2 ↔ m.Prompt cfg e) :=
    fun m _ e h => step_anchored_iff cfg m e h
  have hstart : Inv { clock } () := Nat.zero_le clock
  exact Machine.accepts_trace_iff hinv hok hstart es

/-- The agent waits for 60 ms before the frame comes. -/
def waits : List MainEvent := [.turn 1000 0, .read 60000 (sampleFrame 7)]

/-- The frame is armed, 60 ms too early. -/
theorem not_anchored :
    ¬anchored.Accepts () ((mainLoop {}).trace { clock := 1000000 } waits) ∧
      ((mainLoop {}).trace { clock := 1000000 } waits).map (fun o => (o.atUs, o.tSwitchMs)) =
        [(1061000, 1501), (1061000, 1501)] := by
  decide +kernel

end Waybeam.Csa
