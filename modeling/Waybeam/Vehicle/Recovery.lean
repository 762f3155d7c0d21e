/-
# `Waybeam.Vehicle.Recovery` — the open recovery channel

Frames on the keyless recovery listener reach one dispatcher with one key, 64, and one action,
the APFPV hook.  What stands between a stray frame and the hook is a counter:

    rejected   the channel is off, or the key is another
    cooling    the hook ran less than the cooldown ago: acknowledged, not counted
    counted    one more frame of the number being armed, or the first of a new one
    ran        the count is reached: the hook runs and the count starts over

The operator's dispatcher knows the keys 1 to 20 only, so nothing the listener accepts is a
command to it.
-/
import Waybeam.Vehicle.Rate

namespace Waybeam.Vehicle

/-- `WCMD_KEY_RECOVERY_APFPV`. -/
def wcmdKeyRecoveryApfpv : UInt8 := 64

/-- `Config.recovery` with `Config.dry_run`; the command is the hook's own matter. -/
structure RecoveryConfig where
  enabled : Bool := true
  armCount : ℤ := 1
  armWindowMs : ℤ := 2000
  cooldownMs : ℤ := 10000
  dryRun : Bool := false

/-- The parameters as the dispatcher reads them: what is not positive is the default. -/
def RecoveryConfig.cooldownUs (c : RecoveryConfig) : ℕ :=
  (if 0 < c.cooldownMs then c.cooldownMs else 10000).toNat * 1000

def RecoveryConfig.windowUs (c : RecoveryConfig) : ℕ :=
  (if 0 < c.armWindowMs then c.armWindowMs else 2000).toNat * 1000

def RecoveryConfig.hits (c : RecoveryConfig) : ℕ :=
  (if 0 < c.armCount then c.armCount else 1).toNat

/-- `g_recovery`. -/
structure RecoveryState where
  recvTotal : ℕ := 0
  rejected : ℕ := 0
  armed : ℕ := 0
  executed : ℕ := 0
  lastRecvUs : ℕ := 0
  lastExecUs : ℕ := 0
  lastExecRc : ℤ := 0
  armSeq : UInt16 := 0
  armHits : ℕ := 0
  armFirstUs : ℕ := 0

namespace RecoveryState

variable (st : RecoveryState)

/-- The frame is one more of those being counted. -/
def continues (cfg : RecoveryConfig) (seq : UInt16) (now : ℕ) : Bool :=
  st.armHits ≠ 0 && st.armSeq = seq && now - st.armFirstUs ≤ cfg.windowUs

/-- The counter after a frame. -/
def count (cfg : RecoveryConfig) (seq : UInt16) (now : ℕ) : RecoveryState :=
  if st.continues cfg seq now then { st with armHits := st.armHits + 1 }
  else { st with armSeq := seq, armHits := 1, armFirstUs := now }

/-- The hook ran less than the cooldown ago. -/
def cooling (cfg : RecoveryConfig) (now : ℕ) : Bool :=
  st.lastExecUs ≠ 0 && now - st.lastExecUs < cfg.cooldownUs

end RecoveryState

/-- `recovery_dispatch`; `hookRc` is the exit code of the hook, should it run. -/
def recoveryDispatch (cfg : RecoveryConfig) (st : RecoveryState) (req : WcmdReq) (now : ℕ)
    (hookRc : ℤ) : RecoveryState × WcmdResp :=
  let st := { st with recvTotal := st.recvTotal + 1, lastRecvUs := now }
  if !cfg.enabled then ({ st with rejected := st.rejected + 1 }, ⟨.disabled, 0, 0⟩)
  else if req.key ≠ wcmdKeyRecoveryApfpv then
    ({ st with rejected := st.rejected + 1 }, ⟨.unknownKey, 0, 0⟩)
  else if st.cooling cfg now then (st, ⟨.ok, 0, st.lastExecRc⟩)
  else
    let st := st.count cfg req.seq now
    if st.armHits < cfg.hits then (st, ⟨.ok, 0, 0⟩)
    else
      let rc := if cfg.dryRun then 0 else hookRc
      let st := { st with
        armed := st.armed + 1, armHits := 0, lastExecUs := now, lastExecRc := rc }
      if rc = 0 then ({ st with executed := st.executed + 1 }, ⟨.ok, 0, 0⟩)
      else (st, ⟨.httpError, if 0 < rc ∧ rc ≤ 0xFFFF then rc else 0, 0⟩)

/-! ## The listener as a machine -/

/-- A frame on the listener. -/
structure Knock where
  dt : ℕ
  req : WcmdReq
  hookRc : ℤ := 0

/-- The listener's state; the monotonic clock is past zero when the daemon is up. -/
structure Listener where
  st : RecoveryState := {}
  clock : ℕ := 1

/-- What became of a frame the listener accepted. -/
inductive Knocked where
  | cooling
  | counted
  | ran
  deriving DecidableEq

/-- A frame accepted: its number, its time, and what became of it. -/
structure Entry where
  seq : UInt16
  now : ℕ
  fate : Knocked

/-- The dispatch of a frame, read by the dispatcher's own counters. -/
def Listener.step (cfg : RecoveryConfig) (l : Listener) (e : Knock) : Listener × List Entry :=
  let now := l.clock + e.dt
  let st := (recoveryDispatch cfg l.st e.req now e.hookRc).1
  (⟨st, now⟩,
    if st.rejected ≠ l.st.rejected then []
    else if st.armed ≠ l.st.armed then [⟨e.req.seq, now, .ran⟩]
    else if l.st.cooling cfg now then [⟨e.req.seq, now, .cooling⟩]
    else [⟨e.req.seq, now, .counted⟩])

def Listener.machine (cfg : RecoveryConfig) : Machine Listener Knock Entry := ⟨Listener.step cfg⟩

/-- The frames before a run of the hook that armed it: the latest ones, all counted, of its number
and inside the window. -/
def armingRun (cfg : RecoveryConfig) (g : List Entry) (seq : UInt16) (now : ℕ) : List Entry :=
  g.takeWhile fun a => a.fate = .counted && a.seq = seq && now - a.now ≤ cfg.windowUs

/-- The hook runs on the last of enough frames, and not before the cooldown is over. -/
def gatedOk (cfg : RecoveryConfig) (g : List Entry) (a : Entry) : Bool :=
  a.fate ≠ .ran ||
    (cfg.hits ≤ (armingRun cfg g a.seq a.now).length + 1 &&
      g.all fun b => b.fate ≠ .ran || b.now + cfg.cooldownUs ≤ a.now)

/-- The frames accepted so far, the newest first, and what is demanded of each. -/
def gated (cfg : RecoveryConfig) : Monitor Entry (List Entry) where
  upd g a := a :: g
  ok := gatedOk cfg

/-! ## What a frame does -/

/-- The counter and the time of the last run stand. -/
structure SameArming (st st' : RecoveryState) : Prop where
  seq : st'.armSeq = st.armSeq
  hits : st'.armHits = st.armHits
  first : st'.armFirstUs = st.armFirstUs
  exec : st'.lastExecUs = st.lastExecUs

/-- What a dispatch leaves, by the fate of its frame. -/
inductive Hears (cfg : RecoveryConfig) (st : RecoveryState) (seq : UInt16) (now : ℕ)
    (st' : RecoveryState) : Prop
  | rejected (hr : st'.rejected = st.rejected + 1) (hs : SameArming st st')
  | cooling (hr : st'.rejected = st.rejected) (ha : st'.armed = st.armed)
      (hc : st.cooling cfg now = true) (hs : SameArming st st')
  | counted (hr : st'.rejected = st.rejected) (ha : st'.armed = st.armed)
      (hc : st.cooling cfg now = false) (hs : SameArming (st.count cfg seq now) st')
  | ran (hr : st'.rejected = st.rejected) (ha : st'.armed = st.armed + 1)
      (hc : st.cooling cfg now = false) (hits : cfg.hits ≤ (st.count cfg seq now).armHits)
      (hzero : st'.armHits = 0) (hx : st'.lastExecUs = now)
      (hf : st'.armFirstUs = (st.count cfg seq now).armFirstUs)

/-- What a count leaves alone. -/
theorem RecoveryState.count_kept (cfg : RecoveryConfig) (st : RecoveryState) (seq : UInt16)
    (now : ℕ) : (st.count cfg seq now).rejected = st.rejected ∧
      (st.count cfg seq now).armed = st.armed ∧
      (st.count cfg seq now).lastExecUs = st.lastExecUs := by
  rw [RecoveryState.count]
  split <;> exact ⟨rfl, rfl, rfl⟩

/-- The counters at the head of a dispatch are none of the counter's. -/
theorem RecoveryState.count_head (cfg : RecoveryConfig) (st : RecoveryState) (seq : UInt16)
    (now total recv : ℕ) :
    RecoveryState.count { st with recvTotal := total, lastRecvUs := recv } cfg seq now
      = { st.count cfg seq now with recvTotal := total, lastRecvUs := recv } := by
  rw [RecoveryState.count, RecoveryState.count]
  show (if st.continues cfg seq now then _ else _) = _
  split <;> rfl

theorem recoveryDispatch_hears (cfg : RecoveryConfig) (st : RecoveryState) (req : WcmdReq)
    (now : ℕ) (hookRc : ℤ) :
    Hears cfg st req.seq now (recoveryDispatch cfg st req now hookRc).1 := by
  rw [recoveryDispatch]
  split
  · exact .rejected rfl ⟨rfl, rfl, rfl, rfl⟩
  split
  · exact .rejected rfl ⟨rfl, rfl, rfl, rfl⟩
  split
  · next hc => exact .cooling rfl rfl hc ⟨rfl, rfl, rfl, rfl⟩
  next hc =>
  obtain ⟨hrej, harm, -⟩ := st.count_kept cfg req.seq now
  rw [st.count_head]
  generalize hst : st.count cfg req.seq now = st' at hrej harm
  dsimp only
  split
  · exact .counted hrej harm (eq_false_of_ne_true hc) (hst ▸ ⟨rfl, rfl, rfl, rfl⟩)
  next hits =>
  have hreached : cfg.hits ≤ (st.count cfg req.seq now).armHits := hst ▸ not_lt.mp hits
  have harmed : st'.armed + 1 = st.armed + 1 := by rw [harm]
  generalize (if cfg.dryRun then 0 else hookRc) = rc
  split
  · exact .ran hrej harmed (eq_false_of_ne_true hc) hreached rfl rfl (hst ▸ rfl)
  · exact .ran hrej harmed (eq_false_of_ne_true hc) hreached rfl rfl (hst ▸ rfl)

/-! ## The counter and the ledger -/

/-- The counter counts the latest frames of the ledger, and no run is younger than the last. -/
structure Arming (cfg : RecoveryConfig) (l : Listener) (g : List Entry) : Prop where
  clock : 0 < l.clock
  first : l.st.armFirstUs ≤ l.clock
  recent : ∃ new old, g = new ++ old ∧ new.length = l.st.armHits ∧
    ∀ a ∈ new, a.fate = .counted ∧ a.seq = l.st.armSeq ∧ l.st.armFirstUs ≤ a.now
  exec : l.st.lastExecUs ≤ l.clock
  awake : l.st.armHits ≠ 0 → l.st.cooling cfg l.clock = false
  runs : ∀ a ∈ g, a.fate = .ran → 0 < l.st.lastExecUs ∧ a.now ≤ l.st.lastExecUs

theorem arming_boot (cfg : RecoveryConfig) : Arming cfg {} [] where
  clock := Nat.one_pos
  first := Nat.zero_le 1
  recent := ⟨[], [], rfl, rfl, fun _ h => absurd h List.not_mem_nil⟩
  exec := Nat.zero_le 1
  awake h := absurd rfl h
  runs _ h := absurd h List.not_mem_nil

/-- A cooldown that is over stays over. -/
theorem cooling_later {cfg : RecoveryConfig} {st : RecoveryState} {now later : ℕ} (h : now ≤ later)
    (hc : st.cooling cfg now = false) : st.cooling cfg later = false := by
  rw [RecoveryState.cooling, Bool.and_eq_false_iff, decide_eq_false_iff_not,
    decide_eq_false_iff_not] at hc ⊢
  omega

/-- The cooldown depends on the last run alone. -/
theorem cooling_congr {st st' : RecoveryState} (h : st'.lastExecUs = st.lastExecUs)
    (cfg : RecoveryConfig) (now : ℕ) : st'.cooling cfg now = st.cooling cfg now := by
  rw [RecoveryState.cooling, RecoveryState.cooling, h]

/-- A frame that is rejected. -/
theorem Arming.same {cfg : RecoveryConfig} {l l' : Listener} {g : List Entry} (h : Arming cfg l g)
    (hs : SameArming l.st l'.st) (hc : l.clock ≤ l'.clock) : Arming cfg l' g where
  clock := h.clock.trans_le hc
  first := hs.first.trans_le (h.first.trans hc)
  recent := by
    rw [hs.hits, hs.seq, hs.first]
    exact h.recent
  exec := hs.exec.trans_le (h.exec.trans hc)
  awake hne := by
    rw [hs.hits] at hne
    rw [cooling_congr hs.exec]
    exact cooling_later hc (h.awake hne)
  runs := by
    rw [hs.exec]
    exact h.runs

/-- A frame in the cooldown, when nothing is being counted. -/
theorem Arming.cool {cfg : RecoveryConfig} {l l' : Listener} {g : List Entry} {seq : UInt16}
    (h : Arming cfg l g) (hs : SameArming l.st l'.st) (hc : l.clock ≤ l'.clock)
    (hcool : l.st.cooling cfg l'.clock = true) :
    Arming cfg l' (⟨seq, l'.clock, .cooling⟩ :: g) := by
  have hzero : l.st.armHits = 0 := by
    by_contra hne
    rw [cooling_later hc (h.awake hne)] at hcool
    cases hcool
  refine ⟨h.clock.trans_le hc, hs.first.trans_le (h.first.trans hc),
    ⟨[], _, rfl, (hs.hits.trans hzero).symm, ?_⟩, hs.exec.trans_le (h.exec.trans hc), ?_, ?_⟩
  · intro a ha
    exact absurd ha List.not_mem_nil
  · intro hne
    exact absurd (hs.hits.trans hzero) hne
  · intro a ha hran
    rw [hs.exec]
    rcases List.mem_cons.mp ha with rfl | hold
    · cases hran
    · exact h.runs a hold hran

/-- The frames the counter has counted before this one, which it counts too. -/
theorem Arming.counts {cfg : RecoveryConfig} {l : Listener} {g : List Entry} (h : Arming cfg l g)
    (seq : UInt16) {now : ℕ} (hc : l.clock ≤ now) :
    ∃ new old, g = new ++ old ∧ new.length + 1 = (l.st.count cfg seq now).armHits ∧
      (l.st.count cfg seq now).armSeq = seq ∧
      (l.st.count cfg seq now).armFirstUs ≤ now ∧
      ∀ a ∈ new, a.fate = .counted ∧ a.seq = seq ∧ now - a.now ≤ cfg.windowUs ∧
        (l.st.count cfg seq now).armFirstUs ≤ a.now := by
  rw [RecoveryState.count]
  cases hgo : l.st.continues cfg seq now with
  | false =>
      refine ⟨[], g, rfl, rfl, rfl, le_rfl, ?_⟩
      intro a ha
      exact absurd ha List.not_mem_nil
  | true =>
      simp only [RecoveryState.continues, Bool.and_eq_true, decide_eq_true_eq] at hgo
      obtain ⟨⟨-, hseq⟩, hwindow⟩ := hgo
      obtain ⟨new, old, hg, hlen, hall⟩ := h.recent
      refine ⟨new, old, hg, by rw [hlen]; rfl, hseq, h.first.trans hc, ?_⟩
      intro a ha
      obtain ⟨hfate, hs, hfirst⟩ := hall a ha
      exact ⟨hfate, hs.trans hseq, by omega, hfirst⟩

/-- A frame that is counted. -/
theorem Arming.count {cfg : RecoveryConfig} {l l' : Listener} {g : List Entry} {seq : UInt16}
    (h : Arming cfg l g) (hs : SameArming (l.st.count cfg seq l'.clock) l'.st)
    (hc : l.clock ≤ l'.clock) (hcool : l.st.cooling cfg l'.clock = false) :
    Arming cfg l' (⟨seq, l'.clock, .counted⟩ :: g) := by
  obtain ⟨new, old, hg, hlen, hseq, hfirst, hall⟩ := h.counts seq hc
  have hexec : l'.st.lastExecUs = l.st.lastExecUs := hs.exec.trans (l.st.count_kept ..).2.2
  refine ⟨h.clock.trans_le hc, hs.first.trans_le hfirst,
    ⟨⟨seq, l'.clock, .counted⟩ :: new, old, ?_, ?_, ?_⟩, hexec.trans_le (h.exec.trans hc), ?_, ?_⟩
  · rw [hg]
    rfl
  · rw [hs.hits, ← hlen]
    rfl
  · rw [hs.seq, hs.first, hseq]
    intro a ha
    rcases List.mem_cons.mp ha with rfl | hold
    · exact ⟨rfl, rfl, hfirst⟩
    · obtain ⟨hfate, hsame, -, hle⟩ := hall a hold
      exact ⟨hfate, hsame, hle⟩
  · intro _
    rw [cooling_congr hexec]
    exact hcool
  · intro a ha hran
    rw [hexec]
    rcases List.mem_cons.mp ha with rfl | hold
    · cases hran
    · exact h.runs a hold hran

/-- The hook runs. -/
theorem Arming.run {cfg : RecoveryConfig} {l l' : Listener} {g : List Entry} {seq : UInt16}
    (h : Arming cfg l g) (hc : l.clock ≤ l'.clock) (hzero : l'.st.armHits = 0)
    (hx : l'.st.lastExecUs = l'.clock) (hfirst : l'.st.armFirstUs ≤ l'.clock) :
    Arming cfg l' (⟨seq, l'.clock, .ran⟩ :: g) := by
  have hclock : 0 < l'.clock := h.clock.trans_le hc
  refine ⟨hclock, hfirst, ⟨[], _, rfl, hzero.symm, ?_⟩, hx.le,
    fun hne => absurd hzero hne, ?_⟩
  · intro a ha
    exact absurd ha List.not_mem_nil
  · intro a ha hran
    rw [hx]
    refine ⟨hclock, ?_⟩
    rcases List.mem_cons.mp ha with rfl | hold
    · exact le_rfl
    · exact (h.runs a hold hran).2.trans (h.exec.trans hc)

/-- A run of the hook is armed, and outside the cooldown of the runs before it. -/
theorem Arming.gated {cfg : RecoveryConfig} {l : Listener} {g : List Entry} {seq : UInt16} {now : ℕ}
    (h : Arming cfg l g) (hc : l.clock ≤ now) (hcool : l.st.cooling cfg now = false)
    (hits : cfg.hits ≤ (l.st.count cfg seq now).armHits) : gatedOk cfg g ⟨seq, now, .ran⟩ := by
  obtain ⟨new, old, hg, hlen, -, -, hall⟩ := h.counts seq hc
  have harmed : new.length ≤ (armingRun cfg g seq now).length := by
    have hpass : ∀ a ∈ new,
        (a.fate = .counted && a.seq = seq && now - a.now ≤ cfg.windowUs : Bool) = true := by
      intro a ha
      obtain ⟨hfate, hseq, hwindow, -⟩ := hall a ha
      simp [hfate, hseq, hwindow]
    rw [armingRun, hg, List.takeWhile_append_of_pos hpass, List.length_append]
    exact Nat.le_add_right ..
  have hapart : ∀ b ∈ g, b.fate = .ran → b.now + cfg.cooldownUs ≤ now := by
    intro b hb hran
    obtain ⟨hpos, hle⟩ := h.runs b hb hran
    rw [RecoveryState.cooling, Bool.and_eq_false_iff, decide_eq_false_iff_not,
      decide_eq_false_iff_not] at hcool
    have := h.exec
    omega
  rw [gatedOk, Bool.or_eq_true, Bool.and_eq_true, List.all_eq_true]
  refine .inr ⟨decide_eq_true (show cfg.hits ≤ (armingRun cfg g seq now).length + 1 by omega), ?_⟩
  intro b hb
  rw [Bool.or_eq_true, decide_eq_true_eq, decide_eq_true_eq, ne_eq, ← imp_iff_not_or]
  exact hapart b hb

theorem arming_step {cfg : RecoveryConfig} {l : Listener} {g : List Entry} (h : Arming cfg l g)
    (e : Knock) : (gated cfg).wp g (l.step cfg e) (Arming cfg) := by
  have hclock : l.clock ≤ l.clock + e.dt := Nat.le_add_right ..
  have hhears := recoveryDispatch_hears cfg l.st e.req (l.clock + e.dt) e.hookRc
  rw [Listener.step]
  generalize (recoveryDispatch cfg l.st e.req (l.clock + e.dt) e.hookRc).1 = st' at hhears
  cases hhears with
  | rejected hr hs =>
      rw [if_pos (by omega)]
      exact wp_pure (h.same hs hclock)
  | cooling hr ha hc hs =>
      rw [if_neg (not_not.mpr hr), if_neg (not_not.mpr ha), if_pos hc]
      exact wp_emit rfl (h.cool hs hclock hc)
  | counted hr ha hc hs =>
      rw [if_neg (not_not.mpr hr), if_neg (not_not.mpr ha), hc, if_neg Bool.false_ne_true]
      exact wp_emit rfl (h.count hs hclock hc)
  | ran hr ha hc hits hzero hx hf =>
      obtain ⟨-, -, -, -, -, hfirst, -⟩ := h.counts e.req.seq hclock
      rw [if_neg (not_not.mpr hr), if_pos (by omega)]
      exact wp_emit (h.gated hclock hc hits) (h.run hclock hzero hx (hf.trans_le hfirst))

/-- What the listener accepts is no command to the operator's dispatcher. -/
theorem recovery_not_command {cfg : RecoveryConfig} {st : RecoveryState} {req : WcmdReq} {now : ℕ}
    {hookRc : ℤ} (h : (recoveryDispatch cfg st req now hookRc).1.rejected = st.rejected)
    (c : Config) (peerIsLoopback : Bool) : wcmdAdmits c req peerIsLoopback = none := by
  have hkey : req.key = wcmdKeyRecoveryApfpv := by
    by_contra hne
    rw [recoveryDispatch] at h
    split at h <;> exact absurd h (Nat.succ_ne_self _)
  have hnone : WcmdKey.ofByte req.key = none := by rw [hkey]; rfl
  rw [wcmdAdmits, hnone]
  split
  · rfl
  · split <;> rfl

/-- In every run of frames, in any order and at any pace, the hook runs only on the last of enough
latest frames of one number inside the window, and not before the cooldown of every earlier run
is over; and no frame the listener accepts is a command to the operator's dispatcher. -/
theorem recovery_gated (cfg : RecoveryConfig) (es : List Knock) :
    (gated cfg).Accepts [] ((Listener.machine cfg).trace {} es) ∧
      (Listener.machine cfg).Meets (fun l e =>
        (recoveryDispatch cfg l.st e.req (l.clock + e.dt) e.hookRc).1.rejected = l.st.rejected →
        ∀ (c : Config) (st : WcmdState) (air : RadioBody) (peerIsLoopback : Bool) (now : ℕ)
          (io : CmdIo), TurnedAway st (wcmdDispatch c st air e.req peerIsLoopback now io) ∧
            Untouched c st (wcmdDispatch c st air e.req peerIsLoopback now io)) {} es := by
  have hstep : ∀ l g e, Arming cfg l g → True →
      (gated cfg).wp g ((Listener.machine cfg).step l e) (Arming cfg) :=
    fun _ _ e h _ => arming_step h e
  refine ⟨(Machine.run_wp hstep (arming_boot cfg) (Machine.Meets.of_forall fun _ _ => trivial)).1, ?_⟩
  refine Machine.Meets.of_forall ?_
  intro l e hacc c st air peerIsLoopback now io
  have hadm := recovery_not_command hacc c peerIsLoopback
  exact ⟨wcmdDispatch_turnedAway _ _ _ _ _ hadm, wcmdDispatch_untouched _ _ _ _ _ hadm⟩

end Waybeam.Vehicle
