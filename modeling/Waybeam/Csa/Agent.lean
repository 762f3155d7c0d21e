/-
# `Waybeam.Csa.Agent` — the receiver of channel switch announcements

A `csa_commit` frame names a session, a target and the time until the switch.  The receiver
arms, switches when its clock reaches the deadline, and goes back unless something is heard
on the new channel before a second deadline:

    IDLE --commit--> ARMED --T_switch--> VERIFY --heard--> IDLE
                       ^                   |
                       +--- newer commit --+--deadline: revert--> IDLE

The frame is one line of JSON, read by a search for `"key":` anywhere in the line.  The
receiver is driven by three calls, in any order: `csaFeed`, `csaLinkAlive`, `csaTick`, each
with the caller's clock.  Times are `long long` milliseconds.
-/
import Waybeam.Machine
import Waybeam.Numeric
import Waybeam.Text

namespace Waybeam.Csa

open Text

/-- `long long` arithmetic: the value modulo 2^64. -/
def i64 (l : ℤ) : ℤ := Int.bmod l (2 ^ 64)

theorem i64_of_inI64 {l : ℤ} (h : InI64 l) : i64 l = l := by
  obtain ⟨h0, h1⟩ := h
  exact Int.bmod_eq_of_le (by omega) (by omega)

/-! ## Fields of a frame -/

/-- `"`, spaces and a colon after a key: the value starts behind. -/
def afterKey : Bytes → Option Bytes
  | '"' :: q =>
      match q.dropWhile (· = ' ') with
      | ':' :: value => some value
      | _ => none
  | _ => none

/-- `find_key` from a place in the line, with the character before it; `skip` characters of
a key that matched but was none are passed over. -/
def findKeyFrom (key : Bytes) : Option Char → ℕ → Bytes → Option Bytes
  | _, _, [] => none
  | _, skip + 1, c :: p => findKeyFrom key (some c) skip p
  | before, 0, c :: p =>
      if key.isPrefixOf (c :: p) then
        match if before = some '"' then afterKey ((c :: p).drop key.length) else none with
        | some value => some value
        | none => findKeyFrom key (some c) (key.length - 1) p
      else findKeyFrom key (some c) 0 p

/-- `find_key` -/
def findKey (buf key : Bytes) : Option Bytes := findKeyFrom key none 0 buf

/-- `get_str` into a buffer with room for `room` characters. -/
def getStr (buf key : Bytes) (room : ℕ) : Option Bytes :=
  match (findKey buf key).map (·.dropWhile (· = ' ')) with
  | some ('"' :: p) => some ((p.takeWhile (· ≠ '"')).take room)
  | _ => none

/-- `get_int` -/
def getInt (buf key : Bytes) : Option ℤ :=
  match (findKey buf key).map (·.dropWhile (· = ' ')) with
  | some p => (strtoll p).map Prod.fst
  | none => none

/-- What `on_commit` reads from a frame. -/
structure Commit where
  sess : ℤ
  seq : ℤ
  dt : ℤ
  tRevert : ℤ
  targetChan : ℤ
  prevChan : ℤ
  targetHt : Bytes
  prevHt : Bytes
  deriving DecidableEq, Repr

/-- The fields and their defaults; `none` where a field without one is missing. -/
def Commit.parse (buf : Bytes) : Option Commit := do
  let sess ← getInt buf "sess".toList
  let dt ← getInt buf "dt_to_switch_ms".toList
  let targetChan ← getInt buf "target_chan".toList
  return {
    sess, dt, targetChan
    seq := (getInt buf "seq".toList).getD 0
    tRevert := (getInt buf "t_revert_ms".toList).getD 3000
    prevChan := (getInt buf "prev_chan".toList).getD 0
    targetHt := (getStr buf "target_ht".toList 7).getD "HT20".toList
    prevHt := (getStr buf "prev_ht".toList 7).getD "HT20".toList }

/-! ## State -/

/-- `CsaCfg` without the interface: an agent has one. -/
structure CsaCfg where
  allowChan : List ℤ := []
  allowBw : List Bytes := []
  cooldownMs : ℤ := 2000
  noRevert : Bool := false

/-- `chan_ok` -/
def CsaCfg.chanOk (cfg : CsaCfg) (chan : ℤ) : Bool :=
  cfg.allowChan.isEmpty || cfg.allowChan.contains chan

/-- `bw_ok` -/
def CsaCfg.bwOk (cfg : CsaCfg) (bw : Bytes) : Bool :=
  cfg.allowBw.isEmpty || cfg.allowBw.contains bw

inductive CsaPhase where
  | idle
  | armed
  | verify
  deriving DecidableEq, Repr

/-- `CsaState`, as `csa_init` leaves it. -/
structure CsaState where
  st : CsaPhase := .idle
  sess : ℤ := 0
  tSwitchMs : ℤ := 0
  /-- a duration while ARMED, a deadline in VERIFY -/
  tRevertMs : ℤ := 0
  targetChan : ℤ := 0
  prevChan : ℤ := 0
  targetHt : Bytes := []
  prevHt : Bytes := []
  /-- `-1` before the first hop -/
  lastSwitchMs : ℤ := -1
  deriving DecidableEq, Repr

/-- What reaches the state machine and what it does, in order. -/
inductive Obs where
  /-- a commit frame that passed the guards -/
  | commit (f : Commit)
  /-- a datagram of any other kind -/
  | linkAlive
  /-- the frame was armed -/
  | armed (f : Commit) (now : ℤ)
  /-- `csa_run_iw` at T_switch -/
  | switched (chan : ℤ) (ht : Bytes) (now : ℤ)
  /-- and at the revert deadline -/
  | reverted (chan : ℤ) (ht : Bytes) (now : ℤ)
  deriving DecidableEq, Repr

/-! ## The three calls -/

/-- The guards every commit frame passes before it is looked at. -/
def CsaCfg.admits (cfg : CsaCfg) (f : Commit) : Bool :=
  1 ≤ f.targetChan && f.targetChan ≤ 200 && cfg.chanOk f.targetChan && cfg.bwOk f.targetHt

namespace CsaState

/-- A session is refused while the last hop is too recent. -/
def cooling (s : CsaState) (cfg : CsaCfg) (now : ℤ) : Bool :=
  0 < cfg.cooldownMs && 0 ≤ s.lastSwitchMs && now - s.lastSwitchMs < cfg.cooldownMs

/-- The session of `f`, armed. -/
def arm (s : CsaState) (f : Commit) (now : ℤ) : CsaState :=
  { s with
    st := .armed, sess := f.sess, tSwitchMs := i64 (now + f.dt), tRevertMs := f.tRevert
    targetChan := f.targetChan, prevChan := i32 f.prevChan
    targetHt := f.targetHt, prevHt := f.prevHt }

/-- `on_commit`, for the fields of the frame. -/
def onCommit (s : CsaState) (cfg : CsaCfg) (f : Commit) (now : ℤ) : CsaState × List Obs :=
  if !cfg.admits f then (s, [])
  else if s.st = .verify ∧ f.sess = s.sess then ({ s with st := .idle }, [.commit f])
  else if s.st = .idle ∨ s.sess < f.sess then
    if s.cooling cfg now then (s, [.commit f]) else (s.arm f now, [.commit f, .armed f now])
  -- the session's own frames while it is armed are only logged
  else (s, [.commit f])

/-- `on_commit` arms the frame. -/
def Arms (s : CsaState) (cfg : CsaCfg) (f : Commit) (now : ℤ) : Prop :=
  cfg.admits f ∧ ¬(s.st = .verify ∧ f.sess = s.sess) ∧ (s.st = .idle ∨ s.sess < f.sess) ∧
    s.cooling cfg now = false

instance (s : CsaState) (cfg : CsaCfg) (f : Commit) (now : ℤ) : Decidable (s.Arms cfg f now) :=
  inferInstanceAs (Decidable (_ ∧ _ ∧ _ ∧ _))

/-- `csa_feed` of one datagram: whether it was consumed, and the rest. -/
def csaFeed (s : CsaState) (cfg : CsaCfg) (buf : Bytes) (now : ℤ) : Bool × CsaState × List Obs :=
  let buf := cstr buf
  match getStr buf "type".toList 31 with
  | none => (false, s, [])
  | some type =>
      if !"csa_".toList.isPrefixOf type then (false, s, [])
      else if !"csa_commit".toList.isPrefixOf type then (true, s, [])
      else
        match Commit.parse buf with
        | none => (true, s, [])
        | some f => (true, s.onCommit cfg f now)

/-- `csa_link_alive` -/
def csaLinkAlive (s : CsaState) : CsaState × List Obs :=
  match s.st with
  | .verify => ({ s with st := .idle }, [.linkAlive])
  | _ => (s, [.linkAlive])

/-- `csa_tick` -/
def csaTick (s : CsaState) (cfg : CsaCfg) (now : ℤ) : CsaState × List Obs :=
  match s.st with
  | .idle => (s, [])
  | .armed =>
      if s.tSwitchMs ≤ now then
        ({ s with
            st := if cfg.noRevert then .idle else .verify
            tRevertMs := if cfg.noRevert then s.tRevertMs else i64 (now + s.tRevertMs)
            lastSwitchMs := now },
          [.switched s.targetChan s.targetHt now])
      else (s, [])
  | .verify =>
      if s.tRevertMs ≤ now then
        ({ s with st := .idle, lastSwitchMs := now }, [.reverted s.prevChan s.prevHt now])
      else (s, [])

/-- What `csa_tick` returns, of the state it leaves: the next deadline, 0 for none. -/
def nextDeadline (s : CsaState) : ℤ :=
  match s.st with
  | .idle => 0
  | .armed => s.tSwitchMs
  | .verify => s.tRevertMs

end CsaState

/-! ## The agent -/

/-- One of the three calls. -/
inductive Call where
  | feed (buf : Bytes)
  | linkAlive
  | tick
  deriving DecidableEq

/-- A call and the clock it is made at. -/
structure Event where
  now : ℤ
  call : Call

/-- The agent between two calls, and the clock of the last. -/
structure Agent where
  csa : CsaState := {}
  clock : ℤ := 0

/-- One call. -/
def Agent.step (cfg : CsaCfg) (a : Agent) (e : Event) : Agent × List Obs :=
  let r := match e.call with
    | .feed buf => (a.csa.csaFeed cfg buf e.now).2
    | .linkAlive => a.csa.csaLinkAlive
    | .tick => a.csa.csaTick cfg e.now
  (⟨r.1, e.now⟩, r.2)

/-- The agent as a machine over its calls. -/
def machine (cfg : CsaCfg) : Machine Agent Event Obs := ⟨Agent.step cfg⟩

/-- The clock does not run backwards. -/
def Monotone (a : Agent) (e : Event) : Prop := a.clock ≤ e.now

/-! ## What a call can do -/

/-- The commit frame in a datagram. -/
def frameOf (buf : Bytes) : Option Commit :=
  match getStr (cstr buf) "type".toList 31 with
  | none => none
  | some type => if "csa_commit".toList.isPrefixOf type then Commit.parse (cstr buf) else none

/-- The first frame of a session from channel 161 to 149, as it is sent. -/
def sampleFrame (sess : ℕ) : Bytes :=
  "\x7b\"type\":\"csa_commit\",\"ver\":1,\"sess\":".toList ++ decimal sess ++
    ",\"seq\":0,\"src\":\"ground\",\"target_chan\":149,\"target_ht\":\"HT20\",".toList ++
    "\"dt_to_switch_ms\":500,\"t_revert_ms\":3000,\"prev_chan\":161,".toList ++
    "\"prev_ht\":\"HT40+\"\x7d\n".toList

example : frameOf (sampleFrame 7) = some {
    sess := 7, seq := 0, dt := 500, tRevert := 3000, targetChan := 149, prevChan := 161
    targetHt := "HT20".toList, prevHt := "HT40+".toList } := by decide +kernel

/-- The commit frame a call brings, if any. -/
def Call.frame : Call → Option Commit
  | .feed buf => frameOf buf
  | .linkAlive => none
  | .tick => none

theorem csa_isPrefixOf {type : Bytes} (h : "csa_commit".toList.isPrefixOf type) :
    "csa_".toList.isPrefixOf type := by
  rw [List.isPrefixOf_iff_prefix] at h ⊢
  exact List.IsPrefix.trans ⟨"commit".toList, rfl⟩ h

/-- A datagram changes something only where it holds a commit frame. -/
theorem csaFeed_eq (s : CsaState) (cfg : CsaCfg) (buf : Bytes) (now : ℤ) :
    (s.csaFeed cfg buf now).2
      = match frameOf buf with
        | some f => s.onCommit cfg f now
        | none => (s, []) := by
  simp only [CsaState.csaFeed, frameOf]
  cases getStr (cstr buf) "type".toList 31 with
  | none => rfl
  | some type =>
      by_cases hc : "csa_commit".toList.isPrefixOf type
      · simp only [csa_isPrefixOf hc, hc, Bool.not_true, Bool.false_eq_true, if_false, if_true]
        cases Commit.parse (cstr buf) <;> rfl
      · simp only [hc, Bool.not_false, if_true, Bool.false_eq_true, if_false]
        split <;> rfl

/-- Everything a call can do to the state machine, with the conditions under which it does. -/
inductive Moves (cfg : CsaCfg) (s : CsaState) (e : Event) : CsaState → List Obs → Prop
  | rest : Moves cfg s e s []
  | commit (f : Commit) (hf : e.call.frame = some f) (ha : cfg.admits f)
      (hs : s.st = .verify → f.sess ≠ s.sess) :
      Moves cfg s e s [.commit f]
  | heardCommit (f : Commit) (hf : e.call.frame = some f) (ha : cfg.admits f)
      (hst : s.st = .verify) (hs : f.sess = s.sess) :
      Moves cfg s e { s with st := .idle } [.commit f]
  | arm (f : Commit) (hf : e.call.frame = some f) (ha : cfg.admits f)
      (hst : s.st = .idle ∨ s.sess < f.sess) (hc : s.cooling cfg e.now = false) :
      Moves cfg s e (s.arm f e.now) [.commit f, .armed f e.now]
  | alive (hst : s.st ≠ .verify) : Moves cfg s e s [.linkAlive]
  | heard (hst : s.st = .verify) : Moves cfg s e { s with st := .idle } [.linkAlive]
  | switch (he : e.call = .tick) (hst : s.st = .armed) (ht : s.tSwitchMs ≤ e.now)
      (hn : cfg.noRevert = false) :
      Moves cfg s e
        { s with st := .verify, tRevertMs := i64 (e.now + s.tRevertMs), lastSwitchMs := e.now }
        [.switched s.targetChan s.targetHt e.now]
  | stay (he : e.call = .tick) (hst : s.st = .armed) (ht : s.tSwitchMs ≤ e.now)
      (hn : cfg.noRevert) :
      Moves cfg s e { s with st := .idle, lastSwitchMs := e.now }
        [.switched s.targetChan s.targetHt e.now]
  | revert (he : e.call = .tick) (hst : s.st = .verify) (ht : s.tRevertMs ≤ e.now) :
      Moves cfg s e { s with st := .idle, lastSwitchMs := e.now }
        [.reverted s.prevChan s.prevHt e.now]

theorem onCommit_moves (s : CsaState) (cfg : CsaCfg) {f : Commit} {e : Event}
    (hf : e.call.frame = some f) :
    Moves cfg s e (s.onCommit cfg f e.now).1 (s.onCommit cfg f e.now).2 := by
  simp only [CsaState.onCommit]
  cases ha : cfg.admits f with
  | false => exact .rest
  | true =>
      simp only [Bool.not_true, Bool.false_eq_true, if_false]
      split
      · next h => exact .heardCommit f hf ha h.1 h.2
      · next hown =>
          have hs : s.st = .verify → f.sess ≠ s.sess := fun hst hs => hown ⟨hst, hs⟩
          split
          · next h =>
              cases hc : s.cooling cfg e.now with
              | true => exact .commit f hf ha hs
              | false => exact .arm f hf ha h hc
          · exact .commit f hf ha hs

theorem csaLinkAlive_moves (s : CsaState) (cfg : CsaCfg) (e : Event) :
    Moves cfg s e s.csaLinkAlive.1 s.csaLinkAlive.2 := by
  rw [CsaState.csaLinkAlive]
  cases hst : s.st with
  | verify => exact .heard hst
  | idle => exact .alive (by simp [hst])
  | armed => exact .alive (by simp [hst])

theorem csaTick_moves (s : CsaState) (cfg : CsaCfg) {e : Event} (he : e.call = .tick) :
    Moves cfg s e (s.csaTick cfg e.now).1 (s.csaTick cfg e.now).2 := by
  rw [CsaState.csaTick]
  cases hst : s.st with
  | idle => exact .rest
  | armed =>
      dsimp only
      split
      · next ht =>
          cases hn : cfg.noRevert with
          | true => exact .stay he hst ht hn
          | false => exact .switch he hst ht hn
      · exact .rest
  | verify =>
      dsimp only
      split
      · next ht => exact .revert he hst ht
      · exact .rest

/-- One call is one move, at the call's clock. -/
theorem step_moves (cfg : CsaCfg) (a : Agent) (e : Event) :
    Moves cfg a.csa e ((machine cfg).step a e).1.csa ((machine cfg).step a e).2 := by
  cases hcall : e.call with
  | linkAlive =>
      simp only [machine, Agent.step, hcall]
      exact csaLinkAlive_moves ..
  | tick =>
      simp only [machine, Agent.step, hcall]
      exact csaTick_moves _ _ hcall
  | feed buf =>
      simp only [machine, Agent.step, hcall, csaFeed_eq]
      cases hf : frameOf buf with
      | none => exact .rest
      | some f => exact onCommit_moves _ _ (by rw [hcall]; exact hf)

end Waybeam.Csa
