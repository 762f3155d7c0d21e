/-
# `Waybeam.Ground.Cmd` — operator commands over the HTTP API

`/api/v1/cmd?key=..&value=..` puts one command on the air.  The time of the last one sent is
kept for each operator key, in a table of `WCMD_KEY_MAX + 1` entries:

    check    limit on, key in the table: answered 429 if the last one is too recent
    emit     three copies to the uplink; sent if any of them is
    stamp    the entry of the key is now

`return_apfpv` is numbered above the table.  The check leaves it out; the stamp does not, and
what that write hits is the compiler's choice: any state of the globals may follow it.
-/
import Waybeam.Ground.Csa

namespace Waybeam.Ground

open Text

/-! ## Keys -/

/-- `WCMD_KEY_MAX`: the highest operator key, and the last index of the table. -/
def wcmdKeyMax : ℕ := 16

/-- `WCMD_KEY_FORCE_IDR` -/
def wcmdKeyForceIdr : ℕ := 4

/-- `WCMD_KEY_RETURN_APFPV` -/
def wcmdKeyReturnApfpv : ℕ := 20

/-- The names of `wcmd_key_from_str`. -/
def wcmdKeyNames : List (String × ℕ) :=
  [("bitrate_kbps", 1), ("fps", 2), ("payload_bytes", 3), ("force_idr", wcmdKeyForceIdr),
    ("wfb_fec_k", 5), ("wfb_fec_n", 6), ("wfb_mcs", 7), ("wfb_bandwidth", 8), ("wfb_ldpc", 9),
    ("wfb_stbc", 10), ("wfb_short_gi", 11), ("fec_enabled", 12), ("mcs_enabled", 13),
    ("wfb_txpower", 14), ("record", 15), ("peek_enabled", 16),
    ("return_apfpv", wcmdKeyReturnApfpv)]

/-- `wcmd_key_from_str`; `none` for its -1. -/
def wcmdKeyFromStr (s : Bytes) : Option ℕ :=
  (wcmdKeyNames.find? fun p => p.1.toList = s).map (·.2)

theorem wcmdKeyFromStr_range {s : Bytes} {key : ℕ} (h : wcmdKeyFromStr s = some key) :
    1 ≤ key ∧ (key ≤ wcmdKeyMax ∨ key = wcmdKeyReturnApfpv) := by
  have hall : ∀ p ∈ wcmdKeyNames, 1 ≤ p.2 ∧ (p.2 ≤ wcmdKeyMax ∨ p.2 = wcmdKeyReturnApfpv) := by
    decide
  obtain ⟨p, hp, rfl⟩ := Option.map_eq_some_iff.mp h
  exact hall p (List.mem_of_find?_eq_some hp)

/-! ## The handler -/

/-- What `wcmd_emit` meets: `socket`, then `sendto` for each copy (`none` when it is sent). -/
structure EmitIo where
  socketErr : Option ℤ := none
  copyErr : Fin 3 → Option ℤ := fun _ => none

/-- The handler's globals: the table and the counters. -/
structure CmdState where
  /-- `g_wcmd_last_send_ms` -/
  lastSendMs : Fin (wcmdKeyMax + 1) → ℕ := fun _ => 0
  seq : UInt16 := 0
  emitTotal : ℕ := 0
  emitFrames : ℕ := 0
  emitRateLimit : ℕ := 0
  emitFailed : ℕ := 0

/-- A request: the supervisor as it stands, and how long after the last one it comes. -/
structure CmdCall where
  dt : ℕ
  qs : Bytes
  enabled : Bool := true
  sup : Sup
  io : EmitIo := {}
  /-- from the check to the stamp -/
  took : ℕ := 0
  /-- what a write past the end of the table makes of the globals -/
  hit : CmdState → CmdState := id

/-- What a request is answered. -/
inductive CmdAnswer where
  | missingKey
  | badKey
  | needsValue
  /-- 429 -/
  | rateLimited (retryAfterMs : ℤ)
  /-- 503 -/
  | unavailable
  /-- 502 -/
  | sendFailed (errno : ℤ)
  | ok (seq : UInt16) (value : Option ℤ)
  deriving DecidableEq

/-- `wcmd_emit`: the return code is 0, an errno, or -1. -/
def wcmdEmit (st : CmdState) (e : CmdCall) : CmdState × ℤ :=
  if !e.enabled then (st, -1)
  else
    match e.sup.uplink with
    | none => (st, -1)
    | some _ =>
        match e.io.socketErr with
        | some err => (st, err)
        | none =>
            let st := { st with seq := st.seq + 1 }
            let copies := (List.finRange 3).map e.io.copyErr
            let sent := copies.count none
            if 0 < sent then
              ({ st with emitTotal := st.emitTotal + 1, emitFrames := st.emitFrames + sent }, 0)
            else
              let lastErr := (copies.reduceOption.getLast?).getD 0
              ({ st with emitFailed := st.emitFailed + 1 }, if lastErr ≠ 0 then lastErr else -1)

namespace CmdState

variable (st : CmdState)

/-- The entry of a key. -/
def last (key : ℕ) : ℕ :=
  if h : key < wcmdKeyMax + 1 then st.lastSendMs ⟨key, h⟩ else 0

/-- The entry of a key is now, where there is one. -/
def stamp (key now : ℕ) (hit : CmdState → CmdState) : CmdState :=
  if h : key < wcmdKeyMax + 1 then
    { st with lastSendMs := Function.update st.lastSendMs ⟨key, h⟩ now }
  else hit st

/-- The keys the check looks at. -/
def limits (limitMs : ℤ) (key : ℕ) : Bool := 0 < limitMs && 1 ≤ key && key ≤ wcmdKeyMax

/-- The last command of the key is too recent; the time since is narrowed to `int`. -/
def tooSoon (limitMs : ℤ) (key now : ℕ) : Bool :=
  st.last key ≠ 0 && i32 ((now : ℤ) - st.last key) < limitMs

end CmdState

/-- A request served: the key of one that is accepted, when it was checked, the entries of the
table it touched, the answer, and when its command was sent. -/
structure Served where
  key : Option ℕ
  now : ℕ
  indices : List ℕ := []
  answer : CmdAnswer
  sentMs : Option ℕ := none

/-- The key and the value a request asks for, or why it is refused. -/
def cmdParse (qs : Bytes) : Except CmdAnswer (ℕ × ℤ) :=
  match qsGet qs "key".toList with
  | none => .error .missingKey
  | some name =>
      match wcmdKeyFromStr name with
      | none => .error .badKey
      | some key =>
          match qsGetInt qs "value".toList with
          | some v => .ok (key, v)
          | none =>
              if key ≠ wcmdKeyForceIdr ∧ key ≠ wcmdKeyReturnApfpv then .error .needsValue
              else .ok (key, 0)

theorem cmdParse_range {qs : Bytes} {key : ℕ} {value : ℤ} (h : cmdParse qs = .ok (key, value)) :
    1 ≤ key ∧ (key ≤ wcmdKeyMax ∨ key = wcmdKeyReturnApfpv) := by
  rw [cmdParse] at h
  split at h
  · cases h
  split at h
  · cases h
  next hkey =>
  split at h
  · cases h
    exact wcmdKeyFromStr_range hkey
  · split at h
    · cases h
    · cases h
      exact wcmdKeyFromStr_range hkey

/-- Past the check: emit, and stamp what was sent. -/
def cmdSend (st : CmdState) (key : ℕ) (value : ℤ) (now : ℕ) (checked : List ℕ) (e : CmdCall) :
    CmdState × Served :=
  let (st, rc) := wcmdEmit st e
  if rc = -1 then (st, { key, now, indices := checked, answer := .unavailable })
  else if rc ≠ 0 then (st, { key, now, indices := checked, answer := .sendFailed rc })
  else
    (st.stamp key (now + e.took) e.hit,
      { key, now, indices := checked ++ [key], sentMs := some (now + e.took)
        answer := .ok st.seq (if key = wcmdKeyForceIdr then none else some value) })

/-- `/api/v1/cmd` at the time of the check. -/
def cmdRequest (limitMs : ℤ) (st : CmdState) (now : ℕ) (e : CmdCall) : CmdState × Served :=
  match cmdParse e.qs with
  | .error answer => (st, { key := none, now, answer })
  | .ok (key, value) =>
      if CmdState.limits limitMs key then
        if st.tooSoon limitMs key now then
          ({ st with emitRateLimit := st.emitRateLimit + 1 },
            { key, now, indices := [key]
              answer := .rateLimited (limitMs - i32 ((now : ℤ) - st.last key)) })
        else cmdSend st key value now [key] e
      else cmdSend st key value now [] e

/-! ## Runs of requests -/

/-- The handler between two requests. -/
structure CmdProxy where
  st : CmdState := {}
  clock : ℕ

/-- A request, checked `dt` after the last one was done. -/
def CmdProxy.step (limitMs : ℤ) (p : CmdProxy) (e : CmdCall) : CmdProxy × List Served :=
  let (st, served) := cmdRequest limitMs p.st (p.clock + e.dt) e
  (⟨st, p.clock + e.dt + e.took⟩, [served])

def CmdProxy.machine (limitMs : ℤ) : Machine CmdProxy CmdCall Served := ⟨CmdProxy.step limitMs⟩

/-- The commands sent so far and when, the newest first. -/
abbrev SentLog := List (ℕ × ℕ)

def SentLog.upd (g : SentLog) (o : Served) : SentLog :=
  match o.key, o.sentMs with
  | some key, some t => (key, t) :: g
  | _, _ => g

/-- A command of the key was sent less than the limit before. -/
def SentLog.recent (g : SentLog) (limitMs : ℤ) (key now : ℕ) : Bool :=
  g.any fun a => a.1 = key && (now : ℤ) - a.2 < limitMs

def CmdAnswer.isRateLimited : CmdAnswer → Bool
  | .rateLimited _ => true
  | _ => false

/-- The table is touched inside its bounds only, and under a limit an accepted request is answered
429 iff a command of its key was sent less than the limit before. -/
def limitedOk (limitMs : ℤ) (g : SentLog) (o : Served) : Bool :=
  o.indices.all (· ≤ wcmdKeyMax) &&
    (!decide (0 < limitMs) || o.key.all fun key => o.answer.isRateLimited = g.recent limitMs key o.now)

def limited (limitMs : ℤ) : Monitor Served SentLog := ⟨SentLog.upd, limitedOk limitMs⟩

/-- The same of every key but `return_apfpv`, which the limit leaves out. -/
def limitedOperator (limitMs : ℤ) : Monitor Served SentLog where
  upd := SentLog.upd
  ok g o :=
    if o.key = some wcmdKeyReturnApfpv then !o.answer.isRateLimited else limitedOk limitMs g o

/-! ## What a request does -/

/-- A stamp is read back under its key, and nothing else changes. -/
theorem CmdState.last_stamp (st : CmdState) {key k : ℕ} (hkey : key ≤ wcmdKeyMax)
    (hk : k ≤ wcmdKeyMax) (now : ℕ) (hit : CmdState → CmdState) :
    (st.stamp key now hit).last k = if k = key then now else st.last k := by
  have hlt : k < wcmdKeyMax + 1 := Nat.lt_succ_of_le hk
  rw [CmdState.stamp, dif_pos (Nat.lt_succ_of_le hkey), CmdState.last, CmdState.last, dif_pos hlt,
    dif_pos hlt]
  by_cases he : k = key
  · subst he
    rw [if_pos rfl]
    exact Function.update_self ..
  · rw [if_neg he]
    exact Function.update_of_ne (fun hf => he (Fin.mk.inj hf)) ..

/-- Emitting leaves the table. -/
theorem wcmdEmit_lastSendMs (st : CmdState) (e : CmdCall) :
    (wcmdEmit st e).1.lastSendMs = st.lastSendMs := by
  rw [wcmdEmit]
  split
  · rfl
  split
  · rfl
  split
  · rfl
  dsimp only
  split <;> rfl

/-- Past the check a request is not answered 429; its command was sent and stamped, or neither. -/
theorem cmdSend_spec (st : CmdState) (key : ℕ) (value : ℤ) (now : ℕ) (checked : List ℕ)
    (e : CmdCall) : ∃ st' o, cmdSend st key value now checked e = (st', o) ∧ o.key = some key ∧
      o.now = now ∧ o.answer.isRateLimited = false ∧
      ((o.indices = checked ∧ o.sentMs = none ∧ ∀ k, st'.last k = st.last k) ∨
        (o.indices = checked ++ [key] ∧ o.sentMs = some (now + e.took) ∧
          (key ≤ wcmdKeyMax →
            ∀ k ≤ wcmdKeyMax, st'.last k = if k = key then now + e.took else st.last k))) := by
  have htable : ∀ k, (wcmdEmit st e).1.last k = st.last k := by
    intro k
    rw [CmdState.last, CmdState.last, wcmdEmit_lastSendMs]
  rw [cmdSend]
  generalize wcmdEmit st e = r at htable
  obtain ⟨st', rc⟩ := r
  dsimp only at htable ⊢
  by_cases hgone : rc = -1
  · rw [if_pos hgone]
    exact ⟨_, _, rfl, rfl, rfl, rfl, .inl ⟨rfl, rfl, htable⟩⟩
  rw [if_neg hgone]
  by_cases hfail : rc ≠ 0
  · rw [if_pos hfail]
    exact ⟨_, _, rfl, rfl, rfl, rfl, .inl ⟨rfl, rfl, htable⟩⟩
  rw [if_neg hfail]
  refine ⟨_, _, rfl, rfl, rfl, rfl, .inr ⟨rfl, rfl, ?_⟩⟩
  intro hkey k hk
  rw [CmdState.last_stamp _ hkey hk, htable]

/-! ## The table and the log -/

/-- When the last command of a key was sent. -/
def SentLog.last (g : SentLog) (key : ℕ) : Option ℕ := (g.find? fun a => a.1 = key).map (·.2)

/-- The table holds the last times of the log, which is in order and past. -/
structure TableAgrees (p : CmdProxy) (g : SentLog) : Prop where
  entry : ∀ key ≤ wcmdKeyMax, p.st.last key = (g.last key).getD 0
  order : g.Pairwise fun a b => b.2 ≤ a.2
  past : ∀ a ∈ g, a.2 ≤ p.clock

theorem tableAgrees_boot (clock : ℕ) : TableAgrees { clock } [] where
  entry key h := by
    rw [CmdState.last, dif_pos (Nat.lt_succ_of_le h)]
    rfl
  order := List.Pairwise.nil
  past _ h := absurd h List.not_mem_nil

theorem SentLog.last_cons (g : SentLog) (key k t : ℕ) :
    SentLog.last ((key, t) :: g) k = if k = key then some t else g.last k := by
  rw [SentLog.last, List.find?_cons]
  by_cases h : k = key
  · subst h
    simp
  · rw [if_neg h, decide_eq_false (fun he => h he.symm)]
    rfl

/-- The table agrees as long as nothing was written past its end. -/
def TableSound (p : CmdProxy) (g : SentLog) : Prop :=
  g.last wcmdKeyReturnApfpv = none → TableAgrees p g

/-- A command of the key was sent less than the limit before iff the last one was. -/
theorem SentLog.recent_iff {g : SentLog} (h : g.Pairwise fun a b => b.2 ≤ a.2) (limitMs : ℤ)
    (key now : ℕ) :
    g.recent limitMs key now = true ↔ ∃ t, g.last key = some t ∧ (now : ℤ) - t < limitMs := by
  induction g with
  | nil => simp [SentLog.recent, SentLog.last]
  | cons a g ih =>
      obtain ⟨k, t⟩ := a
      obtain ⟨hnewest, hrest⟩ := List.pairwise_cons.mp h
      have hany : SentLog.recent ((k, t) :: g) limitMs key now = true ↔
          (k = key ∧ (now : ℤ) - t < limitMs) ∨ SentLog.recent g limitMs key now = true := by
        rw [SentLog.recent, List.any_cons, Bool.or_eq_true, Bool.and_eq_true, decide_eq_true_eq,
          decide_eq_true_eq]
        rfl
      rw [hany, SentLog.last_cons]
      by_cases hk : key = k
      · subst hk
        rw [if_pos rfl]
        simp only [true_and, Option.some.injEq, exists_eq_left', or_iff_left_iff_imp]
        -- an older command of the key is further back
        intro hold
        obtain ⟨b, hb, hlast⟩ := List.any_eq_true.mp hold
        have hle := hnewest b hb
        simp only [Bool.and_eq_true, decide_eq_true_eq] at hlast
        omega
      · rw [if_neg hk, ← ih hrest]
        simp [Ne.symm hk]

theorem TableAgrees.same {p p' : CmdProxy} {g : SentLog} (h : TableAgrees p g)
    (hs : ∀ k, p'.st.last k = p.st.last k) (hc : p.clock ≤ p'.clock) : TableAgrees p' g where
  entry key hk := (hs key).trans (h.entry key hk)
  order := h.order
  past a ha := (h.past a ha).trans hc

theorem TableAgrees.stamp {p p' : CmdProxy} {g : SentLog} (h : TableAgrees p g) {key : ℕ}
    (hs : ∀ k ≤ wcmdKeyMax, p'.st.last k = if k = key then p'.clock else p.st.last k)
    (hc : p.clock ≤ p'.clock) : TableAgrees p' ((key, p'.clock) :: g) where
  entry k hk := by
    rw [hs k hk, SentLog.last_cons]
    split
    · rfl
    · exact h.entry k hk
  order := List.pairwise_cons.mpr ⟨fun a ha => (h.past a ha).trans hc, h.order⟩
  past a ha := by
    rcases List.mem_cons.mp ha with rfl | hold
    · exact le_rfl
    · exact (h.past a hold).trans hc

/-! ## The limit over a run -/

/-- No `return_apfpv` has been sent, and the last command of the request's key was sent at a time
the check can read: not at 0, and less than 2^31 ms ago. -/
def Readable (pg : CmdProxy × SentLog) (e : CmdCall) : Prop :=
  pg.2.last wcmdKeyReturnApfpv = none ∧
    ∀ asked ∈ (cmdParse e.qs).toOption, ∀ t ∈ pg.2.last asked.1,
      t ≠ 0 ∧ ((pg.1.clock + e.dt : ℕ) : ℤ) - t < 2 ^ 31

instance (pg : CmdProxy × SentLog) (e : CmdCall) : Decidable (Readable pg e) :=
  inferInstanceAs (Decidable (_ ∧ ∀ asked ∈ (cmdParse e.qs).toOption, ∀ t ∈ pg.2.last asked.1,
    t ≠ 0 ∧ ((pg.1.clock + e.dt : ℕ) : ℤ) - t < 2 ^ 31))

/-- What the check says of a key whose last time it can read. -/
theorem TableAgrees.tooSoon_iff {p : CmdProxy} {g : SentLog} (h : TableAgrees p g) (limitMs : ℤ)
    {key now : ℕ} (hk : key ≤ wcmdKeyMax) (hnow : p.clock ≤ now)
    (hread : ∀ t ∈ g.last key, t ≠ 0 ∧ (now : ℤ) - t < 2 ^ 31) :
    p.st.tooSoon limitMs key now = g.recent limitMs key now := by
  rw [Bool.eq_iff_iff, SentLog.recent_iff h.order, CmdState.tooSoon, h.entry key hk]
  cases hlast : g.last key with
  | none => simp
  | some t =>
      obtain ⟨hne, hnear⟩ := hread t hlast
      have hpast : t ≤ p.clock := by
        obtain ⟨a, ha, rfl⟩ := Option.map_eq_some_iff.mp hlast
        exact h.past a (List.mem_of_find?_eq_some ha)
      rw [Option.getD_some, i32_of_range (by omega)]
      simp [hne]

theorem limitedOk_iff {limitMs : ℤ} {g : SentLog} {o : Served} :
    limitedOk limitMs g o = true ↔ (∀ i ∈ o.indices, i ≤ wcmdKeyMax) ∧
      (0 < limitMs → ∀ key, o.key = some key →
        o.answer.isRateLimited = g.recent limitMs key o.now) := by
  rw [limitedOk, Bool.and_eq_true, List.all_eq_true]
  refine and_congr (by simp) ?_
  rw [Bool.or_eq_true, Bool.not_eq_true', decide_eq_false_iff_not, ← imp_iff_not_or]
  refine imp_congr_right ?_
  intro _
  cases o.key <;> simp

/-- What is demanded of a request for an operator key. -/
theorem limitedOperator_ok {limitMs : ℤ} {g : SentLog} {o : Served} {key : ℕ}
    (hkey : o.key = some key) (hle : key ≤ wcmdKeyMax) (hidx : ∀ i ∈ o.indices, i = key)
    (hans : 0 < limitMs → o.answer.isRateLimited = g.recent limitMs key o.now) :
    (limitedOperator limitMs).ok g o = true := by
  have hne : o.key ≠ some wcmdKeyReturnApfpv := by
    intro he
    rw [hkey, Option.some.injEq, wcmdKeyReturnApfpv] at he
    rw [wcmdKeyMax] at hle
    omega
  refine (if_neg hne).trans (limitedOk_iff.mpr ⟨?_, ?_⟩)
  · intro i hi
    rw [hidx i hi]
    exact hle
  · intro hpos k hk
    obtain rfl : key = k := Option.some.inj (hkey.symm.trans hk)
    exact hans hpos

/-- A command sent past the check, where no command of its key is recent. -/
theorem cmdSend_limited {limitMs : ℤ} {p : CmdProxy} {g : SentLog} {e : CmdCall} {key : ℕ}
    (h : TableAgrees p g) (value : ℤ) {checked : List ℕ} (hck : ∀ i ∈ checked, i = key)
    (hkey : key ≤ wcmdKeyMax ∨ key = wcmdKeyReturnApfpv)
    (hlate : 0 < limitMs → key ≤ wcmdKeyMax → g.recent limitMs key (p.clock + e.dt) = false) :
    (limitedOperator limitMs).wp g
      (⟨(cmdSend p.st key value (p.clock + e.dt) checked e).1, p.clock + e.dt + e.took⟩,
        [(cmdSend p.st key value (p.clock + e.dt) checked e).2]) TableSound := by
  obtain ⟨st', o, heq, hok, hon, hans, hdone⟩ :=
    cmdSend_spec p.st key value (p.clock + e.dt) checked e
  have hclock : p.clock ≤ p.clock + e.dt + e.took := by omega
  have hindex : ∀ i ∈ o.indices, i = key := by
    rcases hdone with ⟨hidx, -, -⟩ | ⟨hidx, -, -⟩
    · rw [hidx]
      exact hck
    · rw [hidx]
      intro i hi
      rcases List.mem_append.mp hi with hi | hi
      · exact hck i hi
      · exact List.mem_singleton.mp hi
  rw [heq]
  refine wp_emit ?_ ?_
  · rcases hkey with hle | rfl
    · refine limitedOperator_ok hok hle hindex ?_
      intro hpos
      rw [hans, hon, hlate hpos hle]
    · refine (if_pos hok).trans ?_
      rw [hans]
      rfl
  · show TableSound _ (g.upd o)
    rw [SentLog.upd, hok]
    rcases hdone with ⟨-, hsent, htable⟩ | ⟨-, hsent, htable⟩
    · rw [hsent]
      exact fun _ => h.same htable hclock
    · rw [hsent]
      intro hnone
      rcases hkey with hle | rfl
      · exact h.stamp (htable hle) hclock
      · rw [SentLog.last_cons, if_pos rfl] at hnone
        cases hnone

theorem step_limited {limitMs : ℤ} {p : CmdProxy} {g : SentLog} {e : CmdCall} (hs : TableSound p g)
    (hread : Readable (p, g) e) :
    (limitedOperator limitMs).wp g (p.step limitMs e) TableSound := by
  have h : TableAgrees p g := hs hread.1
  have hclock : p.clock ≤ p.clock + e.dt + e.took := by omega
  rw [CmdProxy.step, cmdRequest]
  cases hparse : cmdParse e.qs with
  | error answer =>
      have hok : limitedOk limitMs g { key := none, now := p.clock + e.dt, answer } = true :=
        limitedOk_iff.mpr ⟨fun _ hi => absurd hi List.not_mem_nil, fun _ _ hk => by cases hk⟩
      exact wp_emit hok fun _ => h.same (fun _ => rfl) hclock
  | ok asked =>
      obtain ⟨key, value⟩ := asked
      obtain ⟨hpos, hrange⟩ := cmdParse_range hparse
      dsimp only
      by_cases hl : CmdState.limits limitMs key
      · rw [if_pos hl]
        simp only [CmdState.limits, Bool.and_eq_true, decide_eq_true_eq] at hl
        have hsoon := h.tooSoon_iff limitMs hl.2 (Nat.le_add_right p.clock e.dt) (hread.2 (key, value) (by rw [hparse]; rfl))
        cases hc : p.st.tooSoon limitMs key (p.clock + e.dt) with
        | true =>
            rw [if_pos rfl]
            refine wp_emit (limitedOperator_ok rfl hl.2 (fun _ => List.mem_singleton.mp) ?_)
              fun _ => h.same (fun _ => rfl) hclock
            intro _
            rw [← hsoon, hc]
            rfl
        | false =>
            rw [if_neg Bool.false_ne_true]
            refine cmdSend_limited h value (fun _ => List.mem_singleton.mp) hrange ?_
            intro _ _
            rw [← hsoon, hc]
      · rw [if_neg hl]
        refine cmdSend_limited h value (fun _ hi => absurd hi List.not_mem_nil) hrange ?_
        intro hlimit hle
        simp [CmdState.limits, hlimit, hpos, hle] at hl

/-- A supervisor with an uplink. -/
def uplinkStation : Sup where
  tunnels := [{ name := "uplink", role := .tx, udpInPort := 5801 }]
  vencCmdUplink := "uplink"

/-- Two requests for one key, the second too soon, and one for another. -/
def operatorCalls : List CmdCall :=
  [{ dt := 0, qs := "key=fps&value=60".toList, sup := uplinkStation },
    { dt := 20, qs := "key=fps&value=90".toList, sup := uplinkStation },
    { dt := 5, qs := "key=force_idr".toList, sup := uplinkStation }]

/-- Two `return_apfpv` within the limit. -/
def apfpvCalls : List CmdCall :=
  [{ dt := 0, qs := "key=return_apfpv".toList, sup := uplinkStation },
    { dt := 20, qs := "key=return_apfpv".toList, sup := uplinkStation }]

/-- A key asked for again 25 days later. -/
def returningCalls : List CmdCall :=
  [{ dt := 0, qs := "key=fps&value=60".toList, sup := uplinkStation },
    { dt := 2 ^ 31, qs := "key=fps&value=60".toList, sup := uplinkStation }]

/-- A key asked for twice from the first millisecond of the clock on. -/
def earlyCalls : List CmdCall :=
  [{ dt := 0, qs := "key=fps&value=60".toList, sup := uplinkStation },
    { dt := 20, qs := "key=fps&value=60".toList, sup := uplinkStation }]

end Waybeam.Ground
