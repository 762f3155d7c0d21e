/-
# `Waybeam.Vehicle.Reply` — what a duplicate is answered

The reply fields of the dispatcher are one pair for all keys, and the head of every dispatch
resets them: `last_value` becomes the value on the wire, `last_http_status` becomes 0.  A
duplicate behind the allow mask is answered from them.

    original        OK, the HTTP status of its round trip, the value after the clamp
    duplicate       OK, 0, the value of the duplicate before the clamp

So the two agree where the clamp changes nothing and there is no HTTP status to report
(`duplicate_reply_iff`).
-/
import Waybeam.Vehicle.Rate

namespace Waybeam.Vehicle

/-! ## The replies of a run -/

/-- The end of a dispatch with its reply: the slot was taken, matched, or neither. -/
inductive Reply where
  | took (e : Arrival) (resp : WcmdResp)
  | coalesced (req : WcmdReq) (resp : WcmdResp)
  | refused

/-- A frame and what the dispatcher answers it. -/
def Proxy.answer (p : Proxy) (e : Arrival) : Proxy × List Reply :=
  let o := p.out e
  let reply : Reply :=
    if o.st.accepted ≠ p.st.accepted ∨ hookFailed e.req o.resp.status then .took e o.resp
    else if o.st.coalescedBurst ≠ p.st.coalescedBurst then .coalesced e.req o.resp
    else .refused
  (⟨o.st, p.clock + e.dt⟩, [reply])

def Proxy.replies : Machine Proxy Arrival Reply := ⟨Proxy.answer⟩

/-- The applications so far with their replies, the newest first; a hook that failed is one. -/
abbrev Answered := List (Arrival × WcmdResp)

/-- The frame applied last under a key byte. -/
def Answered.last (g : Answered) (byte : UInt8) : Option (Arrival × WcmdResp) :=
  g.find? fun a => a.1.req.key = byte

/-- The application of a command: the last one under its key and number. -/
def Answered.original (g : Answered) (req : WcmdReq) : Option (Arrival × WcmdResp) :=
  g.find? fun a => a.1.req.key = req.key && a.1.req.seq = req.seq

/-- A duplicate is answered as the application of its command was. -/
def faithful : Monitor Reply Answered where
  upd g
    | .took e resp => (e, resp) :: g
    | _ => g
  ok g
    | .coalesced req resp => (g.original req).any fun a => a.2 = resp
    | _ => true

/-! ## The two replies -/

/-- The reply to a duplicate. -/
def wcmdDupReply (key : WcmdKey) (raw : ℤ) : WcmdResp :=
  ⟨.ok, 0, if key = .logControl then if raw ≠ 0 then 1 else 0 else raw⟩

theorem wcmdDispatch_dup {cfg : Config} {st : WcmdState} {air : RadioBody} {req : WcmdReq}
    {peerIsLoopback : Bool} {now : ℕ} {io : CmdIo} {key : WcmdKey}
    (h : wcmdAdmits cfg req peerIsLoopback = some key) (hdup : st.isDup key req.seq now) :
    (wcmdDispatch cfg st air req peerIsLoopback now io).resp = wcmdDupReply key req.value := by
  have hhead : (st.head req now).isDup key req.seq now = true := hdup
  have hgate : key ≠ .logControl →
      (wcmdGate cfg (st.head req now) air key req.seq req.value now io).resp
        = wcmdDupReply key req.value := by
    intro hc
    rw [wcmdGate, if_pos hhead, wcmdDupReply, if_neg hc]
    rfl
  rw [wcmdDispatch_of_admits cfg st air now io h]
  cases key
  case logSync => rfl
  case logControl => rfl
  all_goals exact hgate WcmdKey.noConfusion

/-- The application `a` of a command under `key` is answered as a duplicate with the value `raw`. -/
def Echoes (key : WcmdKey) (a : Arrival) (raw : ℤ) : Prop :=
  match key with
  | .logSync => a.req.value = raw
  | .logControl => a.req.value = 0 ↔ raw = 0
  | .returnApfpv => raw = 0 ∧ (a.cfg.dryRun = false → a.io.hookRc = 0)
  | .bitrateKbps | .fps | .payloadBytes | .forceIdr | .record =>
      wcmdClampValue a.cfg key a.req.value = some raw ∧ a.cfg.dryRun = false ∧
        0 < a.io.httpStatus ∧ u16 a.io.httpStatus = 0
  | key => wcmdClampValue a.cfg key a.req.value = some raw

/-- A frame that took the slot of `key`, and its reply. -/
inductive Took (key : WcmdKey) (a : Arrival) (resp : WcmdResp) : Prop
  | applied (hr : resp = wcmdReply a.cfg key a.req.value a.io)
      (hv : key.isLimited → ∃ value, wcmdClampValue a.cfg key a.req.value = some value)
      (hrc : key = .returnApfpv → a.cfg.dryRun = false → a.io.hookRc = 0)
  | hookFailed (hk : key = .returnApfpv) (hr : resp.status = .httpError)
      (hd : a.cfg.dryRun = false) (hrc : a.io.hookRc ≠ 0)

/-- The value of a toggle is a bit after the clamp. -/
theorem clamp_toggle {cfg : Config} {key : WcmdKey} {raw value : ℤ}
    (hk : wcmdWindow cfg key = some (0, 1)) (h : wcmdClampValue cfg key raw = some value) :
    (if value ≠ 0 then 1 else 0) = value := by
  have hne : key ≠ .forceIdr := by
    rintro rfl
    cases hk
  rw [wcmdClampValue, if_neg hne, hk] at h
  simp only [Int.reduceLE, Int.reduceLT, or_self, if_false, Option.some.injEq] at h
  omega

/-- The reply to a round trip is the duplicate's: nothing but 0 in the status field. -/
theorem venc_reply_eq {dryRun : Bool} {http value raw : ℤ} :
    (if dryRun then ⟨.ok, 200, value⟩ else ⟨.ok, u16 (if 0 < http then http else 200), value⟩)
        = (⟨.ok, 0, raw⟩ : WcmdResp) ↔
      value = raw ∧ dryRun = false ∧ 0 < http ∧ u16 http = 0 := by
  cases dryRun with
  | true => simp
  | false =>
      by_cases hpos : 0 < http
      · simp [hpos, and_comm]
      · simp [hpos, u16]

/-- The reply to a clamped value is the duplicate's. -/
theorem echoes_limited {key : WcmdKey} {a : Arrival} {value : ℤ} (hl : key.isLimited)
    (hval : wcmdClampValue a.cfg key a.req.value = some value) (raw : ℤ) :
    Echoes key a raw ↔ wcmdAppliedReply a.cfg key value a.io = ⟨.ok, 0, raw⟩ := by
  cases key <;> first
    | exact absurd hl Bool.false_ne_true
    | simp only [Echoes, wcmdAppliedReply, hval, Option.some.injEq, WcmdResp.mk.injEq, true_and,
        venc_reply_eq]
  all_goals rw [clamp_toggle rfl hval]

/-- Where the two replies agree. -/
theorem Took.echoes_iff {key : WcmdKey} {a : Arrival} {resp : WcmdResp} (h : Took key a resp)
    (raw : ℤ) : Echoes key a raw ↔ resp = wcmdDupReply key raw := by
  cases h with
  | hookFailed hk hr hd hrc =>
      subst hk
      refine iff_of_false ?_ ?_
      · rintro ⟨-, hzero⟩
        exact hrc (hzero hd)
      · rintro rfl
        cases hr
  | applied hr hv hrc =>
      subst hr
      by_cases hl : key.isLimited
      · obtain ⟨value, hval⟩ := hv hl
        rw [echoes_limited hl hval]
        cases key <;> first
          | exact absurd hl Bool.false_ne_true
          | (simp only [wcmdReply, hval, Option.getD_some]
             exact Iff.rfl)
      · cases key <;> first | exact absurd rfl hl | skip
        case logSync => simp [Echoes, wcmdReply, wcmdDupReply]
        case logControl =>
          simp only [Echoes, wcmdReply, wcmdDupReply, WcmdResp.mk.injEq, true_and, if_true]
          by_cases ha : a.req.value = 0 <;> by_cases hraw : raw = 0 <;> simp [ha, hraw]
        case returnApfpv =>
          simp only [Echoes, wcmdReply, wcmdDupReply, WcmdResp.mk.injEq, true_and, reduceCtorEq,
            if_false]
          constructor
          · rintro ⟨hzero, -⟩
            exact hzero.symm
          · intro hzero
            exact ⟨hzero.symm, hrc rfl⟩

/-! ## The ledger of the replies -/

/-- The slots of the dispatcher are those of the ledger, and every entry is what it says. -/
structure EchoInv (p : Proxy) (g : Answered) : Prop where
  clock : 0 < p.clock
  free : ∀ byte key, WcmdKey.ofByte byte = some key → g.last byte = none → p.st.lastSeqUs key = 0
  taken : ∀ byte key a, WcmdKey.ofByte byte = some key → g.last byte = some a →
    p.st.lastSeq key = a.1.req.seq
  entries : ∀ a ∈ g, ∀ key, WcmdKey.ofByte a.1.req.key = some key → Took key a.1 a.2

theorem echoInv_boot : EchoInv {} [] where
  clock := Nat.one_pos
  free _ _ _ _ := rfl
  taken _ _ _ _ h := by cases h
  entries _ h := absurd h List.not_mem_nil

theorem EchoInv.same {p p' : Proxy} {g : Answered} (h : EchoInv p g) (hs : SameSlots p.st p'.st)
    (hc : p.clock ≤ p'.clock) : EchoInv p' g where
  clock := h.clock.trans_le hc
  free byte key hk hg := by
    rw [hs.2]
    exact h.free byte key hk hg
  taken byte key a hk hg := by
    rw [hs.1]
    exact h.taken byte key a hk hg
  entries := h.entries

theorem Answered.last_cons (g : Answered) (a : Arrival × WcmdResp) (byte : UInt8) :
    Answered.last (a :: g) byte = if a.1.req.key = byte then some a else g.last byte := by
  rw [Answered.last, List.find?_cons]
  split <;> simp_all [Answered.last]

theorem EchoInv.take {p p' : Proxy} {g : Answered} {key : WcmdKey} {e : Arrival} {resp : WcmdResp}
    (h : EchoInv p g) (hk : WcmdKey.ofByte e.req.key = some key)
    (hs : TakesSlot p.st p'.st key e.req.seq p'.clock) (hc : p.clock ≤ p'.clock)
    (hr : Took key e resp) : EchoInv p' ((e, resp) :: g) where
  clock := h.clock.trans_le hc
  free byte k hbyte hg := by
    rw [Answered.last_cons] at hg
    split at hg
    · cases hg
    · next hne =>
        have hk' : k ≠ key := fun he => hne (ofByte_inj hk (he ▸ hbyte))
        rw [hs.2, Function.update_of_ne hk']
        exact h.free byte k hbyte hg
  taken byte k a hbyte hg := by
    rw [Answered.last_cons] at hg
    split at hg
    · next heq =>
        cases hg
        subst heq
        obtain rfl : k = key := Option.some.inj (hbyte.symm.trans hk)
        rw [hs.1, Function.update_self]
    · next hne =>
        have hk' : k ≠ key := fun he => hne (ofByte_inj hk (he ▸ hbyte))
        rw [hs.1, Function.update_of_ne hk']
        exact h.taken byte k a hbyte hg
  entries a ha k hak := by
    rcases List.mem_cons.mp ha with rfl | hold
    · obtain rfl : k = key := Option.some.inj (hak.symm.trans hk)
      exact hr
    · exact h.entries a hold k hak

/-- The first to pass one test is the first to pass two, if it passes the other. -/
theorem find?_and {α : Type} {p q : α → Bool} {l : List α} {a : α} (h : l.find? p = some a)
    (hq : q a) : l.find? (fun x => p x && q x) = some a := by
  induction l with
  | nil => cases h
  | cons x l ih =>
      rw [List.find?_cons] at h ⊢
      cases hp : p x with
      | true =>
          rw [hp] at h
          obtain rfl := Option.some.inj h
          rw [hq]
          rfl
      | false =>
          rw [hp] at h
          exact ih h

/-- A slot that matches was taken last by an application of the command. -/
theorem EchoInv.original {p : Proxy} {g : Answered} (h : EchoInv p g) {req : WcmdReq} {key : WcmdKey}
    {now : ℕ} (hk : WcmdKey.ofByte req.key = some key) (hdup : p.st.isDup key req.seq now) :
    ∃ a, g.original req = some a ∧ Took key a.1 a.2 := by
  simp only [WcmdState.isDup, Bool.and_eq_true, decide_eq_true_eq] at hdup
  obtain ⟨⟨htaken, hseq⟩, -⟩ := hdup
  cases hlast : g.last req.key with
  | none => exact absurd (h.free _ _ hk hlast) htaken
  | some a =>
      have hsame : a.1.req.seq = req.seq := (h.taken _ _ _ hk hlast).symm.trans hseq
      have hkey : a.1.req.key = req.key := by simpa using List.find?_some hlast
      refine ⟨a, find?_and hlast (decide_eq_true hsame), ?_⟩
      exact h.entries a (List.mem_of_find?_eq_some hlast) key (hkey ▸ hk)

/-- A frame that matches a slot carries the value its command was applied with: the clamp left it
as it was, and there was no status to report. -/
def FaithfulAt (pg : Proxy × Answered) (e : Arrival) : Prop :=
  ∀ key ∈ wcmdAdmits e.cfg e.req e.peerIsLoopback,
    pg.1.st.isDup key e.req.seq (pg.1.clock + e.dt) →
    ∃ a ∈ pg.2.original e.req, Echoes key a.1 e.req.value

/-- A command carried out under a limited key had a value inside the clamp. -/
theorem clamp_of_carries {cfg : Config} {st : WcmdState} {key : WcmdKey} {raw : ℤ} {now : ℕ}
    {io : CmdIo} (hl : key.isLimited) (h : wcmdCarries cfg st key raw now io) :
    ∃ value, wcmdClampValue cfg key raw = some value := by
  cases hv : wcmdClampValue cfg key raw with
  | some value => exact ⟨value, rfl⟩
  | none =>
      cases key <;> first
        | exact absurd hl Bool.false_ne_true
        | simp [wcmdCarries, hv] at h

/-- A frame carried out. -/
theorem took_of_carries {p : Proxy} {e : Arrival} {key : WcmdKey}
    (hset : Settles e.cfg p.st key (p.clock + e.dt) (wcmdReply e.cfg key e.req.value e.io)
      (p.out e))
    (ha : (p.out e).st.accepted = p.st.accepted + 1)
    (hcarry : wcmdCarries e.cfg p.st key e.req.value (p.clock + e.dt) e.io) :
    Took key e (p.out e).resp := by
  refine .applied (hset.applied_of_accepted ha).2 (clamp_of_carries · hcarry) ?_
  rintro rfl hd
  simpa [wcmdCarries, hd] using (Bool.and_eq_true_iff.mp hcarry).2

/-- Key 20 answers an error only when the hook did. -/
theorem hook_rc_of_httpError {cfg : Config} {st : WcmdState} {air : RadioBody} {req : WcmdReq}
    {peerIsLoopback : Bool} {now : ℕ} {io : CmdIo}
    (h : wcmdAdmits cfg req peerIsLoopback = some .returnApfpv)
    (hr : (wcmdDispatch cfg st air req peerIsLoopback now io).resp.status = .httpError) :
    cfg.dryRun = false ∧ io.hookRc ≠ 0 := by
  rw [wcmdDispatch_of_admits cfg st air now io h, wcmdBehindGates, wcmdGate] at hr
  · split at hr
    · cases hr
    rw [if_pos rfl, wcmdReturnApfpv] at hr
    split at hr
    · cases hr
    cases hd : cfg.dryRun with
    | true =>
        rw [hd] at hr
        cases hr
    | false =>
        refine ⟨rfl, ?_⟩
        intro hrc
        rw [hd, hrc] at hr
        cases hr
  all_goals exact WcmdKey.noConfusion

/-- A frame that takes the slot. -/
theorem answer_took {p : Proxy} {e : Arrival}
    (h : (p.out e).st.accepted ≠ p.st.accepted ∨ hookFailed e.req (p.out e).resp.status) :
    (p.answer e).2 = [.took e (p.out e).resp] := by
  rw [Proxy.answer, if_pos h]

/-- A frame that is not carried out and runs no hook. -/
theorem answer_idle {p : Proxy} {e : Arrival} (ha : (p.out e).st.accepted = p.st.accepted)
    (hh : ¬hookFailed e.req (p.out e).resp.status) :
    (p.answer e).2 = [if (p.out e).st.coalescedBurst ≠ p.st.coalescedBurst
      then .coalesced e.req (p.out e).resp else .refused] := by
  rw [Proxy.answer, if_neg (by rintro (h | h) <;> [exact h ha; exact hh h])]

/-- What a frame is answered, and the slots it leaves. -/
theorem answer_spec {p : Proxy} {e : Arrival} {key : WcmdKey}
    (hadm : wcmdAdmits e.cfg e.req e.peerIsLoopback = some key) :
    (p.st.isDup key e.req.seq (p.clock + e.dt) = true ∧ SameSlots p.st (p.answer e).1.st ∧
        (p.answer e).2 = [.coalesced e.req (wcmdDupReply key e.req.value)]) ∨
      (p.st.isDup key e.req.seq (p.clock + e.dt) = false ∧
        ((TakesSlot p.st (p.answer e).1.st key e.req.seq (p.answer e).1.clock ∧
            ∃ resp, Took key e resp ∧ (p.answer e).2 = [.took e resp]) ∨
          SameSlots p.st (p.answer e).1.st ∧ (p.answer e).2 = [.refused])) := by
  have hk := ofByte_of_admits hadm
  have hset : Settles e.cfg p.st key (p.clock + e.dt) _ (p.out e) :=
    wcmdDispatch_settles _ _ _ _ _ hadm
  have hend : Ends p.st key e.req.seq (p.clock + e.dt) (p.out e) _ :=
    wcmdDispatch_admitted _ _ _ _ _ hadm
  cases hdup : p.st.isDup key e.req.seq (p.clock + e.dt) with
  | true =>
      have hresp : (p.out e).resp = wcmdDupReply key e.req.value := wcmdDispatch_dup hadm hdup
      rw [hdup] at hend
      refine .inl ⟨rfl, ?_⟩
      cases hend with
      | coalesced ha hc hs hok =>
          refine ⟨hs, ?_⟩
          rw [answer_idle ha (by simp [hookFailed, hok]), if_pos (by omega), hresp]
  | false =>
      rw [hdup] at hend
      refine .inr ⟨rfl, ?_⟩
      cases hcarry : wcmdCarries e.cfg p.st key e.req.value (p.clock + e.dt) e.io with
      | true =>
          rw [hcarry] at hend
          cases hend with
          | applied ha hs hok =>
              exact .inl ⟨hs, _, took_of_carries hset ha hcarry, answer_took (.inl (by omega))⟩
      | false =>
          rw [hcarry] at hend
          cases hend with
          | refused ha hc hs hok hkey =>
              refine .inr ⟨hs, ?_⟩
              have hno : ¬hookFailed e.req (p.out e).resp.status := by
                simp only [hookFailed, hk, Bool.and_eq_true, decide_eq_true_eq, not_and,
                  Option.some.injEq]
                exact hkey
              rw [answer_idle ha hno, if_neg (not_not.mpr hc)]
          | hookFailed ha hc hs hret hstatus =>
              have hyes : hookFailed e.req (p.out e).resp.status := by
                rw [hookFailed, hk, hret, hstatus]
                rfl
              obtain ⟨hd, hrc⟩ := hook_rc_of_httpError (hret ▸ hadm) hstatus
              exact .inl ⟨hs, _, .hookFailed hret hstatus hd hrc, answer_took (.inr hyes)⟩

/-- A frame that is not admitted is answered with an error and takes no slot. -/
theorem answer_turnedAway {p : Proxy} {e : Arrival}
    (hadm : wcmdAdmits e.cfg e.req e.peerIsLoopback = none) :
    SameSlots p.st (p.answer e).1.st ∧ (p.answer e).2 = [.refused] := by
  have haway : TurnedAway p.st (p.out e) := wcmdDispatch_turnedAway _ _ _ _ _ hadm
  have hno : ¬hookFailed e.req (p.out e).resp.status := by simp [hookFailed, haway.noHook]
  refine ⟨haway.slots, ?_⟩
  rw [answer_idle haway.accepted hno, if_neg (not_not.mpr haway.coalesced)]

theorem echoInv_step {p : Proxy} {g : Answered} (h : EchoInv p g) (e : Arrival) :
    EchoInv (p.answer e).1 (faithful.after g (p.answer e).2) := by
  have hclock : p.clock ≤ (p.answer e).1.clock := Nat.le_add_right ..
  cases hadm : wcmdAdmits e.cfg e.req e.peerIsLoopback with
  | none =>
      obtain ⟨hs, ho⟩ := answer_turnedAway hadm
      rw [ho]
      exact h.same hs hclock
  | some key =>
      rcases answer_spec hadm with ⟨-, hs, ho⟩ | ⟨-, ⟨hs, resp, hr, ho⟩ | ⟨hs, ho⟩⟩
      · rw [ho]
        exact h.same hs hclock
      · rw [ho]
        exact h.take (ofByte_of_admits hadm) hs hclock hr
      · rw [ho]
        exact h.same hs hclock

/-- The condition on a frame that is admitted under `key`. -/
theorem faithfulAt_admitted {p : Proxy} {g : Answered} {e : Arrival} {key : WcmdKey}
    (hadm : wcmdAdmits e.cfg e.req e.peerIsLoopback = some key) :
    FaithfulAt (p, g) e ↔ (p.st.isDup key e.req.seq (p.clock + e.dt) →
      ∃ a ∈ g.original e.req, Echoes key a.1 e.req.value) := by
  rw [FaithfulAt, hadm]
  constructor
  · intro hall
    exact hall key rfl
  · rintro hone _ ⟨⟩
    exact hone

theorem faithful_iff {p : Proxy} {g : Answered} (h : EchoInv p g) (e : Arrival) :
    faithful.Accepts g (p.answer e).2 ↔ FaithfulAt (p, g) e := by
  cases hadm : wcmdAdmits e.cfg e.req e.peerIsLoopback with
  | none =>
      rw [(answer_turnedAway hadm).2]
      refine iff_of_true ⟨rfl, trivial⟩ ?_
      intro key hkey
      rw [hadm] at hkey
      cases hkey
  | some key =>
      rw [faithfulAt_admitted hadm]
      rcases answer_spec hadm with ⟨hdup, -, ho⟩ | ⟨hdup, ⟨-, resp, -, ho⟩ | ⟨-, ho⟩⟩
      · obtain ⟨a, horig, htook⟩ := h.original (ofByte_of_admits hadm) hdup
        rw [ho, Monitor.accepts_cons, and_iff_left (Monitor.accepts_nil ..), forall_prop_of_true hdup]
        show (g.original e.req).any _ = true ↔ _
        rw [horig]
        simp [htook.echoes_iff]
      all_goals
        rw [ho, hdup]
        refine iff_of_true ⟨rfl, trivial⟩ ?_
        intro hno
        cases hno

/-- In every run, whatever lies between a command and its duplicates, each duplicate is answered
as the application of its command was iff it carries the value applied and, for the keys with a
round trip of their own, the round trip had no status to report. -/
theorem duplicate_reply_iff (es : List Arrival) :
    faithful.Accepts [] (Proxy.replies.trace {} es) ↔
      (Proxy.replies.watch faithful).Meets FaithfulAt ({}, []) es := by
  have hkeep : ∀ p g e, EchoInv p g → FaithfulAt (p, g) e →
      EchoInv (Proxy.replies.step p e).1 (faithful.after g (Proxy.replies.step p e).2) :=
    fun _ _ e h _ => echoInv_step h e
  have hok : ∀ p g e, EchoInv p g →
      (faithful.Accepts g (Proxy.replies.step p e).2 ↔ FaithfulAt (p, g) e) :=
    fun _ _ e h => faithful_iff h e
  exact Machine.accepts_trace_iff hkeep hok echoInv_boot es

/-- Two copies of one bitrate command. -/
def copiedRun : List Arrival :=
  [{ dt := 1000000, req := ⟨1, 1, 8000⟩ }, { dt := 50000, req := ⟨1, 1, 8000⟩ }]

theorem duplicate_reply_broken :
    ¬ ∀ es : List Arrival, faithful.Accepts [] (Proxy.replies.trace {} es) :=
  not_forall.mpr ⟨copiedRun, by decide +kernel⟩

end Waybeam.Vehicle
