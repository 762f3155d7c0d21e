/-
# `Waybeam.Vehicle.Ledger` — the counters of the command proxy

Every frame bumps `recv_total`, and then the counter of the exit it takes:

    refused       disabled, peer, unknown, blocked, range, rate
    carried out   accepted, coalesced
    failed        http errors

All exits have one but two: a return-to-APFPV that finds no hook is answered DISABLED, and one whose
hook fails HTTP_ERROR, and neither is counted as such.  The counters add up over a run exactly if no
frame took these (`wcmd_partition`).
-/
import Waybeam.Vehicle.Dedup

namespace Waybeam.Vehicle

/-! ## Classes of outcomes -/

/-- The counters a frame may be counted in. -/
inductive CounterClass where
  | accepted
  | coalesced
  | httpErrors
  | disabled
  | peer
  | unknown
  | blocked
  | range
  | rate
  deriving DecidableEq

def CounterClass.all : List CounterClass :=
  [.accepted, .coalesced, .httpErrors, .disabled, .peer, .unknown, .blocked, .range, .rate]

namespace WcmdState

def counter (st : WcmdState) : CounterClass → ℕ
  | .accepted => st.accepted
  | .coalesced => st.coalescedBurst
  | .httpErrors => st.httpErrors
  | .disabled => st.rejectedDisabled
  | .peer => st.rejectedPeer
  | .unknown => st.rejectedUnknown
  | .blocked => st.rejectedBlocked
  | .range => st.rejectedRange
  | .rate => st.rejectedRate

/-- The frames that are counted in some class. -/
def counted (st : WcmdState) : ℕ := (CounterClass.all.map st.counter).sum

/-- The counters add up. -/
def Balanced (st : WcmdState) : Prop := st.recvTotal = st.counted

instance (st : WcmdState) : Decidable st.Balanced := inferInstanceAs (Decidable (_ = _))

end WcmdState

/-- One more frame in this class, or in none. -/
structure Counts (st st' : WcmdState) (cls : Option CounterClass) : Prop where
  total : st'.recvTotal = st.recvTotal
  counter : ∀ d, st'.counter d = st.counter d + if cls = some d then 1 else 0

theorem counted_of_counts {st st' : WcmdState} {cls : Option CounterClass} (h : Counts st st' cls) :
    st'.counted = st.counted + if cls.isSome then 1 else 0 := by
  have hcounter : st'.counter = fun d => st.counter d + if cls = some d then 1 else 0 := funext h.counter
  rw [WcmdState.counted, WcmdState.counted, hcounter, List.sum_map_add]
  congr 1
  cases cls with
  | none => rfl
  | some c => cases c <;> rfl

/-! ## Every exit -/

section Exits

variable (cfg : Config) (st : WcmdState) (air : RadioBody) (seq : UInt16) (now : ℕ) (io : CmdIo)

theorem wcmdApplyFec_counts (key : WcmdKey) (value : ℤ) :
    ∃ c, Counts st (wcmdApplyFec cfg st air key seq value now io).st (some c) := by
  rw [wcmdApplyFec]
  cases io.getFec with
  | none => exact ⟨.httpErrors, rfl, by intro d; cases d <;> rfl⟩
  | some pair =>
      obtain ⟨kNow, nNow⟩ := pair
      dsimp only
      generalize (if key = .wfbFecK then value else kNow) = newK
      generalize (if key = .wfbFecN then value else nNow) = newN
      by_cases hn : newN < newK
      · rw [if_pos hn]
        exact ⟨.range, rfl, by intro d; cases d <;> rfl⟩
      · rw [if_neg hn]
        cases io.setFec with
        | true => exact ⟨.accepted, rfl, by intro d; cases d <;> rfl⟩
        | false => exact ⟨.httpErrors, rfl, by intro d; cases d <;> rfl⟩

theorem wcmdApplyRadio_counts (key : WcmdKey) (value : ℤ) :
    ∃ c, Counts st (wcmdApplyRadio cfg st air key seq value now io).st (some c) := by
  rw [wcmdApplyRadio]
  cases io.getRadio with
  | false => exact ⟨.httpErrors, rfl, by intro d; cases d <;> rfl⟩
  | true =>
      cases io.setRadio with
      | acked => exact ⟨.accepted, rfl, by intro d; cases d <;> rfl⟩
      | lost => exact ⟨.httpErrors, rfl, by intro d; cases d <;> rfl⟩
      | refused => exact ⟨.httpErrors, rfl, by intro d; cases d <;> rfl⟩

theorem wcmdApplyVenc_counts (key : WcmdKey) (value : ℤ) :
    ∃ c, Counts st (wcmdApplyVenc cfg st air key seq value now io).st (some c) := by
  rw [wcmdApplyVenc]
  cases io.venc with
  | true => exact ⟨.accepted, rfl, by intro d; cases d <;> rfl⟩
  | false => exact ⟨.httpErrors, rfl, by intro d; cases d <;> rfl⟩

theorem wcmdApplyTxpower_counts (value : ℤ) :
    ∃ c, Counts st (wcmdApplyTxpower cfg st air seq value now io).st (some c) := by
  rw [wcmdApplyTxpower]
  split
  · exact ⟨.range, rfl, by intro d; cases d <;> rfl⟩
  · split
    · exact ⟨.accepted, rfl, by intro d; cases d <;> rfl⟩
    · exact ⟨.httpErrors, rfl, by intro d; cases d <;> rfl⟩

/-- Behind the gates every exit counts. -/
theorem wcmdApply_counts (key : WcmdKey) (value : ℤ) :
    ∃ c, Counts st (wcmdApply cfg st air key seq value now io).st (some c) := by
  have haccept : ∀ bit http, ∃ c, Counts st (st.accept key seq now bit http) (some c) := by
    intro bit http
    exact ⟨.accepted, rfl, by intro d; cases d <;> rfl⟩
  have hunknown : ∃ c, Counts st
      { st with rejectedUnknown := st.rejectedUnknown + 1, lastStatus := .unknownKey } (some c) :=
    ⟨.unknown, rfl, by intro d; cases d <;> rfl⟩
  cases hd : cfg.dryRun with
  | true =>
      cases key <;> simp only [wcmdApply, hd, Bool.true_or, if_true]
      case wfbTxpower => exact wcmdApplyTxpower_counts ..
      all_goals first | exact haccept _ _ | exact hunknown
  | false =>
      cases key <;> simp only [wcmdApply, hd, Bool.false_or, Bool.false_eq_true, if_false]
      case wfbTxpower => exact wcmdApplyTxpower_counts ..
      case peekEnabled =>
        cases io.setPeek with
        | true => exact haccept _ _
        | false => exact ⟨.httpErrors, rfl, by intro d; cases d <;> rfl⟩
      all_goals first
        | exact haccept _ _
        | exact hunknown
        | exact wcmdApplyFec_counts ..
        | exact wcmdApplyRadio_counts ..
        | exact wcmdApplyVenc_counts ..

theorem wcmdInfra_counts (key : WcmdKey) (value : ℤ) :
    ∃ c, Counts st (wcmdInfra cfg st air key seq value now).st (some c) := by
  rw [wcmdInfra]
  cases st.isDup key seq now with
  | true => exact ⟨.coalesced, rfl, by intro d; cases d <;> rfl⟩
  | false => exact ⟨.accepted, rfl, by intro d; cases d <;> rfl⟩

/-- The hook is there, and does not fail. -/
def hookRuns : Bool := cfg.recoveryHook && (cfg.dryRun || io.hookRc = 0)

theorem wcmdReturnApfpv_counts :
    Counts st (wcmdReturnApfpv cfg st air seq now io).st
      (if hookRuns cfg io then some .accepted else none) := by
  rw [wcmdReturnApfpv, hookRuns]
  cases cfg.recoveryHook with
  | false => exact ⟨rfl, by intro d; cases d <;> rfl⟩
  | true =>
      cases cfg.dryRun with
      | true => exact ⟨rfl, by intro d; cases d <;> rfl⟩
      | false =>
          by_cases hrc : io.hookRc = 0
          · simp only [Bool.not_true, Bool.false_eq_true, if_false, hrc, if_true, Bool.false_or, decide_true,
              Bool.and_self]
            exact ⟨rfl, by intro d; cases d <;> rfl⟩
          · simp only [Bool.not_true, Bool.false_eq_true, if_false, hrc, Bool.false_or, decide_false,
              Bool.and_false]
            exact ⟨rfl, by intro d; cases d <;> rfl⟩

/-- Behind the mask every exit counts but those of key 20. -/
theorem wcmdGate_counts (key : WcmdKey) (raw : ℤ) :
    ∃ cls, Counts st (wcmdGate cfg st air key seq raw now io).st cls ∧
      (cls = none ↔ key = .returnApfpv ∧ st.isDup key seq now = false ∧ hookRuns cfg io = false) := by
  have hcounts : ∀ {st'}, (∃ c, Counts st st' (some c)) →
      ¬(key = .returnApfpv ∧ st.isDup key seq now = false ∧ hookRuns cfg io = false) →
      ∃ cls, Counts st st' cls ∧
        (cls = none ↔ key = .returnApfpv ∧ st.isDup key seq now = false ∧ hookRuns cfg io = false) := by
    rintro st' ⟨c, hc⟩ hno
    exact ⟨some c, hc, iff_of_false (Option.some_ne_none c) hno⟩
  rw [wcmdGate]
  split
  · next hdup => exact hcounts ⟨.coalesced, rfl, by intro d; cases d <;> rfl⟩ fun hno => by simp [hdup] at hno
  next hdup =>
  split
  · next hkey =>
      subst hkey
      refine ⟨_, wcmdReturnApfpv_counts cfg st air seq now io, ?_⟩
      cases hookRuns cfg io <;> simp [hdup]
  next hkey =>
  have hother : ∀ {st'}, (∃ c, Counts st st' (some c)) → ∃ cls, Counts st st' cls ∧
      (cls = none ↔ key = .returnApfpv ∧ st.isDup key seq now = false ∧ hookRuns cfg io = false) :=
    fun h => hcounts h fun hno => hkey hno.1
  split
  · exact hother ⟨.disabled, rfl, by intro d; cases d <;> rfl⟩
  cases wcmdClampValue cfg key raw with
  | none => exact hother ⟨.range, rfl, by intro d; cases d <;> rfl⟩
  | some value =>
      dsimp only
      split
      · exact hother ⟨.rate, rfl, by intro d; cases d <;> rfl⟩
      · exact hother (wcmdApply_counts ..)

/-- A return-to-APFPV that gets through to its hook, and the hook is not there or fails. -/
def wcmdMisses (req : WcmdReq) (peerIsLoopback : Bool) : Bool :=
  decide (wcmdAdmits cfg req peerIsLoopback = some .returnApfpv) &&
    !st.isDup .returnApfpv req.seq now && !hookRuns cfg io

/-- A frame that is not admitted is counted. -/
theorem wcmdDispatch_refused {req : WcmdReq} {peerIsLoopback : Bool}
    (h : wcmdAdmits cfg req peerIsLoopback = none) :
    ∃ c, Counts (st.head req now) (wcmdDispatch cfg st air req peerIsLoopback now io).st (some c) := by
  rw [wcmdAdmits] at h
  rw [wcmdDispatch]
  split at h
  · next hen =>
      rw [if_pos hen]
      exact ⟨.disabled, rfl, by intro d; cases d <;> rfl⟩
  next hen =>
  rw [if_neg hen]
  split at h
  · next hpeer =>
      rw [if_pos hpeer]
      exact ⟨.peer, rfl, by intro d; cases d <;> rfl⟩
  next hpeer =>
  rw [if_neg hpeer]
  cases hk : WcmdKey.ofByte req.key with
  | none => exact ⟨.unknown, rfl, by intro d; cases d <;> rfl⟩
  | some k =>
      rw [hk] at h
      have hblocked : ∃ c, Counts (st.head req now)
          { st.head req now with
            rejectedBlocked := (st.head req now).rejectedBlocked + 1, lastStatus := .keyBlocked } (some c) :=
        ⟨.blocked, rfl, by intro d; cases d <;> rfl⟩
      cases k <;> simp only [reduceCtorEq] at h <;>
        (have hbit := (ite_eq_iff.mp h).elim (fun hm => absurd hm.2 (Option.some_ne_none _)) And.left
         dsimp only
         rw [if_pos (by simpa using hbit)]
         exact hblocked)

/-- Every frame is counted in one class, unless it is missed. -/
theorem wcmdDispatch_counts (req : WcmdReq) (peerIsLoopback : Bool) :
    ∃ cls, Counts (st.head req now) (wcmdDispatch cfg st air req peerIsLoopback now io).st cls ∧
      (cls = none ↔ wcmdMisses cfg st now io req peerIsLoopback = true) := by
  have hmisses : wcmdMisses cfg st now io req peerIsLoopback = true ↔
      wcmdAdmits cfg req peerIsLoopback = some .returnApfpv ∧
        st.isDup .returnApfpv req.seq now = false ∧ hookRuns cfg io = false := by
    simp only [wcmdMisses, Bool.and_eq_true, decide_eq_true_eq, Bool.not_eq_true', and_assoc]
  rw [hmisses]
  cases hadmits : wcmdAdmits cfg req peerIsLoopback with
  | none =>
      obtain ⟨c, hc⟩ := wcmdDispatch_refused cfg st air now io hadmits
      exact ⟨some c, hc, iff_of_false (Option.some_ne_none c) fun hno => by cases hno.1⟩
  | some key =>
      rw [wcmdDispatch_of_admits cfg st air now io hadmits]
      have hinfra : ∀ value, key ≠ .returnApfpv →
          ∃ cls, Counts (st.head req now)
              (wcmdInfra cfg (st.head req now) air key req.seq value now).st cls ∧
            (cls = none ↔ some key = some WcmdKey.returnApfpv ∧
              st.isDup .returnApfpv req.seq now = false ∧ hookRuns cfg io = false) := by
        intro value hne
        obtain ⟨c, hc⟩ := wcmdInfra_counts cfg (st.head req now) air req.seq now key value
        exact ⟨some c, hc, iff_of_false (Option.some_ne_none c) fun hno => hne (Option.some.inj hno.1)⟩
      have hgate : ∃ cls, Counts (st.head req now)
            (wcmdGate cfg (st.head req now) air key req.seq req.value now io).st cls ∧
          (cls = none ↔ some key = some WcmdKey.returnApfpv ∧
            st.isDup .returnApfpv req.seq now = false ∧ hookRuns cfg io = false) := by
        obtain ⟨cls, hc, hnone⟩ := wcmdGate_counts cfg (st.head req now) air req.seq now io key req.value
        refine ⟨cls, hc, hnone.trans ?_⟩
        rw [Option.some.injEq]
        refine and_congr_right fun hkey => ?_
        subst hkey
        exact Iff.rfl
      cases key
      case logSync => exact hinfra _ WcmdKey.noConfusion
      case logControl => exact hinfra _ WcmdKey.noConfusion
      all_goals exact hgate

end Exits

/-! ## Runs -/

/-- The frame is missed here. -/
def Proxy.misses (p : Proxy) (e : Arrival) : Bool :=
  wcmdMisses e.cfg p.st (p.clock + e.dt) e.io e.req e.peerIsLoopback

/-- The frame is received, and counted in one class. -/
def Proxy.CountsOnce (p : Proxy) (e : Arrival) : Prop :=
  (p.out e).st.recvTotal = p.st.recvTotal + 1 ∧
    ∃ c, ∀ d, (p.out e).st.counter d = p.st.counter d + if d = c then 1 else 0

variable {p : Proxy} {e : Arrival}

/-- The counters of a frame, and what they add up to. -/
theorem out_counts (p : Proxy) (e : Arrival) :
    (p.CountsOnce e ↔ p.misses e = false) ∧
      (p.out e).st.recvTotal = p.st.recvTotal + 1 ∧
      (p.out e).st.counted = p.st.counted + if p.misses e then 0 else 1 := by
  obtain ⟨cls, hcounts, hnone⟩ :=
    wcmdDispatch_counts e.cfg p.st e.air (p.clock + e.dt) e.io e.req e.peerIsLoopback
  have htotal : (p.out e).st.recvTotal = p.st.recvTotal + 1 := hcounts.total
  have hcounted : (p.out e).st.counted = p.st.counted + if cls.isSome then 1 else 0 :=
    (counted_of_counts hcounts).trans rfl
  have hcounter : ∀ d, (p.out e).st.counter d = p.st.counter d + if cls = some d then 1 else 0 :=
    hcounts.counter
  cases cls with
  | none =>
      have hmiss : p.misses e = true := hnone.mp rfl
      rw [hmiss]
      refine ⟨iff_of_false ?_ Bool.false_ne_true.symm, htotal, hcounted⟩
      rintro ⟨-, c, hc⟩
      have hone := (hc c).symm.trans (hcounter c)
      rw [if_pos rfl, if_neg (Option.some_ne_none c).symm] at hone
      omega
  | some c =>
      have hmiss : p.misses e = false := Bool.eq_false_iff.mpr fun hyes => by cases hnone.mpr hyes
      rw [hmiss]
      refine ⟨iff_of_true ⟨htotal, c, fun d => (hcounter d).trans ?_⟩ rfl, htotal, hcounted⟩
      simp only [Option.some.injEq, eq_comm]

/-- So many frames behind, a run ends at least as far behind, and no further if it misses none. -/
theorem run_behind {n : ℕ} (h : p.st.recvTotal = p.st.counted + n) (es : List Arrival) :
    ∃ m, n ≤ m ∧ (Proxy.machine.run p es).st.recvTotal = (Proxy.machine.run p es).st.counted + m ∧
      (m = n ↔ Proxy.machine.Meets (fun p e => p.misses e = false) p es) := by
  induction es generalizing p n with
  | nil => exact ⟨n, le_refl n, h, iff_of_true rfl trivial⟩
  | cons e es ih =>
      obtain ⟨-, htotal, hcounted⟩ := out_counts p e
      rw [Machine.run_cons, Machine.meets_cons]
      cases hmiss : p.misses e with
      | true =>
          rw [hmiss] at hcounted
          have hnext : (Proxy.machine.step p e).1.st.recvTotal =
              (Proxy.machine.step p e).1.st.counted + (n + 1) := by
            show (p.out e).st.recvTotal = (p.out e).st.counted + (n + 1)
            rw [htotal, hcounted, h]
            rfl
          obtain ⟨m, hle, hm, -⟩ := ih hnext
          exact ⟨m, by omega, hm, iff_of_false (by omega) fun hno => Bool.false_ne_true hno.1.symm⟩
      | false =>
          rw [hmiss] at hcounted
          have hnext : (Proxy.machine.step p e).1.st.recvTotal =
              (Proxy.machine.step p e).1.st.counted + n := by
            show (p.out e).st.recvTotal = (p.out e).st.counted + n
            rw [htotal, hcounted, h]
            show p.st.counted + n + 1 = p.st.counted + 1 + n
            omega
          obtain ⟨m, hle, hm, hmeets⟩ := ih hnext
          exact ⟨m, hle, hm, hmeets.trans (and_iff_right rfl).symm⟩

/-- The counters add up at the end of a run, and every frame of it was counted in one class, exactly
if none was a return-to-APFPV that found no hook or a failing one. -/
theorem wcmd_partition (es : List Arrival) :
    ((Proxy.machine.run {} es).st.Balanced ↔
        Proxy.machine.Meets (fun p e => p.misses e = false) {} es) ∧
      (Proxy.machine.Meets Proxy.CountsOnce {} es ↔
        Proxy.machine.Meets (fun p e => p.misses e = false) {} es) := by
  have hstart : ({} : Proxy).st.recvTotal = ({} : Proxy).st.counted + 0 := rfl
  obtain ⟨m, -, hm, hmeets⟩ := run_behind hstart es
  refine ⟨?_, Machine.Meets.congr fun p e => (out_counts p e).1⟩
  rw [← hmeets, WcmdState.Balanced, hm]
  omega

/-- Key 20 without a hook, and with one that fails. -/
def hooklessRun : List Arrival :=
  [{ dt := 0, cfg := { recoveryHook := false }, req := ⟨1, 20, 0⟩ },
    { dt := 1000000, io := { hookRc := 127 }, req := ⟨2, 20, 0⟩ }]

/-- Two frames are received, and none is counted. -/
theorem not_wcmd_partition : ¬(Proxy.machine.run {} hooklessRun).st.Balanced ∧
    (Proxy.machine.run {} hooklessRun).st.counted = 0 := by
  decide

end Waybeam.Vehicle
