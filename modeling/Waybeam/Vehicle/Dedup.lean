/-
# `Waybeam.Vehicle.Dedup` — one command, many frames

The ground station sends every command as a burst of identical frames; the vehicle keeps,
for each key, the sequence number it applied last, and answers a frame with that number
OK for half a second without doing anything.  A dispatch ends in one of three ways:

    applied      the slot of the key takes the frame's number and time, `accepted` counts
    coalesced    the slot matches: OK, nothing done, `coalesced_burst` counts
    refused      any other status (a failed APFPV hook takes the slot all the same)

One slot per key remembers one number.  When the bursts of two commands of one key
interleave, the number of the first is forgotten by the time its next copy arrives
(`at_most_once_iff`).
-/
import Waybeam.Machine
import Waybeam.Vehicle.Wcmd

namespace Waybeam.Vehicle

/-! ## How a dispatch ends -/

inductive Outcome where
  | applied
  | coalesced
  | refused
  deriving DecidableEq, Repr

/-- The key of a frame that the gates before the dedup let through. -/
def wcmdAdmits (cfg : Config) (req : WcmdReq) (peerIsLoopback : Bool) : Option WcmdKey :=
  if !cfg.cmd.enabled then none
  else if cfg.cmd.loopbackOnly && !peerIsLoopback then none
  else
    match WcmdKey.ofByte req.key with
    | none => none
    | some .logSync => some .logSync
    | some .logControl => some .logControl
    | some key => if cfg.cmd.allowKeysMask.toNat.testBit key.maskBit then some key else none

/-- The pair after the change is one, and wfb_tx takes it. -/
def wcmdFecDoes (key : WcmdKey) (value : ℤ) (io : CmdIo) : Bool :=
  match io.getFec with
  | none => false
  | some (kNow, nNow) =>
      let newK := if key = .wfbFecK then value else kNow
      let newN := if key = .wfbFecN then value else nNow
      newK ≤ newN && io.setFec

/-- The peer of the key does what it is asked. -/
def wcmdPeerDoes (cfg : Config) (key : WcmdKey) (value : ℤ) (io : CmdIo) : Bool :=
  match key with
  | .fecEnabled | .mcsEnabled => true
  | .peekEnabled => cfg.dryRun || io.setPeek
  | .wfbTxpower => cfg.cmd.hasIface && (cfg.dryRun || io.iwRc = 0)
  | .wfbFecK | .wfbFecN => cfg.dryRun || wcmdFecDoes key value io
  | .wfbMcs | .wfbBandwidth | .wfbLdpc | .wfbStbc | .wfbShortGi =>
      cfg.dryRun || (io.getRadio && io.setRadio = .acked)
  | .bitrateKbps | .fps | .payloadBytes | .forceIdr | .record => cfg.dryRun || io.venc
  | .reserved17 | .logSync | .logControl | .returnApfpv => false

/-- The frame came too soon after the last command of its key. -/
def wcmdTooSoon (cfg : Config) (st : WcmdState) (key : WcmdKey) (now : ℕ) : Bool :=
  0 < cfg.cmd.rateLimitMs && st.lastApplyUs key ≠ 0 &&
    now - st.lastApplyUs key < cfg.cmd.rateLimitMs.toNat * 1000

/-- A frame that is no duplicate passes the gates behind the dedup and is carried out. -/
def wcmdCarries (cfg : Config) (st : WcmdState) (key : WcmdKey) (raw : ℤ) (now : ℕ) (io : CmdIo) :
    Bool :=
  match key with
  | .logSync | .logControl => true
  | .returnApfpv => cfg.recoveryHook && (cfg.dryRun || io.hookRc = 0)
  | key =>
      !(key = .wfbTxpower && cfg.cmd.txPwrByRate) &&
        match wcmdClampValue cfg key raw with
        | none => false
        | some value => !wcmdTooSoon cfg st key now && wcmdPeerDoes cfg key value io

/-- The slots of all keys stand. -/
def SameSlots (st st' : WcmdState) : Prop := st'.lastSeq = st.lastSeq ∧ st'.lastSeqUs = st.lastSeqUs

/-- The slot of one key is taken, the others stand. -/
def TakesSlot (st st' : WcmdState) (key : WcmdKey) (seq : UInt16) (now : ℕ) : Prop :=
  st'.lastSeq = Function.update st.lastSeq key seq ∧
    st'.lastSeqUs = Function.update st.lastSeqUs key now

/-- What a dispatch leaves, by its end. -/
inductive Ends (st : WcmdState) (key : WcmdKey) (seq : UInt16) (now : ℕ) (o : CmdOut) :
    Outcome → Prop
  | applied (ha : o.st.accepted = st.accepted + 1) (hs : TakesSlot st o.st key seq now)
      (hok : o.resp.status = .ok) : Ends st key seq now o .applied
  | coalesced (ha : o.st.accepted = st.accepted)
      (hc : o.st.coalescedBurst = st.coalescedBurst + 1) (hs : SameSlots st o.st)
      (hok : o.resp.status = .ok) : Ends st key seq now o .coalesced
  | refused (ha : o.st.accepted = st.accepted) (hc : o.st.coalescedBurst = st.coalescedBurst)
      (hs : SameSlots st o.st) (hok : o.resp.status ≠ .ok)
      (hk : key = .returnApfpv → o.resp.status ≠ .httpError) : Ends st key seq now o .refused
  /-- the hook ran: the slot is taken although the answer is an error -/
  | hookFailed (ha : o.st.accepted = st.accepted) (hc : o.st.coalescedBurst = st.coalescedBurst)
      (hs : TakesSlot st o.st key seq now) (hk : key = .returnApfpv)
      (hr : o.resp.status = .httpError) : Ends st key seq now o .refused

/-- A frame refused at the gates before the dedup: not even a hook ran. -/
structure TurnedAway (st : WcmdState) (o : CmdOut) : Prop where
  accepted : o.st.accepted = st.accepted
  coalesced : o.st.coalescedBurst = st.coalescedBurst
  slots : SameSlots st o.st
  notOk : o.resp.status ≠ .ok
  noHook : o.resp.status ≠ .httpError
  quiet : o.obs = []

/-- Applied or refused. -/
def Outcome.of (done : Bool) : Outcome := if done then .applied else .refused

section Ends

variable (cfg : Config) (st : WcmdState) (air : RadioBody) (seq : UInt16) (now : ℕ) (io : CmdIo)

theorem wcmdApplyFec_ends {key : WcmdKey} (hk : key ≠ .returnApfpv) (value : ℤ) :
    Ends st key seq now (wcmdApplyFec cfg st air key seq value now io)
      (.of (wcmdFecDoes key value io)) := by
  rw [wcmdApplyFec, wcmdFecDoes]
  cases io.getFec with
  | none => exact .refused rfl rfl ⟨rfl, rfl⟩ (fun h => nomatch h) (absurd · hk)
  | some pair =>
      obtain ⟨kNow, nNow⟩ := pair
      dsimp only
      generalize (if key = .wfbFecK then value else kNow) = newK
      generalize (if key = .wfbFecN then value else nNow) = newN
      by_cases hn : newN < newK
      · rw [if_pos hn, decide_eq_false (not_le.mpr hn)]
        exact .refused rfl rfl ⟨rfl, rfl⟩ (fun h => nomatch h) (absurd · hk)
      · rw [if_neg hn, decide_eq_true (not_lt.mp hn)]
        cases io.setFec with
        | true => exact .applied rfl ⟨rfl, rfl⟩ rfl
        | false => exact .refused rfl rfl ⟨rfl, rfl⟩ (fun h => nomatch h) (absurd · hk)

theorem wcmdApplyRadio_ends {key : WcmdKey} (hk : key ≠ .returnApfpv) (value : ℤ) :
    Ends st key seq now (wcmdApplyRadio cfg st air key seq value now io)
      (.of (io.getRadio && io.setRadio = .acked)) := by
  rw [wcmdApplyRadio]
  cases io.getRadio with
  | false => exact .refused rfl rfl ⟨rfl, rfl⟩ (fun h => nomatch h) (absurd · hk)
  | true =>
      cases io.setRadio with
      | acked => exact .applied rfl ⟨rfl, rfl⟩ rfl
      | lost => exact .refused rfl rfl ⟨rfl, rfl⟩ (fun h => nomatch h) (absurd · hk)
      | refused => exact .refused rfl rfl ⟨rfl, rfl⟩ (fun h => nomatch h) (absurd · hk)

theorem wcmdApplyVenc_ends {key : WcmdKey} (hk : key ≠ .returnApfpv) (value : ℤ) :
    Ends st key seq now (wcmdApplyVenc cfg st air key seq value now io) (.of io.venc) := by
  rw [wcmdApplyVenc]
  cases io.venc with
  | true => exact .applied rfl ⟨rfl, rfl⟩ rfl
  | false => exact .refused rfl rfl ⟨rfl, rfl⟩ (fun h => nomatch h) (absurd · hk)

theorem wcmdApplyTxpower_ends (value : ℤ) :
    Ends st .wfbTxpower seq now (wcmdApplyTxpower cfg st air seq value now io)
      (.of (cfg.cmd.hasIface && (cfg.dryRun || io.iwRc = 0))) := by
  rw [wcmdApplyTxpower]
  cases cfg.cmd.hasIface with
  | false => exact .refused rfl rfl ⟨rfl, rfl⟩ (fun h => nomatch h) (fun h => nomatch h)
  | true =>
      by_cases hrc : cfg.dryRun = true ∨ io.iwRc = 0
      · have hdoes : (true && (cfg.dryRun || decide (io.iwRc = 0))) = true := by simpa using hrc
        rw [hdoes, if_neg (by decide), if_pos hrc]
        exact .applied rfl ⟨rfl, rfl⟩ rfl
      · have hdoes : (true && (cfg.dryRun || decide (io.iwRc = 0))) = false := by simpa using hrc
        rw [hdoes, if_neg (by decide), if_neg hrc]
        exact .refused rfl rfl ⟨rfl, rfl⟩ (fun h => nomatch h) (fun h => nomatch h)

/-- Behind the gates a command is applied iff its peer does what it is asked. -/
theorem wcmdApply_ends {key : WcmdKey} (hk : key ≠ .returnApfpv) (value : ℤ) :
    Ends st key seq now (wcmdApply cfg st air key seq value now io)
      (.of (wcmdPeerDoes cfg key value io)) := by
  have hrefused : Ends st key seq now
      { cfg, air, resp := ⟨.unknownKey, 0, 0⟩
        st := { st with rejectedUnknown := st.rejectedUnknown + 1, lastStatus := .unknownKey } }
      .refused := .refused rfl rfl ⟨rfl, rfl⟩ (by simp) (absurd · hk)
  cases hd : cfg.dryRun with
  | true =>
      cases key <;> simp only [wcmdApply, wcmdPeerDoes, hd, Bool.true_or, if_true]
      case wfbTxpower =>
        have h := wcmdApplyTxpower_ends cfg st air seq now io value
        rwa [hd] at h
      all_goals first | exact hrefused | exact .applied rfl ⟨rfl, rfl⟩ rfl
  | false =>
      cases key <;> simp only [wcmdApply, wcmdPeerDoes, hd, Bool.false_or, Bool.false_eq_true, if_false]
      case wfbTxpower =>
        have h := wcmdApplyTxpower_ends cfg st air seq now io value
        rwa [hd] at h
      case peekEnabled =>
        cases io.setPeek with
        | true => exact .applied rfl ⟨rfl, rfl⟩ rfl
        | false => exact .refused rfl rfl ⟨rfl, rfl⟩ (by simp) (absurd · hk)
      all_goals first
        | exact hrefused
        | exact .applied rfl ⟨rfl, rfl⟩ rfl
        | exact wcmdApplyFec_ends _ _ _ _ _ _ hk _
        | exact wcmdApplyRadio_ends _ _ _ _ _ _ hk _
        | exact wcmdApplyVenc_ends _ _ _ _ _ _ hk _

theorem wcmdInfra_ends (key : WcmdKey) (value : ℤ) :
    Ends st key seq now (wcmdInfra cfg st air key seq value now)
      (if st.isDup key seq now then .coalesced else .applied) := by
  rw [wcmdInfra]
  cases st.isDup key seq now with
  | true => exact .coalesced rfl rfl ⟨rfl, rfl⟩ rfl
  | false => exact .applied rfl ⟨rfl, rfl⟩ rfl

theorem wcmdReturnApfpv_ends :
    Ends st .returnApfpv seq now (wcmdReturnApfpv cfg st air seq now io)
      (.of (cfg.recoveryHook && (cfg.dryRun || io.hookRc = 0))) := by
  rw [wcmdReturnApfpv]
  cases cfg.recoveryHook with
  | false => exact .refused rfl rfl ⟨rfl, rfl⟩ (fun h => nomatch h) (fun _ h => nomatch h)
  | true =>
      cases cfg.dryRun with
      | true => exact .applied rfl ⟨rfl, rfl⟩ rfl
      | false =>
          by_cases hrc : io.hookRc = 0
          · rw [decide_eq_true hrc]
            simp only [Bool.not_true, Bool.false_eq_true, if_false, hrc, if_true]
            exact .applied rfl ⟨rfl, rfl⟩ rfl
          · rw [decide_eq_false hrc]
            simp only [Bool.not_true, Bool.false_eq_true, if_false, hrc]
            exact .hookFailed rfl rfl ⟨rfl, rfl⟩ rfl rfl

/-- The gates of a known operator key behind the allow mask. -/
theorem wcmdGate_ends {key : WcmdKey} (hs : key ≠ .logSync) (hc : key ≠ .logControl) (raw : ℤ) :
    Ends st key seq now (wcmdGate cfg st air key seq raw now io)
      (if st.isDup key seq now then .coalesced else .of (wcmdCarries cfg st key raw now io)) := by
  rw [wcmdGate]
  cases st.isDup key seq now with
  | true => exact .coalesced rfl rfl ⟨rfl, rfl⟩ rfl
  | false =>
      simp only [Bool.false_eq_true, if_false]
      by_cases ha : key = .returnApfpv
      · subst ha
        exact wcmdReturnApfpv_ends ..
      · have hcarries : wcmdCarries cfg st key raw now io =
            (!(key = .wfbTxpower && cfg.cmd.txPwrByRate) &&
              match wcmdClampValue cfg key raw with
              | none => false
              | some value => !wcmdTooSoon cfg st key now && wcmdPeerDoes cfg key value io) := by
          rw [wcmdCarries]
          · exact hs
          · exact hc
          · exact ha
        rw [if_neg ha, hcarries]
        by_cases htx : key = .wfbTxpower ∧ cfg.cmd.txPwrByRate
        · rw [if_pos htx]
          have hno : (key = .wfbTxpower && cfg.cmd.txPwrByRate : Bool) = true := by simpa using htx
          rw [hno]
          exact .refused rfl rfl ⟨rfl, rfl⟩ (by intro h; cases h) (absurd · ha)
        · rw [if_neg htx]
          have hyes : (key = .wfbTxpower && cfg.cmd.txPwrByRate : Bool) = false := by simpa using htx
          rw [hyes]
          cases wcmdClampValue cfg key raw with
          | none => exact .refused rfl rfl ⟨rfl, rfl⟩ (by intro h; cases h) (absurd · ha)
          | some value =>
              simp only [Bool.not_false, Bool.true_and]
              by_cases hsoon : 0 < cfg.cmd.rateLimitMs ∧ st.lastApplyUs key ≠ 0 ∧
                  now - st.lastApplyUs key < cfg.cmd.rateLimitMs.toNat * 1000
              · have hb : wcmdTooSoon cfg st key now = true := by simpa [wcmdTooSoon, and_assoc] using hsoon
                rw [if_pos hsoon, hb]
                exact .refused rfl rfl ⟨rfl, rfl⟩ (by intro h; cases h) (absurd · ha)
              · have hb : wcmdTooSoon cfg st key now = false := by
                  rw [Bool.eq_false_iff]
                  intro hb
                  exact hsoon (by simpa [wcmdTooSoon, and_assoc] using hb)
                rw [if_neg hsoon, hb]
                exact wcmdApply_ends _ _ _ _ _ _ ha _

/-- What the counters at the head of a dispatch do is no end of it. -/
theorem Ends.of_head {st st' : WcmdState} {key : WcmdKey} {seq : UInt16} {now : ℕ} {o : CmdOut}
    {v : Outcome} (h : Ends st' key seq now o v) (ha : st'.accepted = st.accepted)
    (hc : st'.coalescedBurst = st.coalescedBurst) (hs : SameSlots st st') : Ends st key seq now o v := by
  have htake : TakesSlot st' o.st key seq now → TakesSlot st o.st key seq now := by
    rintro ⟨h1, h2⟩
    exact ⟨h1.trans (by rw [hs.1]), h2.trans (by rw [hs.2])⟩
  have hsame : SameSlots st' o.st → SameSlots st o.st := fun h => ⟨h.1.trans hs.1, h.2.trans hs.2⟩
  cases h with
  | applied h1 h2 h3 => exact .applied (h1.trans (by rw [ha])) (htake h2) h3
  | coalesced h1 h2 h3 h4 => exact .coalesced (h1.trans ha) (h2.trans (by rw [hc])) (hsame h3) h4
  | refused h1 h2 h3 h4 h5 => exact .refused (h1.trans ha) (h2.trans hc) (hsame h3) h4 h5
  | hookFailed h1 h2 h3 h4 h5 => exact .hookFailed (h1.trans ha) (h2.trans hc) (htake h3) h4 h5

/-- A frame that is not admitted is turned away. -/
theorem wcmdDispatch_turnedAway {req : WcmdReq} {peerIsLoopback : Bool}
    (h : wcmdAdmits cfg req peerIsLoopback = none) :
    TurnedAway st (wcmdDispatch cfg st air req peerIsLoopback now io) := by
  rw [wcmdAdmits] at h
  rw [wcmdDispatch]
  split at h
  · next hen =>
      rw [if_pos hen]
      exact ⟨rfl, rfl, ⟨rfl, rfl⟩, (fun h => nomatch h), (fun h => nomatch h), rfl⟩
  · next hen =>
      rw [if_neg hen]
      split at h
      · next hpeer =>
          rw [if_pos hpeer]
          exact ⟨rfl, rfl, ⟨rfl, rfl⟩, (fun h => nomatch h), (fun h => nomatch h), rfl⟩
      · next hpeer =>
          rw [if_neg hpeer]
          cases hk : WcmdKey.ofByte req.key with
          | none => exact ⟨rfl, rfl, ⟨rfl, rfl⟩, (fun h => nomatch h), (fun h => nomatch h), rfl⟩
          | some k =>
              rw [hk] at h
              have hmask : cfg.cmd.allowKeysMask.toNat.testBit k.maskBit = false := by
                rw [Bool.eq_false_iff]
                intro hbit
                cases k <;> simp [hbit] at h
              cases k with
              | logSync => cases h
              | logControl => cases h
              | _ =>
                  simp only [hmask, Bool.not_false, if_true]
                  exact ⟨rfl, rfl, ⟨rfl, rfl⟩, (fun h => nomatch h), (fun h => nomatch h), rfl⟩

/-- The counters at the head of a dispatch. -/
def WcmdState.head (st : WcmdState) (req : WcmdReq) (now : ℕ) : WcmdState :=
  { st with
    recvTotal := st.recvTotal + 1, lastRecvUs := now, lastKey := req.key, lastValue := req.value
    lastHttpStatus := 0 }

/-- Where an admitted frame goes. -/
def wcmdBehindGates (key : WcmdKey) (req : WcmdReq) : CmdOut :=
  match key with
  | .logSync => wcmdInfra cfg (st.head req now) air .logSync req.seq req.value now
  | .logControl =>
      wcmdInfra cfg (st.head req now) air .logControl req.seq (if req.value ≠ 0 then 1 else 0) now
  | key => wcmdGate cfg (st.head req now) air key req.seq req.value now io

theorem wcmdDispatch_of_admits {req : WcmdReq} {peerIsLoopback : Bool} {key : WcmdKey}
    (h : wcmdAdmits cfg req peerIsLoopback = some key) :
    wcmdDispatch cfg st air req peerIsLoopback now io
      = wcmdBehindGates cfg st air now io key req := by
  rw [wcmdAdmits] at h
  rw [wcmdDispatch]
  split at h
  · cases h
  next hen =>
  rw [if_neg hen]
  split at h
  · cases h
  next hpeer =>
  rw [if_neg hpeer]
  cases hk : WcmdKey.ofByte req.key with
  | none =>
      rw [hk] at h
      cases h
  | some k =>
      rw [hk] at h
      have hkey : k = key := by
        cases k <;> simp only at h <;> first
          | exact Option.some.inj h
          | exact (ite_eq_iff.mp h).elim (fun hm => Option.some.inj hm.2) (fun hm => nomatch hm.2)
      subst hkey
      cases k <;> first
        | rfl
        | (have hbit := (ite_eq_iff.mp h).elim And.left (fun hm => nomatch hm.2)
           dsimp only
           rw [if_neg (by rw [hbit]; exact Bool.false_ne_true)]
           rfl)

/-- An admitted frame ends as the slot of its key and its peer have it. -/
theorem wcmdDispatch_admitted {req : WcmdReq} {peerIsLoopback : Bool} {key : WcmdKey}
    (h : wcmdAdmits cfg req peerIsLoopback = some key) :
    Ends st key req.seq now (wcmdDispatch cfg st air req peerIsLoopback now io)
      (if st.isDup key req.seq now then .coalesced
        else .of (wcmdCarries cfg st key req.value now io)) := by
  rw [wcmdDispatch_of_admits cfg st air now io h]
  have hgate : key ≠ .logSync → key ≠ .logControl →
      Ends st key req.seq now
        (wcmdGate cfg (st.head req now) air key req.seq req.value now io)
        (if st.isDup key req.seq now then .coalesced
          else .of (wcmdCarries cfg st key req.value now io)) := by
    intro hs hc
    exact (wcmdGate_ends cfg (st.head req now) air req.seq now io hs hc req.value).of_head
      rfl rfl ⟨rfl, rfl⟩
  cases key
  case logSync => exact (wcmdInfra_ends ..).of_head rfl rfl ⟨rfl, rfl⟩
  case logControl => exact (wcmdInfra_ends ..).of_head rfl rfl ⟨rfl, rfl⟩
  all_goals exact hgate WcmdKey.noConfusion WcmdKey.noConfusion

end Ends

/-- What lets the frame of an operator key through. -/
theorem wcmdAdmits_iff {cfg : Config} {req : WcmdReq} {peerIsLoopback : Bool} {key : WcmdKey}
    (hs : key ≠ .logSync) (hc : key ≠ .logControl) :
    wcmdAdmits cfg req peerIsLoopback = some key ↔
      cfg.cmd.enabled = true ∧ (cfg.cmd.loopbackOnly = true → peerIsLoopback = true) ∧
        WcmdKey.ofByte req.key = some key ∧
        cfg.cmd.allowKeysMask.toNat.testBit key.maskBit = true := by
  rw [wcmdAdmits]
  cases cfg.cmd.enabled
  · simp
  cases cfg.cmd.loopbackOnly <;> cases peerIsLoopback
  case true.false => simp
  all_goals
    cases hk : WcmdKey.ofByte req.key with
    | none => simp
    | some k =>
        cases k
        case logSync => simpa using fun h => absurd h.symm hs
        case logControl => simpa using fun h => absurd h.symm hc
        all_goals
          simp only [Bool.not_true, Bool.and_false, Bool.false_and, Bool.false_eq_true,
            if_false, Option.ite_none_right_eq_some]
          constructor
          · rintro ⟨hbit, hkey⟩
            cases hkey
            exact ⟨trivial, by simp, rfl, hbit⟩
          · rintro ⟨-, -, hkey, hbit⟩
            cases hkey
            exact ⟨hbit, rfl⟩
/-! ## What a dispatch sends -/

/-- The clamped value with which a frame passes the gates behind the allow mask. -/
def wcmdGateValue (cfg : Config) (st : WcmdState) (key : WcmdKey) (seq : UInt16) (raw : ℤ)
    (now : ℕ) : Option ℤ :=
  if st.isDup key seq now || (key = .wfbTxpower && cfg.cmd.txPwrByRate) then none
  else
    (wcmdClampValue cfg key raw).bind fun value =>
      if wcmdTooSoon cfg st key now then none else some value

/-- The key and the clamped value of a frame that passes all gates. -/
def wcmdPasses (cfg : Config) (st : WcmdState) (req : WcmdReq) (peerIsLoopback : Bool) (now : ℕ) :
    Option (WcmdKey × ℤ) :=
  (wcmdAdmits cfg req peerIsLoopback).bind fun key =>
    (wcmdGateValue cfg st key req.seq req.value now).map (key, ·)

/-- The SET_FEC of a pair with one side replaced. -/
def wcmdFecObs (key : WcmdKey) (value : ℤ) (io : CmdIo) : List Obs :=
  match io.getFec with
  | none => []
  | some (kNow, nNow) =>
      let newK := if key = .wfbFecK then value else kNow
      let newN := if key = .wfbFecN then value else nNow
      if newN < newK then [] else [.operatorFec newK newN io.setFec]

/-- What a command sends behind the gates. -/
def wcmdSends (cfg : Config) (air : RadioBody) (key : WcmdKey) (value : ℤ) (now : ℕ) (io : CmdIo) :
    List Obs :=
  if cfg.dryRun then []
  else
    match key with
    | .wfbFecK | .wfbFecN => wcmdFecObs key value io
    | .wfbMcs | .wfbBandwidth | .wfbLdpc | .wfbStbc | .wfbShortGi =>
        if io.getRadio then [.setRadio now .operator (air.write key value) (io.setRadio = .acked)]
        else []
    | key => ((wcmdVencReq key value).map (Obs.venc now .operator · io.venc)).toList

section Sends

variable (cfg : Config) (st : WcmdState) (air : RadioBody) (now : ℕ) (io : CmdIo)

theorem wcmdApplyFec_obs (key : WcmdKey) (seq : UInt16) (value : ℤ) :
    (wcmdApplyFec cfg st air key seq value now io).obs = wcmdFecObs key value io := by
  rw [wcmdApplyFec, wcmdFecObs]
  cases io.getFec with
  | none => rfl
  | some pair =>
      obtain ⟨kNow, nNow⟩ := pair
      dsimp only
      generalize (if key = .wfbFecK then value else kNow) = newK
      generalize (if key = .wfbFecN then value else nNow) = newN
      by_cases hn : newN < newK
      · rw [if_pos hn, if_pos hn]
      · rw [if_neg hn, if_neg hn]
        cases io.setFec <;> rfl

theorem wcmdApplyRadio_obs (key : WcmdKey) (seq : UInt16) (value : ℤ) :
    (wcmdApplyRadio cfg st air key seq value now io).obs
      = if io.getRadio then [.setRadio now .operator (air.write key value) (io.setRadio = .acked)]
        else [] := by
  rw [wcmdApplyRadio]
  cases io.getRadio
  · rfl
  · cases io.setRadio <;> rfl

theorem wcmdApplyVenc_obs (key : WcmdKey) (seq : UInt16) (value : ℤ) :
    (wcmdApplyVenc cfg st air key seq value now io).obs
      = ((wcmdVencReq key value).map (Obs.venc now .operator · io.venc)).toList := by
  rw [wcmdApplyVenc]
  dsimp only
  split <;> rfl

theorem wcmdApplyTxpower_obs (seq : UInt16) (value : ℤ) :
    (wcmdApplyTxpower cfg st air seq value now io).obs = [] := by
  rw [wcmdApplyTxpower]
  split
  · rfl
  · split <;> rfl

theorem wcmdApply_obs (key : WcmdKey) (seq : UInt16) (value : ℤ) :
    (wcmdApply cfg st air key seq value now io).obs = wcmdSends cfg air key value now io := by
  cases hd : cfg.dryRun <;> cases key <;>
    simp only [wcmdApply, wcmdSends, hd, if_true, if_false, Bool.false_eq_true]
  case false.peekEnabled => cases io.setPeek <;> rfl
  all_goals first
    | rfl
    | exact wcmdApplyFec_obs ..
    | exact wcmdApplyRadio_obs ..
    | exact wcmdApplyVenc_obs ..
    | exact wcmdApplyTxpower_obs ..

theorem wcmdReturnApfpv_obs (seq : UInt16) :
    (wcmdReturnApfpv cfg st air seq now io).obs = [] := by
  rw [wcmdReturnApfpv]
  dsimp only
  split_ifs <;> rfl

theorem wcmdTooSoon_iff (key : WcmdKey) :
    wcmdTooSoon cfg st key now = true ↔ 0 < cfg.cmd.rateLimitMs ∧ st.lastApplyUs key ≠ 0 ∧
      now - st.lastApplyUs key < cfg.cmd.rateLimitMs.toNat * 1000 := by
  simp [wcmdTooSoon, and_assoc]

theorem wcmdGate_obs (key : WcmdKey) (seq : UInt16) (raw : ℤ) :
    (wcmdGate cfg st air key seq raw now io).obs
      = ((wcmdGateValue cfg st key seq raw now).map fun value =>
          wcmdSends cfg air key value now io).getD [] := by
  rw [wcmdGate, wcmdGateValue]
  cases st.isDup key seq now with
  | true => rfl
  | false =>
      simp only [Bool.false_eq_true, if_false, Bool.false_or]
      by_cases ha : key = .returnApfpv
      · subst ha
        exact wcmdReturnApfpv_obs ..
      · rw [if_neg ha]
        by_cases htx : key = .wfbTxpower ∧ cfg.cmd.txPwrByRate
        · rw [if_pos htx, if_pos (by simpa using htx)]
          rfl
        · rw [if_neg htx, if_neg (by simpa using htx)]
          cases wcmdClampValue cfg key raw with
          | none => rfl
          | some value =>
              simp only [← wcmdTooSoon_iff, Option.bind_some]
              cases wcmdTooSoon cfg st key now with
              | true => rfl
              | false => exact wcmdApply_obs ..

/-- A dispatch sends what its command sends, if the frame passes. -/
theorem wcmdDispatch_obs (req : WcmdReq) (peerIsLoopback : Bool) :
    (wcmdDispatch cfg st air req peerIsLoopback now io).obs
      = ((wcmdPasses cfg st req peerIsLoopback now).map fun c =>
          wcmdSends cfg air c.1 c.2 now io).getD [] := by
  rw [wcmdPasses]
  cases hadm : wcmdAdmits cfg req peerIsLoopback with
  | none => exact (wcmdDispatch_turnedAway cfg st air now io hadm).quiet
  | some key =>
      rw [wcmdDispatch_of_admits cfg st air now io hadm, Option.bind_some, Option.map_map]
      -- a key without a window has no value to pass with
      have hnone (k : WcmdKey) (hk : wcmdClampValue cfg k req.value = none) :
          wcmdGateValue cfg st k req.seq req.value now = none := by
        rw [wcmdGateValue, hk, Option.bind_none, ite_self]
      cases key
      case logSync => exact (hnone .logSync rfl).symm ▸ rfl
      case logControl => exact (hnone .logControl rfl).symm ▸ rfl
      all_goals exact wcmdGate_obs cfg (st.head req now) air now io _ req.seq req.value

end Sends

/-! ## The dispatcher as a machine -/

/-- What surrounds a frame at the dispatcher: the configuration, the radio and the peers'
answers are whatever they are at that moment. -/
structure Scene where
  dt : ℕ
  cfg : Config := {}
  air : RadioBody := {}
  peerIsLoopback : Bool := false
  io : CmdIo := {}

/-- A frame arrives. -/
structure Arrival extends Scene where
  req : WcmdReq

/-- The dispatcher's state; the monotonic clock is past zero when the daemon is up. -/
structure Proxy where
  st : WcmdState := {}
  clock : ℕ := 1

/-- What became of a frame, by the dispatcher's own counters. -/
inductive Receipt where
  | applied (req : WcmdReq) (now : ℕ)
  | coalesced (req : WcmdReq) (now : ℕ)
  | refused (req : WcmdReq) (status : WcmdStatus) (now : ℕ)

/-- The dispatch of a frame. -/
def Proxy.out (p : Proxy) (e : Arrival) : CmdOut :=
  wcmdDispatch e.cfg p.st e.air e.req e.peerIsLoopback (p.clock + e.dt) e.io

def Proxy.step (p : Proxy) (e : Arrival) : Proxy × List Receipt :=
  let now := p.clock + e.dt
  let o := p.out e
  let receipt : Receipt :=
    if o.st.accepted ≠ p.st.accepted then .applied e.req now
    else if o.st.coalescedBurst ≠ p.st.coalescedBurst then .coalesced e.req now
    else .refused e.req o.resp.status now
  (⟨o.st, now⟩, [receipt])

def Proxy.machine : Machine Proxy Arrival Receipt := ⟨Proxy.step⟩

/-- The receipt of a verdict. -/
def Outcome.receipt (v : Outcome) (req : WcmdReq) (status : WcmdStatus) (now : ℕ) : Receipt :=
  match v with
  | .applied => .applied req now
  | .coalesced => .coalesced req now
  | .refused => .refused req status now

theorem step_ends {p : Proxy} {e : Arrival} {key : WcmdKey} {v : Outcome}
    (h : Ends p.st key e.req.seq (p.clock + e.dt) (p.out e) v) :
    (p.step e).2 = [v.receipt e.req (p.out e).resp.status (p.clock + e.dt)] := by
  rw [Proxy.step]
  cases h with
  | applied ha =>
      rw [if_pos (by omega)]
      rfl
  | coalesced ha hc =>
      rw [if_neg (not_not.mpr ha), if_pos (by omega)]
      rfl
  | refused ha hc =>
      rw [if_neg (not_not.mpr ha), if_neg (not_not.mpr hc)]
      rfl
  | hookFailed ha hc =>
      rw [if_neg (not_not.mpr ha), if_neg (not_not.mpr hc)]
      rfl

theorem step_turnedAway {p : Proxy} {e : Arrival} (h : TurnedAway p.st (p.out e)) :
    (p.step e).2 = [.refused e.req (p.out e).resp.status (p.clock + e.dt)] := by
  rw [Proxy.step, if_neg (not_not.mpr h.accepted), if_neg (not_not.mpr h.coalesced)]

theorem ofByte_of_admits {cfg : Config} {req : WcmdReq} {peerIsLoopback : Bool} {key : WcmdKey}
    (h : wcmdAdmits cfg req peerIsLoopback = some key) : WcmdKey.ofByte req.key = some key := by
  rw [wcmdAdmits] at h
  split at h
  · cases h
  · split at h
    · cases h
    · cases hk : WcmdKey.ofByte req.key with
      | none =>
          rw [hk] at h
          cases h
      | some k =>
          rw [hk] at h
          cases k <;> simp only at h <;> first
            | exact h
            | exact (ite_eq_iff.mp h).elim (fun hm => hm.2) (fun hm => nomatch hm.2)

theorem ofByte_inj {a b : UInt8} {key : WcmdKey} (ha : WcmdKey.ofByte a = some key)
    (hb : WcmdKey.ofByte b = some key) : a = b := by
  have hnodup : WcmdKey.all.Nodup := by decide
  rw [WcmdKey.ofByte] at ha hb
  split at ha
  · cases ha
  · next ha0 =>
      split at hb
      · cases hb
      · next hb0 =>
          have hlt := (List.getElem?_eq_some_iff.mp ha).1
          have hidx := (List.getElem?_inj hlt hnodup).mp (ha.trans hb.symm)
          have hapos : a.toNat ≠ 0 := fun h => ha0 (UInt8.toNat_inj.mp h)
          have hbpos : b.toNat ≠ 0 := fun h => hb0 (UInt8.toNat_inj.mp h)
          exact UInt8.toNat_inj.mp (by omega)

/-! ## The ledger of what was applied -/

/-- The receipts so far: the frames applied, the newest first, and for every key byte the last
frame that took its slot. -/
structure Book where
  applied : List (WcmdReq × ℕ) := []
  slot : UInt8 → Option (WcmdReq × ℕ) := fun _ => none

/-- A hook that ran and failed. -/
def hookFailed (req : WcmdReq) (status : WcmdStatus) : Bool :=
  WcmdKey.ofByte req.key = some .returnApfpv && status = .httpError

def Book.upd (g : Book) : Receipt → Book
  | .applied req now =>
      { applied := (req, now) :: g.applied
        slot := Function.update g.slot req.key (some (req, now)) }
  | .coalesced _ _ => g
  | .refused req status now =>
      if hookFailed req status then
        { g with slot := Function.update g.slot req.key (some (req, now)) }
      else g

/-- The ledger, and what is demanded of each receipt. -/
def book (ok : Book → Receipt → Bool) : Monitor Receipt Book := ⟨Book.upd, ok⟩

/-- The value applied last under a key. -/
def Book.lastValue (g : Book) (key : UInt8) : Option ℤ :=
  (g.applied.find? fun a => a.1.key = key).map (·.1.value)

/-- The slots of the dispatcher are the ledger's. -/
structure SlotsAgree (p : Proxy) (g : Book) : Prop where
  clock : 0 < p.clock
  free : ∀ byte key, WcmdKey.ofByte byte = some key → g.slot byte = none → p.st.lastSeqUs key = 0
  taken : ∀ byte key a, WcmdKey.ofByte byte = some key → g.slot byte = some a →
    p.st.lastSeq key = a.1.seq ∧ p.st.lastSeqUs key = a.2 ∧ 0 < a.2 ∧ a.2 ≤ p.clock
  applied : ∀ a ∈ g.applied, ∃ b, g.slot a.1.key = some b ∧ a.2 ≤ b.2

theorem slotsAgree_boot : SlotsAgree {} {} where
  clock := Nat.one_pos
  free _ _ _ _ := rfl
  taken _ _ _ _ h := nomatch h
  applied _ h := nomatch h

/-- A step that touches no slot. -/
theorem SlotsAgree.same {p p' : Proxy} {g : Book} (h : SlotsAgree p g) (hs : SameSlots p.st p'.st)
    (hc : p.clock ≤ p'.clock) : SlotsAgree p' g where
  clock := h.clock.trans_le hc
  free byte key hk hg := by
    rw [hs.2]
    exact h.free byte key hk hg
  taken byte key a hk hg := by
    obtain ⟨hseq, hus, hpos, hle⟩ := h.taken byte key a hk hg
    rw [hs.1, hs.2]
    exact ⟨hseq, hus, hpos, hle.trans hc⟩
  applied := h.applied

/-- A step that takes the slot of the frame's key, whether the frame was applied or not. -/
theorem SlotsAgree.take {p p' : Proxy} {g : Book} {key : WcmdKey} {req : WcmdReq} {as : List (WcmdReq × ℕ)}
    (h : SlotsAgree p g) (hk : WcmdKey.ofByte req.key = some key)
    (hs : TakesSlot p.st p'.st key req.seq p'.clock) (hc : p.clock ≤ p'.clock)
    (has : ∀ a ∈ as, a = (req, p'.clock) ∨ a ∈ g.applied) :
    SlotsAgree p' ⟨as, Function.update g.slot req.key (some (req, p'.clock))⟩ where
  clock := h.clock.trans_le hc
  free byte k hbyte hg := by
    dsimp only at hg
    by_cases hb : byte = req.key
    · subst hb
      rw [Function.update_self] at hg
      cases hg
    · have hne : k ≠ key := fun he => hb (ofByte_inj hbyte (he ▸ hk))
      rw [Function.update_of_ne hb] at hg
      rw [hs.2, Function.update_of_ne hne]
      exact h.free byte k hbyte hg
  taken byte k a hbyte hg := by
    dsimp only at hg
    by_cases hb : byte = req.key
    · subst hb
      obtain rfl : k = key := Option.some.inj (hbyte.symm.trans hk)
      rw [Function.update_self] at hg
      cases hg
      rw [hs.1, hs.2, Function.update_self, Function.update_self]
      exact ⟨rfl, rfl, h.clock.trans_le hc, le_rfl⟩
    · have hne : k ≠ key := fun he => hb (ofByte_inj hbyte (he ▸ hk))
      rw [Function.update_of_ne hb] at hg
      obtain ⟨hseq, hus, hpos, hle⟩ := h.taken byte k a hbyte hg
      rw [hs.1, hs.2, Function.update_of_ne hne, Function.update_of_ne hne]
      exact ⟨hseq, hus, hpos, hle.trans hc⟩
  applied a ha := by
    dsimp only at ha ⊢
    by_cases hb : a.1.key = req.key
    · refine ⟨(req, p'.clock), by rw [hb, Function.update_self], ?_⟩
      rcases has a ha with rfl | hold
      · exact le_rfl
      · obtain ⟨b, hslot, hle⟩ := h.applied a hold
        rw [hb] at hslot
        exact hle.trans ((h.taken _ _ _ hk hslot).2.2.2.trans hc)
    · rw [Function.update_of_ne hb]
      rcases has a ha with rfl | hold
      · exact absurd rfl hb
      · exact h.applied a hold

/-- The slot matches iff the frame that took it last had the number, inside the window. -/
theorem SlotsAgree.isDup_iff {p : Proxy} {g : Book} (h : SlotsAgree p g) {byte : UInt8} {key : WcmdKey}
    (hk : WcmdKey.ofByte byte = some key) (seq : UInt16) (now : ℕ) :
    p.st.isDup key seq now = true ↔
      ∃ a, g.slot byte = some a ∧ a.1.seq = seq ∧ now - a.2 < wcmdBurstDedupUs := by
  simp only [WcmdState.isDup, Bool.and_eq_true, decide_eq_true_eq]
  cases hg : g.slot byte with
  | none =>
      have hzero := h.free byte key hk hg
      simp [hzero]
  | some a =>
      obtain ⟨hseq, hus, hpos, -⟩ := h.taken byte key a hk hg
      rw [hseq, hus]
      constructor
      · rintro ⟨⟨-, h1⟩, h2⟩
        exact ⟨a, rfl, h1, h2⟩
      · rintro ⟨b, hb, h1, h2⟩
        cases hb
        exact ⟨⟨hpos.ne', h1⟩, h2⟩

/-- Every dispatch keeps the ledger in agreement. -/
theorem slotsAgree_step {p : Proxy} {g : Book} (h : SlotsAgree p g) (e : Arrival)
    (ok : Book → Receipt → Bool) :
    SlotsAgree (p.step e).1 ((book ok).after g (p.step e).2) := by
  have hclock : p.clock ≤ (p.step e).1.clock := Nat.le_add_right ..
  cases hadm : wcmdAdmits e.cfg e.req e.peerIsLoopback with
  | none =>
      have haway : TurnedAway p.st (p.out e) := wcmdDispatch_turnedAway _ _ _ _ _ hadm
      have hno : hookFailed e.req (p.out e).resp.status = false := by
        rw [hookFailed, decide_eq_false haway.noHook, Bool.and_false]
      have hupd : (book ok).after g (p.step e).2 = g := by
        rw [step_turnedAway haway]
        exact if_neg (by rw [hno]; exact Bool.false_ne_true)
      rw [hupd]
      exact h.same haway.slots hclock
  | some key =>
      have hk := ofByte_of_admits hadm
      have hend : Ends p.st key e.req.seq (p.clock + e.dt) (p.out e) _ :=
        wcmdDispatch_admitted _ _ _ _ _ hadm
      generalize (if p.st.isDup key e.req.seq (p.clock + e.dt) then Outcome.coalesced
        else .of (wcmdCarries e.cfg p.st key e.req.value (p.clock + e.dt) e.io)) = v at hend
      rw [step_ends hend]
      cases hend with
      | applied _ hs _ =>
          exact h.take hk hs hclock fun a ha => List.mem_cons.mp ha
      | coalesced _ _ hs _ => exact h.same hs hclock
      | refused _ _ hs _ hkey =>
          have hno : hookFailed e.req (p.out e).resp.status = false := by
            rw [hookFailed, hk, Bool.and_eq_false_imp]
            intro hret
            exact decide_eq_false (hkey (Option.some.inj (of_decide_eq_true hret)))
          have hupd : Book.upd g (.refused e.req (p.out e).resp.status (p.clock + e.dt)) = g :=
            if_neg (by rw [hno]; exact Bool.false_ne_true)
          show SlotsAgree _ (Book.upd g (.refused e.req (p.out e).resp.status (p.clock + e.dt)))
          rw [hupd]
          exact h.same hs hclock
      | hookFailed _ _ hs hret hstatus =>
          have hyes : hookFailed e.req (p.out e).resp.status = true := by
            rw [hookFailed, hk, hret, hstatus]
            rfl
          have hupd : Book.upd g (.refused e.req (p.out e).resp.status (p.clock + e.dt)) =
              { g with slot := Function.update g.slot e.req.key (some (e.req, p.clock + e.dt)) } :=
            if_pos hyes
          show SlotsAgree _ (Book.upd g (.refused e.req (p.out e).resp.status (p.clock + e.dt)))
          rw [hupd]
          exact h.take hk hs hclock fun a ha => .inr ha

/-! ## At most once -/

/-- An application within the window of an earlier one of the same command. -/
def onceOk (g : Book) : Receipt → Bool
  | .applied req now =>
      g.applied.all fun a =>
        !(a.1.key = req.key && a.1.seq = req.seq && now - a.2 < wcmdBurstDedupUs)
  | _ => true

/-- Every command is applied at most once inside the dedup window. -/
def atMostOnce : Monitor Receipt Book := book onceOk

/-- A frame that would be carried out, of a command applied inside the window: no other command
of its key has taken the slot since. -/
def Uninterleaved (pg : Proxy × Book) (e : Arrival) : Prop :=
  ∀ key ∈ wcmdAdmits e.cfg e.req e.peerIsLoopback,
    wcmdCarries e.cfg pg.1.st key e.req.value (pg.1.clock + e.dt) e.io →
    (∃ a ∈ pg.2.applied, a.1.key = e.req.key ∧ a.1.seq = e.req.seq ∧
      pg.1.clock + e.dt - a.2 < wcmdBurstDedupUs) →
    ∃ b ∈ pg.2.slot e.req.key, b.1.seq = e.req.seq

/-- What is demanded of a frame applied: no earlier application of its command inside the
window. -/
theorem atMostOnce_applied (g : Book) (req : WcmdReq) (now : ℕ) :
    atMostOnce.Accepts g [.applied req now] ↔
      ¬∃ a ∈ g.applied, a.1.key = req.key ∧ a.1.seq = req.seq ∧ now - a.2 < wcmdBurstDedupUs := by
  rw [Monitor.accepts_cons, and_iff_left (Monitor.accepts_nil ..)]
  show (g.applied.all _ = true) ↔ _
  rw [List.all_eq_true, not_exists]
  refine forall_congr' ?_
  intro a
  rw [not_and]
  refine imp_congr_right ?_
  intro _
  rw [Bool.not_eq_true', ← Bool.not_eq_true]
  simp [and_assoc]

/-- The condition on a frame that is admitted under `key`. -/
theorem uninterleaved_admitted {p : Proxy} {g : Book} {e : Arrival} {key : WcmdKey}
    (hadm : wcmdAdmits e.cfg e.req e.peerIsLoopback = some key) :
    Uninterleaved (p, g) e ↔
      (wcmdCarries e.cfg p.st key e.req.value (p.clock + e.dt) e.io →
        (∃ a ∈ g.applied, a.1.key = e.req.key ∧ a.1.seq = e.req.seq ∧
          p.clock + e.dt - a.2 < wcmdBurstDedupUs) →
        ∃ b ∈ g.slot e.req.key, b.1.seq = e.req.seq) := by
  rw [Uninterleaved, hadm]
  constructor
  · intro hall
    exact hall key rfl
  · rintro hone _ ⟨⟩
    exact hone

/-- The last taker of a slot is no older than any application under its key, so a number it
shares with one inside the window is a duplicate. -/
theorem SlotsAgree.isDup_of_applied {p : Proxy} {g : Book} (h : SlotsAgree p g) {req : WcmdReq}
    {key : WcmdKey} {now : ℕ} (hk : WcmdKey.ofByte req.key = some key) {a : WcmdReq × ℕ}
    (ha : a ∈ g.applied) (hak : a.1.key = req.key) (hnear : now - a.2 < wcmdBurstDedupUs)
    (hslot : ∃ b ∈ g.slot req.key, b.1.seq = req.seq) : p.st.isDup key req.seq now := by
  obtain ⟨b, hb, hseq⟩ := hslot
  obtain ⟨b', hb', hle⟩ := h.applied a ha
  rw [hak, hb] at hb'
  cases hb'
  exact (h.isDup_iff hk req.seq now).mpr ⟨b, hb, hseq, by omega⟩

theorem onceOk_iff {p : Proxy} {g : Book} (h : SlotsAgree p g) (e : Arrival) :
    atMostOnce.Accepts g (p.step e).2 ↔ Uninterleaved (p, g) e := by
  cases hadm : wcmdAdmits e.cfg e.req e.peerIsLoopback with
  | none =>
      rw [step_turnedAway (wcmdDispatch_turnedAway _ _ _ _ _ hadm)]
      refine iff_of_true ⟨rfl, trivial⟩ ?_
      intro key hkey
      rw [hadm] at hkey
      cases hkey
  | some key =>
      have hk := ofByte_of_admits hadm
      have hend : Ends p.st key e.req.seq (p.clock + e.dt) (p.out e) _ :=
        wcmdDispatch_admitted _ _ _ _ _ hadm
      rw [step_ends hend, uninterleaved_admitted hadm]
      cases hdup : p.st.isDup key e.req.seq (p.clock + e.dt) with
      | true =>
          obtain ⟨b, hb, hseq, -⟩ := (h.isDup_iff hk _ _).mp hdup
          exact iff_of_true ⟨rfl, trivial⟩ fun _ _ => ⟨b, hb, hseq⟩
      | false =>
          cases hcarry : wcmdCarries e.cfg p.st key e.req.value (p.clock + e.dt) e.io with
          | false =>
              refine iff_of_true ⟨rfl, trivial⟩ ?_
              intro hno
              cases hno
          | true =>
              show atMostOnce.Accepts g [.applied e.req (p.clock + e.dt)] ↔ _
              rw [atMostOnce_applied]
              constructor
              · intro hnone _ hsome
                exact absurd hsome hnone
              · rintro hslot ⟨a, ha, hak, has, hnear⟩
                have hyes := h.isDup_of_applied hk ha hak hnear (hslot rfl ⟨a, ha, hak, has, hnear⟩)
                rw [hdup] at hyes
                cases hyes

/-- In every run of datagrams, in any order and with any copies, every command is applied at
most once inside the window iff no frame that would be carried out belongs to a command whose
slot another one has taken meanwhile. -/
theorem at_most_once_iff (es : List Arrival) :
    atMostOnce.Accepts {} (Proxy.machine.trace {} es) ↔
      (Proxy.machine.watch atMostOnce).Meets Uninterleaved ({}, {}) es := by
  have hkeep : ∀ p g e, SlotsAgree p g → Uninterleaved (p, g) e →
      SlotsAgree (Proxy.machine.step p e).1 (atMostOnce.after g (Proxy.machine.step p e).2) :=
    fun _ _ e h _ => slotsAgree_step h e onceOk
  have hok : ∀ p g e, SlotsAgree p g →
      (atMostOnce.Accepts g (Proxy.machine.step p e).2 ↔ Uninterleaved (p, g) e) :=
    fun _ _ e h => onceOk_iff h e
  exact Machine.accepts_trace_iff hkeep hok slotsAgree_boot es

/-- Two commands of key 13, one frame of each and then another copy of the first. -/
def interleavedRun : List Arrival :=
  [{ dt := 1000000, req := ⟨1, 13, 0⟩ }, { dt := 150000, req := ⟨2, 13, 1⟩ },
    { dt := 150000, req := ⟨1, 13, 0⟩ }]

theorem at_most_once_broken :
    ¬ ∀ es : List Arrival, atMostOnce.Accepts {} (Proxy.machine.trace {} es) :=
  not_forall.mpr ⟨interleavedRun, by decide +kernel⟩

end Waybeam.Vehicle
