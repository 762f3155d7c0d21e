/-
# `Waybeam.Vehicle.Rate` — the rate limit, and what a refused frame leaves

A dispatch settles in one of three ways, whatever exit it takes:

    applied       the last-apply time of the key is now, the reply is the key's
    stands        the configuration, the radio hand-off and all last-apply times stand
    hook failed   key 20 only: the time is stamped although the answer is an error

The rate limit reads the stamp of the key before anything is carried out, so that two applied
commands of one key keep their distance over every run (`rate_limited`), and a frame that is
not answered OK may be sent again at once.
-/
import Waybeam.Vehicle.Dedup

namespace Waybeam.Vehicle

/-! ## How a dispatch settles -/

/-- The reply to a command carried out with a clamped value. -/
def wcmdAppliedReply (cfg : Config) (key : WcmdKey) (value : ℤ) (io : CmdIo) : WcmdResp :=
  match key with
  | .fecEnabled | .mcsEnabled | .peekEnabled => ⟨.ok, 0, if value ≠ 0 then 1 else 0⟩
  | .bitrateKbps | .fps | .payloadBytes | .forceIdr | .record =>
      if cfg.dryRun then ⟨.ok, 200, value⟩
      else ⟨.ok, u16 (if 0 < io.httpStatus then io.httpStatus else 200), value⟩
  | _ => ⟨.ok, 0, value⟩

/-- The reply to a command carried out. -/
def wcmdReply (cfg : Config) (key : WcmdKey) (raw : ℤ) (io : CmdIo) : WcmdResp :=
  match key with
  | .logSync => ⟨.ok, 0, raw⟩
  | .logControl => ⟨.ok, 0, if raw ≠ 0 then 1 else 0⟩
  | .returnApfpv => ⟨.ok, 0, 0⟩
  | key => wcmdAppliedReply cfg key ((wcmdClampValue cfg key raw).getD 0) io

/-- The last-apply time of one key is now, the others stand. -/
def Stamped (st st' : WcmdState) (key : WcmdKey) (now : ℕ) : Prop :=
  st'.lastApplyUs = Function.update st.lastApplyUs key now

/-- The configuration, the radio hand-off and all last-apply times stand. -/
structure Untouched (cfg : Config) (st : WcmdState) (o : CmdOut) : Prop where
  cfg : o.cfg = cfg
  radioWritten : o.st.radioWritten = st.radioWritten
  lastApplyUs : o.st.lastApplyUs = st.lastApplyUs

/-- What a dispatch leaves of the data the commands share. -/
inductive Settles (cfg : Config) (st : WcmdState) (key : WcmdKey) (now : ℕ)
    (reply : WcmdResp) (o : CmdOut) : Prop
  | applied (ha : o.st.accepted = st.accepted + 1) (hs : Stamped st o.st key now)
      (hr : o.resp = reply)
  | stands (ha : o.st.accepted = st.accepted) (hs : Untouched cfg st o)
  | hookFailed (ha : o.st.accepted = st.accepted) (hs : Stamped st o.st key now)
      (hk : key = .returnApfpv)

/-- The head of a dispatch touches none of it. -/
theorem Settles.of_head {cfg : Config} {st st' : WcmdState} {key : WcmdKey} {now : ℕ}
    {reply : WcmdResp} {o : CmdOut} (h : Settles cfg st' key now reply o)
    (ha : st'.accepted = st.accepted) (hw : st'.radioWritten = st.radioWritten)
    (hl : st'.lastApplyUs = st.lastApplyUs) :
    Settles cfg st key now reply o := by
  have hstamp : Stamped st' o.st key now → Stamped st o.st key now := fun hs => hs.trans (by rw [hl])
  cases h with
  | applied h1 h2 h3 => exact .applied (h1.trans (by rw [ha])) (hstamp h2) h3
  | stands h1 h2 =>
      exact .stands (h1.trans ha)
        ⟨h2.cfg, h2.radioWritten.trans hw, h2.lastApplyUs.trans hl⟩
  | hookFailed h1 h2 h3 => exact .hookFailed (h1.trans ha) (hstamp h2) h3

section Settles

variable (cfg : Config) (st : WcmdState) (air : RadioBody) (seq : UInt16) (now : ℕ) (io : CmdIo)

theorem wcmdApplyFec_settles (key : WcmdKey) (value : ℤ) :
    Settles cfg st key now ⟨.ok, 0, value⟩ (wcmdApplyFec cfg st air key seq value now io) := by
  rw [wcmdApplyFec]
  cases io.getFec with
  | none => exact .stands rfl ⟨rfl, rfl, rfl⟩
  | some pair =>
      obtain ⟨kNow, nNow⟩ := pair
      dsimp only
      generalize (if key = .wfbFecK then value else kNow) = newK
      generalize (if key = .wfbFecN then value else nNow) = newN
      by_cases hn : newN < newK
      · rw [if_pos hn]
        exact .stands rfl ⟨rfl, rfl, rfl⟩
      · rw [if_neg hn]
        cases io.setFec with
        | true => exact .applied rfl rfl rfl
        | false => exact .stands rfl ⟨rfl, rfl, rfl⟩

theorem wcmdApplyRadio_settles (key : WcmdKey) (value : ℤ) :
    Settles cfg st key now ⟨.ok, 0, value⟩ (wcmdApplyRadio cfg st air key seq value now io) := by
  rw [wcmdApplyRadio]
  cases io.getRadio with
  | false => exact .stands rfl ⟨rfl, rfl, rfl⟩
  | true =>
      cases io.setRadio with
      | acked => exact .applied rfl rfl rfl
      | lost => exact .stands rfl ⟨rfl, rfl, rfl⟩
      | refused => exact .stands rfl ⟨rfl, rfl, rfl⟩

theorem wcmdApplyVenc_settles (key : WcmdKey) (value : ℤ) :
    Settles cfg st key now
      ⟨.ok, u16 (if 0 < io.httpStatus then io.httpStatus else 200), value⟩
      (wcmdApplyVenc cfg st air key seq value now io) := by
  rw [wcmdApplyVenc]
  cases io.venc with
  | true => exact .applied rfl rfl rfl
  | false => exact .stands rfl ⟨rfl, rfl, rfl⟩

theorem wcmdApplyTxpower_settles (value : ℤ) :
    Settles cfg st .wfbTxpower now ⟨.ok, 0, value⟩
      (wcmdApplyTxpower cfg st air seq value now io) := by
  rw [wcmdApplyTxpower]
  split
  · exact .stands rfl ⟨rfl, rfl, rfl⟩
  · split
    · exact .applied rfl rfl rfl
    · exact .stands rfl ⟨rfl, rfl, rfl⟩

theorem wcmdApply_settles (key : WcmdKey) (value : ℤ) :
    Settles cfg st key now (wcmdAppliedReply cfg key value io)
      (wcmdApply cfg st air key seq value now io) := by
  cases hd : cfg.dryRun with
  | true =>
      cases key <;> simp only [wcmdApply, wcmdAppliedReply, hd, Bool.true_or, if_true]
      case wfbTxpower => exact wcmdApplyTxpower_settles cfg st air seq now io value
      all_goals first
        | exact .applied rfl rfl rfl
        | exact .stands rfl ⟨rfl, rfl, rfl⟩
  | false =>
      cases key <;>
        simp only [wcmdApply, wcmdAppliedReply, hd, Bool.false_or, Bool.false_eq_true, if_false]
      case wfbTxpower => exact wcmdApplyTxpower_settles cfg st air seq now io value
      case peekEnabled =>
        cases io.setPeek with
        | true => exact .applied rfl rfl rfl
        | false => exact .stands rfl ⟨rfl, rfl, rfl⟩
      all_goals first
        | exact .applied rfl rfl rfl
        | exact .stands rfl ⟨rfl, rfl, rfl⟩
        | exact wcmdApplyFec_settles ..
        | exact wcmdApplyRadio_settles ..
        | exact wcmdApplyVenc_settles ..

theorem wcmdInfra_settles (key : WcmdKey) (value : ℤ) :
    Settles cfg st key now ⟨.ok, 0, value⟩ (wcmdInfra cfg st air key seq value now) := by
  rw [wcmdInfra]
  cases st.isDup key seq now with
  | true => exact .stands rfl ⟨rfl, rfl, rfl⟩
  | false => exact .applied rfl rfl rfl

theorem wcmdReturnApfpv_settles :
    Settles cfg st .returnApfpv now ⟨.ok, 0, 0⟩ (wcmdReturnApfpv cfg st air seq now io) := by
  rw [wcmdReturnApfpv]
  split
  · exact .stands rfl ⟨rfl, rfl, rfl⟩
  · cases hd : cfg.dryRun with
    | true => exact .applied rfl rfl rfl
    | false =>
        by_cases hrc : io.hookRc = 0
        · simp only [Bool.false_eq_true, if_false, hrc, if_true]
          exact .applied rfl rfl rfl
        · simp only [Bool.false_eq_true, if_false, hrc]
          exact .hookFailed rfl rfl rfl

theorem wcmdGate_settles {key : WcmdKey} (hs : key ≠ .logSync) (hc : key ≠ .logControl) (raw : ℤ) :
    Settles cfg st key now (wcmdReply cfg key raw io)
      (wcmdGate cfg st air key seq raw now io) := by
  rw [wcmdGate]
  split
  · exact .stands rfl ⟨rfl, rfl, rfl⟩
  split
  · next hkey =>
      subst hkey
      exact wcmdReturnApfpv_settles ..
  next hkey =>
  split
  · exact .stands rfl ⟨rfl, rfl, rfl⟩
  have hreply : wcmdReply cfg key raw io =
      wcmdAppliedReply cfg key ((wcmdClampValue cfg key raw).getD 0) io := by
    rw [wcmdReply]
    · exact hs
    · exact hc
    · exact hkey
  rw [hreply]
  cases wcmdClampValue cfg key raw with
  | none => exact .stands rfl ⟨rfl, rfl, rfl⟩
  | some value =>
      dsimp only
      split
      · exact .stands rfl ⟨rfl, rfl, rfl⟩
      · exact wcmdApply_settles ..

/-- An admitted frame settles with the reply of its key. -/
theorem wcmdDispatch_settles {req : WcmdReq} {peerIsLoopback : Bool} {key : WcmdKey}
    (h : wcmdAdmits cfg req peerIsLoopback = some key) :
    Settles cfg st key now (wcmdReply cfg key req.value io)
      (wcmdDispatch cfg st air req peerIsLoopback now io) := by
  rw [wcmdDispatch_of_admits cfg st air now io h]
  have hgate : key ≠ .logSync → key ≠ .logControl →
      Settles cfg st key now (wcmdReply cfg key req.value io)
        (wcmdGate cfg (st.head req now) air key req.seq req.value now io) := by
    intro hs hc
    exact (wcmdGate_settles cfg (st.head req now) air req.seq now io hs hc req.value).of_head
      rfl rfl rfl
  cases key
  case logSync => exact (wcmdInfra_settles ..).of_head rfl rfl rfl
  case logControl => exact (wcmdInfra_settles ..).of_head rfl rfl rfl
  all_goals exact hgate WcmdKey.noConfusion WcmdKey.noConfusion

/-- A frame that is not admitted touches nothing. -/
theorem wcmdDispatch_untouched {req : WcmdReq} {peerIsLoopback : Bool}
    (h : wcmdAdmits cfg req peerIsLoopback = none) :
    Untouched cfg st (wcmdDispatch cfg st air req peerIsLoopback now io) := by
  rw [wcmdAdmits] at h
  rw [wcmdDispatch]
  split at h
  · next hen =>
      rw [if_pos hen]
      exact ⟨rfl, rfl, rfl⟩
  next hen =>
  rw [if_neg hen]
  split at h
  · next hpeer =>
      rw [if_pos hpeer]
      exact ⟨rfl, rfl, rfl⟩
  next hpeer =>
  rw [if_neg hpeer]
  cases hk : WcmdKey.ofByte req.key with
  | none => exact ⟨rfl, rfl, rfl⟩
  | some k =>
      rw [hk] at h
      cases k <;> simp only [reduceCtorEq] at h <;>
        (have hbit := (ite_eq_iff.mp h).elim (fun hm => absurd hm.2 (Option.some_ne_none _)) And.left
         dsimp only
         rw [if_pos (by simpa using hbit)]
         exact ⟨rfl, rfl, rfl⟩)

end Settles

/-! ## Commands keep their distance -/

/-- The keys that pass the rate limit. -/
def WcmdKey.isLimited : WcmdKey → Bool
  | .logSync | .logControl | .returnApfpv => false
  | _ => true

/-- The byte names a key that passes the rate limit. -/
def limitedByte (byte : UInt8) : Bool := (WcmdKey.ofByte byte).any WcmdKey.isLimited

/-- An applied command of a limited key comes `limitMs` after every earlier one of that key. -/
def spacedOk (limitMs : ℤ) (g : Book) : Receipt → Bool
  | .applied req now =>
      !limitedByte req.key ||
        g.applied.all fun a => a.1.key ≠ req.key || (a.2 : ℤ) + limitMs * 1000 ≤ now
  | _ => true

def spaced (limitMs : ℤ) : Monitor Receipt Book := book (spacedOk limitMs)

/-- A command carried out under a limited key did not come too soon. -/
theorem not_tooSoon_of_carries {cfg : Config} {st : WcmdState} {key : WcmdKey} {raw : ℤ} {now : ℕ}
    {io : CmdIo} (hl : key.isLimited) (h : wcmdCarries cfg st key raw now io) :
    wcmdTooSoon cfg st key now = false := by
  unfold wcmdCarries at h
  split at h
  · cases hl
  · cases hl
  · cases hl
  · split at h
    · exact absurd ((Bool.and_eq_true ..).mp h).2 Bool.false_ne_true
    · have hdone := ((Bool.and_eq_true ..).mp h).2
      exact (Bool.not_eq_true' _).mp ((Bool.and_eq_true ..).mp hdone).1

/-- The stamps after a dispatch: as before, or one of them now. -/
theorem Stamped.same_or_now {st st' : WcmdState} {key : WcmdKey} {now : ℕ} (h : Stamped st st' key now)
    (k : WcmdKey) : st'.lastApplyUs k = st.lastApplyUs k ∨ st'.lastApplyUs k = now := by
  rw [h]
  by_cases hk : k = key
  · subst hk
    exact .inr (Function.update_self ..)
  · exact .inl (Function.update_of_ne hk ..)

/-- Nothing applied under a key is younger than the key's last-apply time. -/
structure StampsAgree (p : Proxy) (g : Book) : Prop where
  clock : 0 < p.clock
  stamps : ∀ a ∈ g.applied, ∀ key, WcmdKey.ofByte a.1.key = some key →
    0 < a.2 ∧ a.2 ≤ p.st.lastApplyUs key ∧ a.2 ≤ p.clock

theorem stampsAgree_boot : StampsAgree {} {} where
  clock := Nat.one_pos
  stamps _ h := absurd h List.not_mem_nil

/-- A step that applies nothing and leaves the stamps, or renews one. -/
theorem StampsAgree.later {p p' : Proxy} {g g' : Book} (h : StampsAgree p g)
    (hg : g'.applied = g.applied) (hc : p.clock ≤ p'.clock)
    (hl : ∀ key, p'.st.lastApplyUs key = p.st.lastApplyUs key ∨ p'.st.lastApplyUs key = p'.clock) :
    StampsAgree p' g' := by
  refine ⟨h.clock.trans_le hc, ?_⟩
  intro a ha key hk
  rw [hg] at ha
  obtain ⟨hpos, hle, hclock⟩ := h.stamps a ha key hk
  refine ⟨hpos, ?_, hclock.trans hc⟩
  rcases hl key with hsame | hnow
  · exact hle.trans_eq hsame.symm
  · exact (hclock.trans hc).trans_eq hnow.symm

/-- A step that applies a frame of `key` and stamps the key. -/
theorem StampsAgree.apply {p p' : Proxy} {g : Book} {req : WcmdReq} {key : WcmdKey}
    {slot : UInt8 → Option (WcmdReq × ℕ)} (h : StampsAgree p g)
    (hk : WcmdKey.ofByte req.key = some key) (hc : p.clock ≤ p'.clock)
    (hs : Stamped p.st p'.st key p'.clock) :
    StampsAgree p' ⟨(req, p'.clock) :: g.applied, slot⟩ := by
  have hrest : StampsAgree p' g := h.later rfl hc hs.same_or_now
  refine ⟨hrest.clock, ?_⟩
  intro a ha k hak
  rcases List.mem_cons.mp ha with rfl | hold
  · obtain rfl : k = key := Option.some.inj (hak.symm.trans hk)
    refine ⟨hrest.clock, ?_, le_rfl⟩
    rw [hs, Function.update_self]
  · exact hrest.stamps a hold k hak

/-- A refused frame adds nothing to what was applied. -/
theorem Book.upd_refused_applied (g : Book) (req : WcmdReq) (status : WcmdStatus) (now : ℕ) :
    (g.upd (.refused req status now)).applied = g.applied := by
  rw [Book.upd]
  split <;> rfl

/-- The stamp of a limited key, when it is not too soon: everything applied under the key is
`limitMs` back. -/
theorem StampsAgree.spaced {p : Proxy} {g : Book} (h : StampsAgree p g) {cfg : Config} {req : WcmdReq}
    {key : WcmdKey} {now : ℕ} (hk : WcmdKey.ofByte req.key = some key) (hnow : p.clock ≤ now)
    (hsoon : wcmdTooSoon cfg p.st key now = false) :
    ∀ a ∈ g.applied, a.1.key = req.key → (a.2 : ℤ) + cfg.cmd.rateLimitMs * 1000 ≤ now := by
  intro a ha hkey
  obtain ⟨hpos, hle, hclock⟩ := h.stamps a ha key (by rw [hkey]; exact hk)
  rcases le_or_gt cfg.cmd.rateLimitMs 0 with hnone | hlimit
  · omega
  · have hstamp : p.st.lastApplyUs key ≠ 0 := by omega
    have hlate : ¬now - p.st.lastApplyUs key < cfg.cmd.rateLimitMs.toNat * 1000 := by
      simpa [wcmdTooSoon, hlimit, hstamp] using hsoon
    omega

/-- What is demanded of a frame applied. -/
theorem spaced_applied (limitMs : ℤ) (g : Book) (req : WcmdReq) (now : ℕ) :
    (Waybeam.Vehicle.spaced limitMs).Accepts g [.applied req now] ↔
      (limitedByte req.key → ∀ a ∈ g.applied, a.1.key = req.key →
        (a.2 : ℤ) + limitMs * 1000 ≤ now) := by
  rw [Monitor.accepts_cons, and_iff_left (Monitor.accepts_nil ..)]
  show (!limitedByte req.key || g.applied.all _ : Bool) = true ↔ _
  rw [Bool.or_eq_true, Bool.not_eq_true', ← Bool.not_eq_true, ← imp_iff_not_or, List.all_eq_true]
  refine imp_congr_right ?_
  intro _
  refine forall₂_congr ?_
  intro a _
  rw [Bool.or_eq_true, decide_eq_true_eq, decide_eq_true_eq, ne_eq, ← imp_iff_not_or]

/-- An applied command is stamped and answered. -/
theorem Settles.applied_of_accepted {cfg : Config} {st : WcmdState} {key : WcmdKey} {now : ℕ}
    {reply : WcmdResp} {o : CmdOut} (h : Settles cfg st key now reply o)
    (ha : o.st.accepted = st.accepted + 1) : Stamped st o.st key now ∧ o.resp = reply := by
  cases h with
  | applied _ hs hr => exact ⟨hs, hr⟩
  | stands hno _ => omega
  | hookFailed hno => omega

theorem Ends.accepted_of_applied {st : WcmdState} {key : WcmdKey} {seq : UInt16} {now : ℕ}
    {o : CmdOut} (h : Ends st key seq now o .applied) : o.st.accepted = st.accepted + 1 := by
  cases h with
  | applied ha _ _ => exact ha

theorem spaced_step {limitMs : ℤ} {p : Proxy} {g : Book} {e : Arrival} (h : StampsAgree p g)
    (hL : e.cfg.cmd.rateLimitMs = limitMs) :
    (spaced limitMs).wp g (p.step e) StampsAgree := by
  have hclock : p.clock ≤ p.clock + e.dt := Nat.le_add_right ..
  cases hadm : wcmdAdmits e.cfg e.req e.peerIsLoopback with
  | none =>
      have hsame : Untouched e.cfg p.st (p.out e) := wcmdDispatch_untouched _ _ _ _ _ hadm
      rw [Monitor.wp, step_turnedAway (wcmdDispatch_turnedAway _ _ _ _ _ hadm)]
      refine ⟨⟨rfl, trivial⟩, h.later (Book.upd_refused_applied ..) hclock ?_⟩
      intro key
      exact .inl (congrFun hsame.lastApplyUs key)
  | some key =>
      have hk := ofByte_of_admits hadm
      have hset : Settles e.cfg p.st key (p.clock + e.dt) _ (p.out e) :=
        wcmdDispatch_settles _ _ _ _ _ hadm
      have hend : Ends p.st key e.req.seq (p.clock + e.dt) (p.out e) _ :=
        wcmdDispatch_admitted _ _ _ _ _ hadm
      have hstamps : ∀ k, (p.out e).st.lastApplyUs k = p.st.lastApplyUs k ∨
          (p.out e).st.lastApplyUs k = p.clock + e.dt := by
        intro k
        cases hset with
        | applied _ hs _ => exact hs.same_or_now k
        | stands _ hs => exact .inl (congrFun hs.lastApplyUs k)
        | hookFailed _ hs => exact hs.same_or_now k
      rw [Monitor.wp, step_ends hend]
      cases hdup : p.st.isDup key e.req.seq (p.clock + e.dt) with
      | true => exact ⟨⟨rfl, trivial⟩, h.later rfl hclock hstamps⟩
      | false =>
          rw [hdup] at hend
          cases hcarry : wcmdCarries e.cfg p.st key e.req.value (p.clock + e.dt) e.io with
          | false => exact ⟨⟨rfl, trivial⟩, h.later (Book.upd_refused_applied ..) hclock hstamps⟩
          | true =>
              refine ⟨(spaced_applied ..).mpr ?_, ?_⟩
              · intro hl a ha hkey
                rw [limitedByte, hk] at hl
                rw [← hL]
                exact h.spaced hk hclock (not_tooSoon_of_carries hl hcarry) a ha hkey
              · rw [hcarry] at hend
                exact h.apply hk hclock (hset.applied_of_accepted hend.accepted_of_applied).1

/-! ## A refused frame may be sent again -/

/-- The frame is taken for a copy of a command already carried out. -/
def Proxy.Coalesces (p : Proxy) (e : Arrival) : Prop :=
  (p.step e).2 = [.coalesced e.req (p.clock + e.dt)]

theorem coalesces_iff {p : Proxy} {e : Arrival} :
    p.Coalesces e ↔ ∃ key, wcmdAdmits e.cfg e.req e.peerIsLoopback = some key ∧
      p.st.isDup key e.req.seq (p.clock + e.dt) = true := by
  rw [Proxy.Coalesces]
  cases hadm : wcmdAdmits e.cfg e.req e.peerIsLoopback with
  | none =>
      rw [step_turnedAway (wcmdDispatch_turnedAway _ _ _ _ _ hadm)]
      refine iff_of_false (fun h => Receipt.noConfusion (List.singleton_inj.mp h)) ?_
      rintro ⟨_, hno, _⟩
      cases hno
  | some key =>
      have hend : Ends p.st key e.req.seq (p.clock + e.dt) (p.out e) _ :=
        wcmdDispatch_admitted _ _ _ _ _ hadm
      rw [step_ends hend]
      cases hdup : p.st.isDup key e.req.seq (p.clock + e.dt) with
      | true => exact iff_of_true rfl ⟨key, rfl, hdup⟩
      | false =>
          refine iff_of_false ?_ ?_
          · cases wcmdCarries e.cfg p.st key e.req.value (p.clock + e.dt) e.io <;>
              exact fun h => Receipt.noConfusion (List.singleton_inj.mp h)
          · rintro ⟨k, hk, hyes⟩
            obtain rfl := Option.some.inj hk
            rw [hdup] at hyes
            cases hyes

/-- A frame not answered OK leaves the configuration, the radio hand-off, the last-apply times and
the dedup records as they were.  Another frame of its command is taken for a duplicate only if the
refused one never reached the dedup, and then only if it would be without the refused one. -/
structure Atomic (p : Proxy) (e : Arrival) : Prop where
  untouched : Untouched e.cfg p.st (p.out e)
  slots : SameSlots p.st (p.step e).1.st
  retry : ∀ r : Arrival, r.req.key = e.req.key → r.req.seq = e.req.seq → (p.step e).1.Coalesces r →
    wcmdAdmits e.cfg e.req e.peerIsLoopback = none ∧ p.Coalesces { r with dt := e.dt + r.dt }

/-- Slots that stand answer a frame as they would have. -/
theorem SameSlots.isDup {st st' : WcmdState} (h : SameSlots st st') (key : WcmdKey) (seq : UInt16)
    (now : ℕ) : st'.isDup key seq now = st.isDup key seq now := by
  rw [WcmdState.isDup, WcmdState.isDup, h.1, h.2]

/-- A match does not come with time. -/
theorem isDup_earlier {st : WcmdState} {key : WcmdKey} {seq : UInt16} {now later : ℕ}
    (hle : now ≤ later) (h : st.isDup key seq later) : st.isDup key seq now := by
  simp only [WcmdState.isDup, Bool.and_eq_true, decide_eq_true_eq] at h ⊢
  exact ⟨h.1, by omega⟩

theorem Ends.ok_of_coalesced {st : WcmdState} {key : WcmdKey} {seq : UInt16} {now : ℕ}
    {o : CmdOut} (h : Ends st key seq now o .coalesced) : o.resp.status = .ok := by
  cases h with
  | coalesced _ _ _ hok => exact hok

/-- An end that is not answered OK leaves the counter and the slots; key 20 alone may take its
slot. -/
theorem Ends.stands_of_not_ok {st : WcmdState} {key : WcmdKey} {seq : UInt16} {now : ℕ}
    {o : CmdOut} {v : Outcome} (h : Ends st key seq now o v) (hno : o.resp.status ≠ .ok)
    (hkey : key ≠ .returnApfpv) : o.st.accepted = st.accepted ∧ SameSlots st o.st := by
  cases h with
  | applied _ _ hok => exact absurd hok hno
  | coalesced _ _ _ hok => exact absurd hok hno
  | refused ha _ hs _ _ => exact ⟨ha, hs⟩
  | hookFailed _ _ _ hk _ => exact absurd hk hkey

theorem Settles.untouched_of_accepted {cfg : Config} {st : WcmdState} {key : WcmdKey} {now : ℕ}
    {reply : WcmdResp} {o : CmdOut} (h : Settles cfg st key now reply o)
    (ha : o.st.accepted = st.accepted) (hkey : key ≠ .returnApfpv) : Untouched cfg st o := by
  cases h with
  | applied hone _ _ => omega
  | stands _ hs => exact hs
  | hookFailed _ _ hk => exact absurd hk hkey

theorem atomic_step {p : Proxy} {e : Arrival} (hno : (p.out e).resp.status ≠ .ok)
    (hkey : WcmdKey.ofByte e.req.key ≠ some .returnApfpv) : Atomic p e := by
  have hcoal : ∀ {r : Arrival}, SameSlots p.st (p.step e).1.st → (p.step e).1.Coalesces r →
      p.Coalesces { r with dt := e.dt + r.dt } := by
    intro r hs hr
    obtain ⟨key, hadm, hdup⟩ := coalesces_iff.mp hr
    rw [hs.isDup] at hdup
    refine coalesces_iff.mpr ⟨key, hadm, ?_⟩
    show p.st.isDup key r.req.seq (p.clock + (e.dt + r.dt)) = true
    rw [← Nat.add_assoc]
    exact hdup
  cases hadm : wcmdAdmits e.cfg e.req e.peerIsLoopback with
  | none =>
      have haway : TurnedAway p.st (p.out e) := wcmdDispatch_turnedAway _ _ _ _ _ hadm
      exact ⟨wcmdDispatch_untouched _ _ _ _ _ hadm, haway.slots,
        fun r _ _ hr => ⟨hadm, hcoal haway.slots hr⟩⟩
  | some key =>
      have hk := ofByte_of_admits hadm
      have hset : Settles e.cfg p.st key (p.clock + e.dt) _ (p.out e) :=
        wcmdDispatch_settles _ _ _ _ _ hadm
      have hend : Ends p.st key e.req.seq (p.clock + e.dt) (p.out e) _ :=
        wcmdDispatch_admitted _ _ _ _ _ hadm
      have hret : key ≠ .returnApfpv := fun h => hkey (h ▸ hk)
      cases hdup : p.st.isDup key e.req.seq (p.clock + e.dt) with
      | true =>
          rw [hdup] at hend
          exact absurd hend.ok_of_coalesced hno
      | false =>
          rw [hdup] at hend
          obtain ⟨hacc, hslots⟩ := hend.stands_of_not_ok hno hret
          refine ⟨hset.untouched_of_accepted hacc hret, hslots, ?_⟩
          intro r hrk hrs hr
          obtain ⟨k, hadm', hdup'⟩ := coalesces_iff.mp (hcoal hslots hr)
          have hsame : k = key := by
            have hbyte := ofByte_of_admits hadm'
            rw [hrk] at hbyte
            exact Option.some.inj (hbyte.symm.trans hk)
          rw [hsame, hrs] at hdup'
          have hyes := isDup_earlier (Nat.add_le_add_left (Nat.le_add_right e.dt r.dt) p.clock) hdup'
          rw [hdup] at hyes
          cases hyes

/-- In every run of frames under one rate limit, applied commands of one limited key are the
limit apart, and every frame not answered OK is as if it had not come; a hook that failed is the
exception. -/
theorem rate_limited (limitMs : ℤ) (es : List Arrival)
    (hL : ∀ e ∈ es, e.cfg.cmd.rateLimitMs = limitMs) :
    (spaced limitMs).Accepts {} (Proxy.machine.trace {} es) ∧
      Proxy.machine.Meets (fun p e => (p.out e).resp.status ≠ .ok →
        WcmdKey.ofByte e.req.key ≠ some .returnApfpv → Atomic p e) {} es := by
  have hstep : ∀ p g e, StampsAgree p g → e.cfg.cmd.rateLimitMs = limitMs →
      (spaced limitMs).wp g (Proxy.machine.step p e) StampsAgree :=
    fun _ _ _ h he => spaced_step h he
  exact ⟨(Machine.run_wp hstep stampsAgree_boot (Machine.Meets.of_mem hL)).1,
    Machine.Meets.of_forall fun _ _ => atomic_step⟩

/-- Two commands of key 13 with the limit between them, and a third that comes too soon and is
sent again. -/
def hurriedRun : List Arrival :=
  [{ dt := 1000000, req := ⟨1, 13, 0⟩ }, { dt := 100000, req := ⟨2, 13, 1⟩ },
    { dt := 50000, req := ⟨3, 13, 0⟩ }, { dt := 50000, req := ⟨3, 13, 0⟩ }]

theorem rate_limited_hurried : (∀ e ∈ hurriedRun, e.cfg.cmd.rateLimitMs = 100) ∧
    (spaced 100).Accepts {} (Proxy.machine.trace {} hurriedRun) := by
  have hL : ∀ e ∈ hurriedRun, e.cfg.cmd.rateLimitMs = 100 := by decide
  exact ⟨hL, (rate_limited 100 hurriedRun hL).1⟩

end Waybeam.Vehicle
