/-
# `Waybeam.Ground.Session` — one session from the request to its end

Between the request that arms it and the request after it, a session's numbers stand: the
tick moves the phase, counts frames and notes the rx counter, and nothing else.  So every
frame, every hop and every verdict speaks for the session that was armed last
(`csaTick_spoken`, `sessions_accepts`).
-/
import Waybeam.Ground.Csa

namespace Waybeam.Ground

open Text

/-- Two states of one session. -/
structure SameSession (c c' : CsaState) : Prop where
  sess : c'.sess = c.sess
  tSwitchUs : c'.tSwitchUs = c.tSwitchUs
  tRevertUs : c'.tRevertUs = c.tRevertUs
  targetChan : c'.targetChan = c.targetChan
  targetHt : c'.targetHt = c.targetHt
  prevChan : c'.prevChan = c.prevChan
  prevHt : c'.prevHt = c.prevHt
  ifaces : c'.ifaces = c.ifaces
  noRevert : c'.noRevert = c.noRevert

namespace SameSession

@[refl] theorem refl (c : CsaState) : SameSession c c := ⟨rfl, rfl, rfl, rfl, rfl, rfl, rfl, rfl, rfl⟩

@[trans] theorem trans {a b c : CsaState} (h : SameSession a b) (h' : SameSession b c) :
    SameSession a c :=
  ⟨h'.sess.trans h.sess, h'.tSwitchUs.trans h.tSwitchUs, h'.tRevertUs.trans h.tRevertUs,
    h'.targetChan.trans h.targetChan, h'.targetHt.trans h.targetHt, h'.prevChan.trans h.prevChan,
    h'.prevHt.trans h.prevHt, h'.ifaces.trans h.ifaces, h'.noRevert.trans h.noRevert⟩

variable {c c' : CsaState}

theorem hop (h : SameSession c c') : c'.hop = c.hop := by
  rw [CsaState.hop, CsaState.hop, h.ifaces, h.targetChan, h.targetHt]

theorem back (h : SameSession c c') : c'.back = c.back := by
  rw [CsaState.back, CsaState.back, h.ifaces, h.prevChan, h.prevHt]

theorem commit (h : SameSession c c') (seq : UInt32) (now : ℕ) :
    c'.commit seq now = c.commit seq now := by
  simp only [CsaState.commit, h.sess, h.tSwitchUs, h.tRevertUs, h.targetChan, h.targetHt,
    h.prevChan, h.prevHt]

end SameSession

/-! ## What the three parts of a tick do -/

/-- Sending changes the frame counter only; what it sends is the session's frame. -/
theorem sendCommit_cases (s : Sup) (t : ℕ) (io : Sup.SendIo) :
    (∃ n, (s.csaSendCommitFrame t io).2.1 = { s with csaSeqInBurst := n }) ∧
      ((s.csaSendCommitFrame t io).2.2 = [] ∧ (s.csaSendCommitFrame t io).1 = false ∨
        ∃ port, s.uplink = some port ∧ (s.csaSendCommitFrame t io).1 = io.sent ∧
          (s.csaSendCommitFrame t io).2.2
            = [.frame port (s.csa.commit s.csaSeqInBurst (t + io.lag)) io.sent]) := by
  rw [Sup.csaSendCommitFrame]
  cases hup : s.uplink with
  | none => exact ⟨⟨_, rfl⟩, .inl ⟨rfl, rfl⟩⟩
  | some port =>
      dsimp only
      split
      · exact ⟨⟨_, rfl⟩, .inl ⟨rfl, rfl⟩⟩
      · exact ⟨⟨_, rfl⟩, .inr ⟨port, rfl, rfl, rfl⟩⟩

/-- BURST: a frame that goes on, completes the five or ends the session. -/
structure BurstStep (s : Sup) (t : ℕ) (io : Sup.SendIo) (s' : Sup) (os : List Obs) : Prop where
  burst : s.csa.phase = .burst
  tunnels : s'.tunnels = s.tunnels
  vencCmdUplink : s'.vencCmdUplink = s.vencCmdUplink
  clock : s'.clock = s.clock
  same : SameSession s.csa s'.csa
  frames : os = [] ∧ s'.csa.phase = .idle ∨
    ∃ port, os = [.frame port (s.csa.commit s.csaSeqInBurst (t + io.lag)) io.sent] ∧
      (io.sent = false ∧ s'.csa.phase = .idle ∨
        io.sent = true ∧ s'.csa.framesSent = s.csa.framesSent + 1 ∧
          s'.csa.framesTotal = s.csa.framesTotal ∧
          s'.csa.phase = if s.csa.framesTotal ≤ s.csa.framesSent + 1 then .armed else .burst)

/-- BURST goes on, or to ARMED, or the session is over. -/
theorem BurstStep.not_verify {s s' : Sup} {t : ℕ} {io : Sup.SendIo} {os : List Obs}
    (h : BurstStep s t io s' os) : s'.csa.phase ≠ .verify := by
  intro hv
  rcases h.frames with ⟨-, hp⟩ | ⟨port, -, ⟨-, hp⟩ | ⟨-, -, -, hp⟩⟩
  · exact absurd (hp.symm.trans hv) (by decide)
  · exact absurd (hp.symm.trans hv) (by decide)
  · rw [hp] at hv
    split at hv
    · exact absurd hv (by decide)
    · exact absurd hv (by decide)

theorem csaBurst_cases (s : Sup) (t : ℕ) (io : Sup.SendIo) :
    s.csaBurst t io = (s, []) ∨
      BurstStep s t io (s.csaBurst t io).1 (s.csaBurst t io).2 := by
  obtain ⟨⟨n, hs⟩, hsent⟩ := sendCommit_cases s t io
  rw [Sup.csaBurst]
  split
  · next hdue =>
      right
      generalize s.csaSendCommitFrame t io = r at hs hsent ⊢
      obtain ⟨rc, s', os⟩ := r
      dsimp only at hs hsent
      subst hs
      cases rc with
      | false =>
          refine ⟨hdue.1, rfl, rfl, rfl, ⟨rfl, rfl, rfl, rfl, rfl, rfl, rfl, rfl, rfl⟩, ?_⟩
          rcases hsent with ⟨hos, -⟩ | ⟨port, -, hrc, hos⟩
          · exact .inl ⟨hos, rfl⟩
          · exact .inr ⟨port, hos, .inl ⟨hrc.symm, rfl⟩⟩
      | true =>
          refine ⟨hdue.1, rfl, rfl, rfl, ⟨rfl, rfl, rfl, rfl, rfl, rfl, rfl, rfl, rfl⟩, ?_⟩
          rcases hsent with ⟨-, hrc⟩ | ⟨port, -, hrc, hos⟩
          · exact nomatch hrc
          · exact .inr ⟨port, hos, .inr ⟨hrc.symm, rfl, rfl, rfl⟩⟩
  · exact .inl rfl

theorem csaSwitch_cases (s : Sup) (t : ℕ) :
    s.csaSwitch t = (s, []) ∨
      s.csa.phase = .armed ∧ s.csa.tSwitchUs ≤ t ∧ s.csaSwitch t
        = ({ s with csa := s.csaHopped t }, [.switched (s.csaHopped t) (s.csaHopped t).hop]) := by
  rw [Sup.csaSwitch]
  split
  · next hdue => exact .inr ⟨hdue.1, hdue.2, rfl⟩
  · exact .inl rfl

theorem csaVerify_cases (s : Sup) (t : ℕ) :
    s.csaVerify t = (s, []) ∨
      s.csa.phase = .verify ∧ s.csa.tRevertUs ≤ t ∧ ∃ iw, (iw = [] ∨ iw = s.csa.back) ∧
        s.csaVerify t = ({ s with csa := { s.csa with phase := .idle } }, [.verified s.csa iw]) := by
  rw [Sup.csaVerify]
  split
  · next hdue =>
      refine .inr ⟨hdue.1, hdue.2, _, ?_, rfl⟩
      split
      · exact .inl rfl
      · exact .inr rfl
  · exact .inl rfl

theorem csaHopped_same (s : Sup) (t : ℕ) : SameSession s.csa (s.csaHopped t) :=
  ⟨rfl, rfl, rfl, rfl, rfl, rfl, rfl, rfl, rfl⟩

/-! ## Every observation speaks for the session -/

/-- A frame, a hop or a verdict of the session. -/
def SpeaksFor (c : CsaState) : Obs → Prop
  | .frame _ f _ => ∃ seq now, c.tSwitchUs ≤ now + 5000000 ∧ f = c.commit seq now
  | .switched c' iw => SameSession c c' ∧ iw = c.hop
  | .verified c' iw => SameSession c c' ∧ (iw = [] ∨ iw = c.back)
  | _ => True

theorem SpeaksFor.of_same {c c' : CsaState} (h : SameSession c c') {o : Obs}
    (ho : SpeaksFor c' o) : SpeaksFor c o := by
  cases o with
  | frame port f sent =>
      obtain ⟨seq, now, hle, hf⟩ := ho
      exact ⟨seq, now, h.tSwitchUs ▸ hle, hf.trans (h.commit seq now)⟩
  | switched c'' iw => exact ⟨h.trans ho.1, ho.2.trans h.hop⟩
  | verified c'' iw => exact ⟨h.trans ho.1, ho.2.imp id fun hb => hb.trans h.back⟩
  | tunnel i what => trivial
  | armed c => trivial
  | refused why => trivial

/-- Nothing happens to a session that is over. -/
theorem csaTick_idle {s : Sup} (h : s.csa.phase = .idle) (t : ℕ) (io : Sup.SendIo) :
    s.csaTick t io = (s, []) := by
  have hburst : s.csaBurst t io = (s, []) := if_neg fun hd => by simp [h] at hd
  have hswitch : s.csaSwitch t = (s, []) := if_neg fun hd => by simp [h] at hd
  have hverify : s.csaVerify t = (s, []) := if_neg fun hd => by simp [h] at hd
  rw [Sup.csaTick, hburst, andThen_pure, hswitch, andThen_pure, hverify]

/-- A tick speaks for the session it finds, and leaves its numbers as they are. -/
structure Spoken (c : CsaState) (r : Sup × List Obs) : Prop where
  obs : ∀ o ∈ r.2, SpeaksFor c o
  same : SameSession c r.1.csa

theorem Spoken.andThen {c : CsaState} {r : Sup × List Obs} {k : Sup → Sup × List Obs}
    (h : Spoken c r) (hk : Spoken r.1.csa (k r.1)) : Spoken c (andThen r k) where
  obs o ho := by
    rcases List.mem_append.mp ho with ho | ho
    · exact h.obs o ho
    · exact (hk.obs o ho).of_same h.same
  same := h.same.trans hk.same

theorem Spoken.nothing (s : Sup) : Spoken s.csa (s, []) := ⟨fun _ ho => (nomatch ho), .refl _⟩

theorem csaTick_spoken {s : Sup} {t : ℕ} (hlead : s.csa.tSwitchUs ≤ t + 5000000)
    (io : Sup.SendIo) : Spoken s.csa (s.csaTick t io) := by
  refine .andThen (.andThen ?_ ?_) ?_
  · rcases csaBurst_cases s t io with h | h
    · rw [h]
      exact .nothing s
    · refine ⟨fun o ho => ?_, h.same⟩
      rcases h.frames with ⟨hos, -⟩ | ⟨port, hos, -⟩
      · rw [hos] at ho
        exact nomatch ho
      · rw [hos] at ho
        rw [List.mem_singleton.mp ho]
        exact ⟨_, t + io.lag, by omega, rfl⟩
  · generalize (s.csaBurst t io).1 = s
    rcases csaSwitch_cases s t with h | ⟨-, -, h⟩
    · rw [h]
      exact .nothing s
    · rw [h]
      refine ⟨fun o ho => ?_, csaHopped_same s t⟩
      rw [List.mem_singleton.mp ho]
      exact ⟨csaHopped_same s t, (csaHopped_same s t).hop⟩
  · generalize (andThen (s.csaBurst t io) (Sup.csaSwitch t)).1 = s
    rcases csaVerify_cases s t with h | ⟨-, -, iw, hiw, h⟩
    · rw [h]
      exact .nothing s
    · rw [h]
      refine ⟨fun o ho => ?_, ⟨rfl, rfl, rfl, rfl, rfl, rfl, rfl, rfl, rfl⟩⟩
      rw [List.mem_singleton.mp ho]
      exact ⟨.refl _, hiw⟩

@[simp] theorem csaTick_clock (s : Sup) (t : ℕ) (io : Sup.SendIo) :
    (s.csaTick t io).1.clock = s.clock := by
  have hburst : (s.csaBurst t io).1.clock = s.clock := by
    rcases csaBurst_cases s t io with h | h
    · rw [h]
    · exact h.clock
  have hswitch : ∀ s : Sup, (s.csaSwitch t).1.clock = s.clock := by
    intro s
    rcases csaSwitch_cases s t with h | ⟨-, -, h⟩ <;> rw [h]
  have hverify : ∀ s : Sup, (s.csaVerify t).1.clock = s.clock := by
    intro s
    rcases csaVerify_cases s t with h | ⟨-, -, iw, -, h⟩ <;> rw [h]
  exact (hverify _).trans ((hswitch _).trans hburst)

/-- A tick speaks for the session that is up. -/
theorem tick_spoken {s : Sup} {c : CsaState} (hsame : SameSession c s.csa)
    (hlead : c.tSwitchUs ≤ s.clock + 5000000) (dt : ℕ) (io : Sup.SendIo) :
    Spoken c (({ s with clock := s.clock + dt } : Sup).csaTick (s.clock + dt) io) := by
  have hlead' : ({ s with clock := s.clock + dt } : Sup).csa.tSwitchUs ≤ s.clock + dt + 5000000 := by
    show s.csa.tSwitchUs ≤ _
    rw [hsame.tSwitchUs]
    omega
  have hspoken := csaTick_spoken hlead' io
  refine ⟨?_, hsame.trans hspoken.same⟩
  intro o ho
  exact (hspoken.obs o ho).of_same hsame

/-! ## What an event does to the session -/

/-- A request is answered, a tick moves the session that is up, and the rest leaves it alone. -/
inductive Does (s : Sup) : Event → Sup → List Obs → Prop
  | aside {e : Event} {s' : Sup} {os : List Obs} (hpost : ∀ dt q, e ≠ .post dt q)
      (hcsa : s'.csa = s.csa) (hclock : s.clock ≤ s'.clock)
      (hos : ∀ o ∈ os, ∃ i what, o = .tunnel i what) :
      Does s e s' os
  | refused {dt : ℕ} {q : Bytes} {s' : Sup} {why : CsaRefusal} (hcsa : s'.csa = s.csa)
      (hclock : s.clock ≤ s'.clock) :
      Does s (.post dt q) s' [.refused why]
  | armed {dt : ℕ} {q : Bytes} {s' : Sup} {c : CsaState} (hidle : s.csa.phase = .idle)
      (harm : Sup.csaArm { s with clock := s.clock + dt } q (s.clock + dt) = .ok c)
      (hcsa : s'.csa = c) (hclock : s'.clock = s.clock + dt) :
      Does s (.post dt q) s' [.armed c]
  | tick {dt : ℕ} {io : Sup.SendIo} (hup : s.csa.phase ≠ .idle) :
      Does s (.tick dt io)
        (({ s with clock := s.clock + dt } : Sup).csaTick (s.clock + dt) io).1
        (({ s with clock := s.clock + dt } : Sup).csaTick (s.clock + dt) io).2

theorem step_does (s : Sup) (e : Event) : Does s e (machine.step s e).1 (machine.step s e).2 := by
  cases e with
  | tunnel i e =>
      show Does s _ (s.onTunnel i e).1 (s.onTunnel i e).2
      rw [Sup.onTunnel]
      split
      · exact .aside (by simp) rfl le_rfl (List.forall_mem_nil _)
      · refine .aside (by simp) rfl le_rfl ?_
        intro o ho
        obtain ⟨what, -, rfl⟩ := List.mem_map.mp ho
        exact ⟨i, what, rfl⟩
  | scan running =>
      show Does s _ (s.step (.scan running)).1 (s.step (.scan running)).2
      rw [Sup.step]
      split
      · exact .aside (by simp) rfl le_rfl (List.forall_mem_nil _)
      · exact .aside (by simp) rfl le_rfl (List.forall_mem_nil _)
  | post dt q =>
      show Does s _ (Sup.csaPost { s with clock := s.clock + dt } q (s.clock + dt)).1
        (Sup.csaPost { s with clock := s.clock + dt } q (s.clock + dt)).2
      rw [Sup.csaPost]
      cases harm : Sup.csaArm { s with clock := s.clock + dt } q (s.clock + dt) with
      | error why => exact .refused rfl (Nat.le_add_right ..)
      | ok c =>
          obtain ⟨chan, ifaces, ht, hacc, -⟩ := csaArm_ok harm
          exact .armed (csaFree_ok hacc.free).1 harm rfl rfl
  | tick dt io =>
      by_cases hp : s.csa.phase = .idle
      · have hnone : ({ s with clock := s.clock + dt } : Sup).csaTick (s.clock + dt) io = _ :=
          csaTick_idle (s := { s with clock := s.clock + dt }) hp _ _
        show Does s _ (({ s with clock := s.clock + dt } : Sup).csaTick (s.clock + dt) io).1
          (({ s with clock := s.clock + dt } : Sup).csaTick (s.clock + dt) io).2
        rw [hnone]
        exact .aside (by simp) rfl (Nat.le_add_right ..) (List.forall_mem_nil _)
      · exact .tick hp

/-! ## The session armed last -/

/-- Some request armed it. -/
def Requested (c : CsaState) : Prop := ∃ s q t, Sup.csaArm s q t = .ok c

/-- A session that is up is the one armed last, and its switch is at most a lead time away. -/
def Stored (s : Sup) (g : Option CsaState) : Prop :=
  s.csa.phase ≠ .idle → ∃ c, g = some c ∧ SameSession c s.csa ∧ Requested c ∧
    c.tSwitchUs ≤ s.clock + 5000000

theorem Stored.later {s s' : Sup} {g : Option CsaState} (h : Stored s g) (hcsa : s'.csa = s.csa)
    (hclock : s.clock ≤ s'.clock) : Stored s' g := by
  intro hp
  obtain ⟨c, hg, hsame, hreq, hlead⟩ := h (hcsa ▸ hp)
  exact ⟨c, hg, hcsa ▸ hsame, hreq, by omega⟩

theorem csaMs_range (q key : Bytes) (dflt : ℤ) {lo hi : ℤ} (h0 : 0 ≤ lo) (h : lo ≤ hi) :
    lo ≤ csaMs q key dflt lo hi ∧ csaMs q key dflt lo hi ≤ hi := by
  have hm := clampInt_mem h ((qsGetInt q key).getD dflt)
  rw [csaMs]
  omega

theorem csaArm_lead {s : Sup} {q : Bytes} {t : ℕ} {c : CsaState} (h : s.csaArm q t = .ok c) :
    c.tSwitchUs ≤ t + 5000000 := by
  obtain ⟨chan, ifaces, ht, -, rfl⟩ := csaArm_ok h
  have hms := csaMs_range q "lead_ms".toList 500 (show (0 : ℤ) ≤ 100 by decide)
    (show (100 : ℤ) ≤ 5000 by decide)
  show t + csaMs q "lead_ms".toList 500 100 5000 * 1000 ≤ t + 5000000
  omega

/-- A check of everything a session does against the session as it was armed. -/
def sessions (check : CsaState → Obs → Bool) : Monitor Obs (Option CsaState) where
  upd g
    | .armed c => some c
    | _ => g
  ok g
    | .frame port f sent => g.any fun c => check c (.frame port f sent)
    | .switched c' iw => g.any fun c => check c (.switched c' iw)
    | .verified c' iw => g.any fun c => check c (.verified c' iw)
    | _ => true

/-- The check holds of whatever speaks for a session some request armed. -/
def Sound (check : CsaState → Obs → Bool) : Prop :=
  ∀ c o, Requested c → SpeaksFor c o → check c o

section Sessions

variable {check : CsaState → Obs → Bool}

/-- A tick arms nothing. -/
theorem csaTick_arms_nothing (s : Sup) (t : ℕ) (io : Sup.SendIo) (c : CsaState) :
    Obs.armed c ∉ (s.csaTick t io).2 := by
  have hburst : ∀ s : Sup, Obs.armed c ∉ (s.csaBurst t io).2 := by
    intro s
    rcases csaBurst_cases s t io with h | h
    · simp [h]
    · rcases h.frames with ⟨hos, -⟩ | ⟨port, hos, -⟩ <;> simp [hos]
  have hswitch : ∀ s : Sup, Obs.armed c ∉ (s.csaSwitch t).2 := by
    intro s
    rcases csaSwitch_cases s t with h | ⟨-, -, h⟩ <;> simp [h]
  have hverify : ∀ s : Sup, Obs.armed c ∉ (s.csaVerify t).2 := by
    intro s
    rcases csaVerify_cases s t with h | ⟨-, -, iw, -, h⟩ <;> simp [h]
  intro h
  rcases List.mem_append.mp h with h | h
  · rcases List.mem_append.mp h with h | h
    · exact hburst _ h
    · exact hswitch _ h
  · exact hverify _ h

theorem accepts_of_spoken {c : CsaState} (hcheck : ∀ o, SpeaksFor c o → check c o) {os : List Obs}
    (hos : ∀ o ∈ os, SpeaksFor c o) (hne : ∀ c', Obs.armed c' ∉ os) :
    (sessions check).Accepts (some c) os ∧ (sessions check).after (some c) os = some c := by
  induction os with
  | nil => exact ⟨trivial, rfl⟩
  | cons o os ih =>
      obtain ⟨ho, hos⟩ := List.forall_mem_cons.mp hos
      have hrest := ih hos fun c' hc' => hne c' (List.mem_cons_of_mem _ hc')
      have hupd : (sessions check).upd (some c) o = some c := by
        cases o with
        | armed c' => exact absurd List.mem_cons_self (hne c')
        | _ => rfl
      rw [Monitor.accepts_cons, Monitor.after_cons, hupd]
      refine ⟨⟨?_, hrest.1⟩, hrest.2⟩
      cases o with
      | frame port f sent => exact hcheck _ ho
      | switched c' iw => exact hcheck _ ho
      | verified c' iw => exact hcheck _ ho
      | _ => rfl

theorem step_stored (hsound : Sound check) {s : Sup} {g : Option CsaState} (h : Stored s g)
    (e : Event) : (sessions check).wp g (machine.step s e) Stored := by
  have hdoes := step_does s e
  generalize machine.step s e = r at hdoes ⊢
  obtain ⟨s', os⟩ := r
  cases hdoes with
  | aside _ hcsa hclock hos =>
      refine wp_ignored ?_ (h.later hcsa hclock)
      intro o ho g
      obtain ⟨i, what, rfl⟩ := hos o ho
      exact ⟨rfl, rfl⟩
  | refused hcsa hclock => exact wp_emit rfl (h.later hcsa hclock)
  | @armed dt q _ c _ harm hcsa hclock =>
      refine wp_emit rfl ?_
      intro _
      refine ⟨c, rfl, hcsa ▸ .refl c, ⟨_, _, _, harm⟩, ?_⟩
      show c.tSwitchUs ≤ s'.clock + 5000000
      rw [hclock]
      exact csaArm_lead harm
  | @tick dt io hup =>
      obtain ⟨c, rfl, hsame, hreq, hlead⟩ := h hup
      have hspoken := tick_spoken hsame hlead dt io
      obtain ⟨hacc, hafter⟩ := accepts_of_spoken (hsound c · hreq) hspoken.obs
        (csaTick_arms_nothing _ _ io)
      have hclock := csaTick_clock { s with clock := s.clock + dt } (s.clock + dt) io
      refine ⟨hacc, fun _ => ⟨c, hafter, hspoken.same, hreq, ?_⟩⟩
      refine hlead.trans ?_
      show s.clock + 5000000 ≤ Sup.clock (Sup.csaTick _ _ io).1 + 5000000
      rw [hclock]
      exact Nat.add_le_add_right (Nat.le_add_right ..) _

/-- In every run, what a session does passes every check that is sound. -/
theorem sessions_accepts (hsound : Sound check) (tunnels : List Tunnel) (up : String)
    (es : List Event) : (sessions check).Accepts none (machine.trace (Sup.boot tunnels up) es) := by
  have hstep : ∀ (s : Sup) (g : Option CsaState) (e : Event), Stored s g → True →
      (sessions check).wp g (machine.step s e) Stored := fun s g e h _ => step_stored hsound h e
  have hinit : Stored (Sup.boot tunnels up) none := fun hne => absurd rfl hne
  exact (Machine.run_wp hstep hinit (Machine.Meets.of_forall fun _ _ => trivial)).1

end Sessions

end Waybeam.Ground
