/-
# `Waybeam.Link.Agreement` — when both end on one channel

A session is announced one way; nothing tells the ground station what became of it.  Each
party decides alone, the vehicle on anything it reads after its switch, the ground station on
a packet counter, so nothing in the protocol forces the two decisions to be the same.

    ground station    burst ──failed send──> where it is
                      burst ──> armed ──T_switch──> target ──deadline──> target or previous

Between the end of its burst and its verdict the ground station is on its way and what the
vehicle does meanwhile is no matter.  Before and after that it stays where it is, and the
vehicle has to be bound for that place: there, or in a session that leads or falls back to it
(`courses`).  Every step that can be taken under `Regular` keeps it so (`Tracks`); when both
sessions are over there is one place left to be (`agreement`).
-/
import Waybeam.Link.Pair

namespace Waybeam.Link

open Text Csa Ground

/-! ## Where the vehicle is bound for -/

/-- The channels the vehicle may end on: where it is, or the two ends of its session. -/
def courses (v : Csa.CsaState) (veh : ℤ) : List ℤ :=
  match v.st with
  | .idle => [veh]
  | .armed => [v.prevChan, v.targetChan]
  | .verify => [v.prevChan, veh]

/-- Every interface of the session is on the channel. -/
def AllOn (r : Radio) (c : Ground.CsaState) (chan : ℤ) : Prop := ∀ i ∈ c.ifaces, (r.gs i).1 = chan

instance (r : Radio) (c : Ground.CsaState) (chan : ℤ) : Decidable (AllOn r c chan) :=
  inferInstanceAs (Decidable (∀ i ∈ _, _))

/-- The ground station stays where it is, unless its burst is completed. -/
def Waits (s : Sup) : Prop := s.csa.phase = .idle ∨ s.csa.phase = .burst

instance (s : Sup) : Decidable (Waits s) := inferInstanceAs (Decidable (_ ∨ _))

/-! ## Regular steps -/

/-- The interfaces of a request that is accepted are on a channel the vehicle is bound for. -/
def AsksRight (p : Pair) (dt : ℕ) (q : Bytes) : Prop :=
  ∀ c ∈ (Sup.csaArm { p.ground with clock := p.ground.clock + dt } q (p.ground.clock + dt)).toOption,
    ∃ chan ∈ courses p.vehicle.csa p.radio.veh.1, AllOn p.radio c chan

/-- At its deadline the ground station decides for a channel the vehicle is bound for. -/
def JudgesRight (p : Pair) (s : Sup) (t : ℕ) : Prop :=
  s.csa.phase = .verify → s.csa.tRevertUs ≤ t →
    (if (s.csa.baselineRxIdx.any fun i => s.stPktAll i ≠ s.csa.baselinePktAll) || s.csa.noRevert
      then s.csa.targetChan else s.csa.prevChan) ∈ courses p.vehicle.csa p.radio.veh.1

/-- The vehicle takes what it reads for the ground station on its new channel, and it is. -/
def HearsRight (p : Pair) : Prop := Waits p.ground → p.vehicle.csa.st = .verify → p.Together

instance (p : Pair) : Decidable (HearsRight p) := inferInstanceAs (Decidable (_ → _ → _))

/-- A copy of its own frame is such a thing; what is armed leads or falls back to the channel
of the ground station. -/
def ReadsRight (cfg : CsaCfg) (p : Pair) (f : CsaCommit) (now : ℤ) : Prop :=
  ((f.sess.toNat : ℤ) = p.vehicle.csa.sess → HearsRight p) ∧
    (Waits p.ground → p.vehicle.csa.Arms cfg (readBack f) now →
      AllOn p.radio p.ground.csa f.prevChan ∨ AllOn p.radio p.ground.csa f.targetChan)

/-- The vehicle does not leave the ground station at its deadline, and where it never falls
back it switches to the channel of the ground station. -/
def TicksRight (cfg : CsaCfg) (p : Pair) (now : ℤ) : Prop :=
  (Waits p.ground → p.vehicle.csa.st = .verify → p.vehicle.csa.tRevertMs ≤ now → p.Together →
      AllOn p.radio p.ground.csa p.vehicle.csa.prevChan) ∧
    (Waits p.ground → p.vehicle.csa.st = .armed → p.vehicle.csa.tSwitchMs ≤ now → cfg.noRevert →
      AllOn p.radio p.ground.csa p.vehicle.csa.targetChan)

/-- A step that keeps the vehicle bound for the ground station. -/
def Regular (cfg : CsaCfg) (p : Pair) : Event → Prop
  | .ground (.post dt q) => AsksRight p dt q
  | .ground (.tick dt io) =>
      let s : Sup := { p.ground with clock := p.ground.clock + dt }
      let t := p.ground.clock + dt
      JudgesRight p (andThen (s.csaBurst t io) (Sup.csaSwitch t)).1 t
  | .ground _ => True
  | .deliver i now => ∀ f ∈ p.air[i]?, ReadsRight cfg p f now
  | .traffic => True
  | .hear _ => p.inbox ≠ 0 → HearsRight p
  | .tick now => TicksRight cfg p now
  | .retune _ => False

instance (cfg : CsaCfg) (p : Pair) (e : Event) : Decidable (Regular cfg p e) :=
  match e with
  | .ground (.post _ _) => inferInstanceAs (Decidable (∀ c ∈ Except.toOption _, ∃ chan ∈ _, _))
  | .ground (.tick _ _) => inferInstanceAs (Decidable (_ → _ → _ ∈ courses _ _))
  | .ground (.tunnel _ _) => inferInstanceAs (Decidable True)
  | .ground (.scan _) => inferInstanceAs (Decidable True)
  | .deliver _ _ => inferInstanceAs (Decidable (∀ f ∈ _, (_ → _) ∧ (_ → _ → _)))
  | .traffic => inferInstanceAs (Decidable True)
  | .hear _ => inferInstanceAs (Decidable (_ → _))
  | .tick _ => inferInstanceAs (Decidable ((_ → _ → _ → _ → _) ∧ (_ → _ → _ → _ → _)))
  | .retune _ => inferInstanceAs (Decidable False)

/-- Both deadlines are behind: neither is on its way. -/
def Settled (p : Pair) : Prop := Waits p.ground ∧ p.vehicle.csa.st = .idle

instance (p : Pair) : Decidable (Settled p) := inferInstanceAs (Decidable (_ ∧ _))

/-! ## What the steps keep -/

/-- Where the interfaces of the session are, and the vehicle, by the phase of the session. -/
inductive Tracks (s : Sup) (v : Csa.CsaState) (r : Radio) : Prop
  /-- before the first session -/
  | fresh (hp : s.csa.phase = .idle) (hi : s.csa.ifaces = []) (hv : v.st = .idle)
  | waits (chan : ℤ) (hp : Waits s) (hi : s.csa.ifaces ≠ []) (hg : AllOn r s.csa chan)
      (hv : chan ∈ courses v r.veh.1)
  | announced (hp : s.csa.phase = .armed) (hi : s.csa.ifaces ≠ [])
  | hopped (hp : s.csa.phase = .verify) (hi : s.csa.ifaces ≠ [])
      (hg : AllOn r s.csa s.csa.targetChan)

section Vehicle

variable {s : Sup} {v v' : Csa.CsaState} {r : Radio}

/-- Interfaces on one channel are on no other. -/
theorem AllOn.meet {c : Ground.CsaState} {chan chan' : ℤ} (h : AllOn r c chan) (hi : c.ifaces ≠ [])
    (h' : AllOn r c chan') : chan = chan' := by
  obtain ⟨i, hmem⟩ := List.exists_mem_of_ne_nil _ hi
  exact (h i hmem).symm.trans (h' i hmem)

theorem courses_idle {veh : ℤ} (h : v.st = .idle) : courses v veh = [veh] := by rw [courses, h]

theorem courses_armed {veh : ℤ} (h : v.st = .armed) :
    courses v veh = [v.prevChan, v.targetChan] := by rw [courses, h]

theorem courses_verify {veh : ℤ} (h : v.st = .verify) : courses v veh = [v.prevChan, veh] := by
  rw [courses, h]

/-- What the vehicle does is regular if it stays bound for the channel a ground station that
waits is on; one that has not had a session has sent it nothing. -/
theorem Tracks.vehicle (h : Tracks s v r) (x : Tuning)
    (hbound : ∀ chan, Waits s → s.csa.ifaces ≠ [] → AllOn r s.csa chan → chan ∈ courses v r.veh.1 →
      chan ∈ courses v' x.1)
    (hrest : v.st = .idle → s.csa.ifaces = [] → v'.st = .idle) :
    Tracks s v' { r with veh := x } := by
  cases h with
  | fresh hp hi hv => exact .fresh hp hi (hrest hv hi)
  | waits chan hp hi hg hv => exact .waits chan hp hi hg (hbound chan hp hi hg hv)
  | announced hp hi => exact .announced hp hi
  | hopped hp hi hg => exact .hopped hp hi hg

/-- The vehicle hears the ground station. -/
theorem Tracks.heard (h : Tracks s v r) (hon : Waits s → AllOn r s.csa r.veh.1) :
    Tracks s { v with st := .idle } r := by
  refine h.vehicle r.veh (fun chan hp hi hg _ => ?_) fun _ _ => rfl
  rw [courses_idle rfl, List.mem_singleton]
  exact hg.meet hi (hon hp)

/-- The vehicle arms a frame. -/
theorem Tracks.arm (h : Tracks s v r) (hi : s.csa.ifaces ≠ []) (hst' : v'.st = .armed)
    (hnames : Waits s → AllOn r s.csa v'.prevChan ∨ AllOn r s.csa v'.targetChan) :
    Tracks s v' r := by
  refine h.vehicle r.veh (fun chan hp _ hg _ => ?_) fun _ hnone => absurd hnone hi
  rw [courses_armed hst', List.mem_pair]
  exact (hnames hp).imp (hg.meet hi ·) (hg.meet hi ·)

/-- At T_switch the two ends of its session are still where it may end. -/
theorem Tracks.switch (h : Tracks s v r) (hst : v.st = .armed) (hst' : v'.st = .verify)
    (hprev : v'.prevChan = v.prevChan) (ht : Bytes) :
    Tracks s v' { r with veh := (v.targetChan, ht) } := by
  refine h.vehicle _ (fun chan _ _ _ hv => ?_) fun hidle _ => nomatch hidle.symm.trans hst
  rw [courses_armed hst] at hv
  rw [courses_verify hst', hprev]
  exact hv

/-- A vehicle that never falls back switches to where the ground station is. -/
theorem Tracks.stay (h : Tracks s v r) (hidle : v'.st = .idle)
    (hon : Waits s → AllOn r s.csa v.targetChan) (ht : Bytes) :
    Tracks s v' { r with veh := (v.targetChan, ht) } := by
  refine h.vehicle _ (fun chan hp hi hg _ => ?_) fun _ _ => hidle
  rw [courses_idle hidle, List.mem_singleton]
  exact hg.meet hi (hon hp)

/-- The vehicle falls back: to where the ground station is, or from where it is not. -/
theorem Tracks.revert (h : Tracks s v r) (hst : v.st = .verify) (hidle : v'.st = .idle)
    (hleaves : Waits s → AllOn r s.csa r.veh.1 → AllOn r s.csa v.prevChan) (ht : Bytes) :
    Tracks s v' { r with veh := (v.prevChan, ht) } := by
  refine h.vehicle _ (fun chan hp hi hg hv => ?_) fun _ _ => hidle
  rw [courses_idle hidle, List.mem_singleton]
  rw [courses_verify hst, List.mem_pair] at hv
  rcases hv with hback | hthere
  · exact hback
  · exact hg.meet hi (hleaves hp (hthere ▸ hg))

end Vehicle

section Ground

variable {s s' : Sup} {v : Csa.CsaState} {r : Radio}

/-- A frame, the end of the burst, or a failed send. -/
theorem Tracks.burst (h : Tracks s v r) (hb : s.csa.phase = .burst) (hsame : SameSession s.csa s'.csa)
    (hp' : Waits s' ∨ s'.csa.phase = .armed) : Tracks s' v r := by
  cases h with
  | fresh hp => cases hp.symm.trans hb
  | announced hp => cases hp.symm.trans hb
  | hopped hp => cases hp.symm.trans hb
  | waits chan _ hi hg hv =>
      have hi' : s'.csa.ifaces ≠ [] := hsame.ifaces ▸ hi
      rcases hp' with hp' | hp'
      · refine .waits chan hp' hi' ?_ hv
        rw [AllOn, hsame.ifaces]
        exact hg
      · exact .announced hp' hi'

theorem allOn_tune (c : Ground.CsaState) (x : Tuning) :
    AllOn (r.tune (c.ifaces.map (⟨·, x.1, x.2⟩))) c x.1 := by
  intro i hi
  rw [tune_gs, if_pos hi]

/-- T_switch. -/
theorem Tracks.hop (h : Tracks s v r) (ha : s.csa.phase = .armed) (hsame : SameSession s.csa s'.csa)
    (hp' : s'.csa.phase = .verify) : Tracks s' v (r.tune s'.csa.hop) := by
  have hon : AllOn (r.tune s'.csa.hop) s'.csa s'.csa.targetChan :=
    allOn_tune s'.csa (s'.csa.targetChan, _)
  cases h with
  | announced _ hi => exact .hopped hp' (hsame.ifaces ▸ hi) hon
  | fresh hp => cases hp.symm.trans ha
  | hopped hp => cases hp.symm.trans ha
  | waits _ hp =>
      rcases hp with hp | hp
      · cases hp.symm.trans ha
      · cases hp.symm.trans ha

/-- The deadline: the ground station stays on the target or goes back. -/
theorem Tracks.judge (h : Tracks s v r) (hv : s.csa.phase = .verify) (hsame : SameSession s.csa s'.csa)
    (hp' : s'.csa.phase = .idle) {stay : Prop} [Decidable stay]
    (hright : (if stay then s.csa.targetChan else s.csa.prevChan) ∈ courses v r.veh.1) :
    Tracks s' v (r.tune (if stay then [] else s'.csa.back)) := by
  cases h with
  | fresh hp => cases hp.symm.trans hv
  | announced hp => cases hp.symm.trans hv
  | waits _ hp =>
      rcases hp with hp | hp
      · cases hp.symm.trans hv
      · cases hp.symm.trans hv
  | hopped _ hi hg =>
      have hi' : s'.csa.ifaces ≠ [] := hsame.ifaces ▸ hi
      split
      · next hstay =>
          rw [if_pos hstay] at hright
          refine .waits s.csa.targetChan (.inl hp') hi' ?_ hright
          rw [AllOn, hsame.ifaces]
          exact hg
      · next hback =>
          rw [if_neg hback] at hright
          refine .waits s'.csa.prevChan (.inl hp') hi' (allOn_tune s'.csa (s'.csa.prevChan, _)) ?_
          rw [hsame.prevChan]
          exact hright

end Ground

/-! ## The vehicle's calls -/

section Calls

variable {cfg : CsaCfg} {s : Sup} {v : Csa.CsaState} {r : Radio}

theorem hear_tracks (h : Tracks s v r) (hon : Waits s → v.st = .verify → AllOn r s.csa r.veh.1) :
    Tracks s v.csaLinkAlive.1 ((v.csaLinkAlive.2.map Obs.vehicle).foldl Radio.see r) := by
  rw [Csa.CsaState.csaLinkAlive]
  cases hst : v.st with
  | verify => exact h.heard fun hw => hon hw hst
  | idle => exact h
  | armed => exact h

theorem tick_tracks (h : Tracks s v r) {now : ℤ}
    (hleaves : Waits s → v.st = .verify → v.tRevertMs ≤ now → AllOn r s.csa r.veh.1 →
      AllOn r s.csa v.prevChan)
    (hon : Waits s → v.st = .armed → v.tSwitchMs ≤ now → cfg.noRevert → AllOn r s.csa v.targetChan) :
    Tracks s (v.csaTick cfg now).1 (((v.csaTick cfg now).2.map Obs.vehicle).foldl Radio.see r) := by
  rw [Csa.CsaState.csaTick]
  cases hst : v.st with
  | idle => exact h
  | armed =>
      dsimp only
      split
      · next hdue =>
          cases hn : cfg.noRevert with
          | true => exact h.stay rfl (fun hw => hon hw hst hdue hn) _
          | false =>
              refine h.switch hst ?_ ?_ _
              · rfl
              · rfl
      · exact h
  | verify =>
      dsimp only
      split
      · next hdue => exact h.revert hst rfl (fun hw => hleaves hw hst hdue) _
      · exact h

theorem commit_tracks (h : Tracks s v r) {f : Commit} {now : ℤ}
    (hon : f.sess = v.sess → Waits s → v.st = .verify → AllOn r s.csa r.veh.1)
    (hi : s.csa.ifaces ≠ [])
    (hnames : Waits s → v.Arms cfg f now →
      AllOn r s.csa (v.arm f now).prevChan ∨ AllOn r s.csa (v.arm f now).targetChan) :
    Tracks s (v.onCommit cfg f now).1
      (((v.onCommit cfg f now).2.map Obs.vehicle).foldl Radio.see r) := by
  rw [Csa.CsaState.onCommit]
  cases ha : cfg.admits f with
  | false => exact h
  | true =>
      simp only [Bool.not_true, Bool.false_eq_true, if_false]
      split
      · next hown => exact h.heard fun hw => hon hown.2 hw hown.1
      · next hother =>
          split
          · next hnew =>
              cases hc : v.cooling cfg now with
              | true => exact h
              | false => exact h.arm hi rfl fun hw => hnames hw ⟨ha, hother, hnew, hc⟩
          · exact h

end Calls

/-! ## The tick of the ground station -/

section Tick

variable {p : Pair} {s : Sup} {r : Radio} {t : ℕ}

/-- What a part of a tick does to the interfaces. -/
def seen (r : Radio) (os : List Ground.Obs) : Radio := (os.map Obs.ground).foldl Radio.see r

theorem seen_append (r : Radio) (os os' : List Ground.Obs) : seen r (os ++ os') = seen (seen r os) os' := by
  rw [seen, List.map_append, List.foldl_append]
  rfl

theorem burst_tracks {v : Csa.CsaState} (h : Tracks s v r) (io : Sup.SendIo) :
    Tracks (s.csaBurst t io).1 v (seen r (s.csaBurst t io).2) ∧
      (seen r (s.csaBurst t io).2).veh = r.veh := by
  rcases csaBurst_cases s t io with hnone | hstep
  · rw [hnone]
    exact ⟨h, rfl⟩
  · have hkeep : seen r (s.csaBurst t io).2 = r := by
      rcases hstep.frames with ⟨hos, -⟩ | ⟨port, hos, -⟩
      · rw [hos]
        rfl
      · rw [hos]
        rfl
    rw [hkeep]
    refine ⟨h.burst hstep.burst hstep.same ?_, rfl⟩
    rcases hstep.frames with ⟨-, hp⟩ | ⟨port, -, ⟨-, hp⟩ | ⟨-, -, -, hp⟩⟩
    · exact .inl (.inl hp)
    · exact .inl (.inl hp)
    · rw [Waits, hp]
      split
      · exact .inr rfl
      · exact .inl (.inr rfl)

theorem switch_tracks {v : Csa.CsaState} (h : Tracks s v r) :
    Tracks (s.csaSwitch t).1 v (seen r (s.csaSwitch t).2) ∧
      (seen r (s.csaSwitch t).2).veh = r.veh := by
  rcases csaSwitch_cases s t with hnone | ⟨harmed, -, hstep⟩
  · rw [hnone]
    exact ⟨h, rfl⟩
  · rw [hstep]
    exact ⟨h.hop harmed (csaHopped_same s t) rfl, rfl⟩

theorem verify_tracks (h : Tracks s p.vehicle.csa r) (hveh : r.veh = p.radio.veh)
    (hright : JudgesRight p s t) :
    Tracks (s.csaVerify t).1 p.vehicle.csa (seen r (s.csaVerify t).2) := by
  rw [JudgesRight, ← hveh] at hright
  rw [Sup.csaVerify]
  split
  · next hdue =>
      have hsame : SameSession s.csa { s.csa with phase := .idle } :=
        ⟨rfl, rfl, rfl, rfl, rfl, rfl, rfl, rfl, rfl⟩
      exact h.judge hdue.1 hsame rfl (hright hdue.1 hdue.2)
  · exact h

theorem ground_tick_tracks {io : Sup.SendIo} (h : Tracks s p.vehicle.csa p.radio)
    (hright : JudgesRight p (andThen (s.csaBurst t io) (Sup.csaSwitch t)).1 t) :
    Tracks (s.csaTick t io).1 p.vehicle.csa (seen p.radio (s.csaTick t io).2) := by
  obtain ⟨hburst, hveh⟩ := burst_tracks (t := t) h io
  obtain ⟨hswitch, hveh'⟩ := switch_tracks (t := t) hburst
  show Tracks _ _ (seen p.radio ((andThen (s.csaBurst t io) (Sup.csaSwitch t)).2 ++ _))
  rw [seen_append]
  refine verify_tracks ?_ ?_ hright
  · show Tracks _ _ (seen p.radio ((s.csaBurst t io).2 ++ _))
    rw [seen_append]
    exact hswitch
  · show (seen p.radio ((s.csaBurst t io).2 ++ _)).veh = _
    rw [seen_append]
    exact hveh'.trans hveh

end Tick

/-! ## Every regular step keeps the vehicle bound -/

/-- Where the two are, and what the frames on the air say. -/
structure Kept (p : Pair) : Prop where
  tracks : Tracks p.ground p.vehicle.csa p.radio
  ground : ∃ q, Upholds p.ground q
  air : ∀ f ∈ p.air, ∃ q, Legible q f
  fresh : p.ground.csa.ifaces = [] → p.air = []

theorem Tracks.of_csa {s s' : Sup} {v : Csa.CsaState} {r : Radio} (h : Tracks s v r)
    (hcsa : s'.csa = s.csa) : Tracks s' v r := by
  cases h with
  | fresh hp hi hv => exact .fresh (hcsa ▸ hp) (hcsa ▸ hi) hv
  | waits chan hp hi hg hv =>
      refine .waits chan ?_ (hcsa ▸ hi) (hcsa ▸ hg) hv
      rw [Waits, hcsa]
      exact hp
  | announced hp hi => exact .announced (hcsa ▸ hp) (hcsa ▸ hi)
  | hopped hp hi hg => exact .hopped (hcsa ▸ hp) (hcsa ▸ hi) (hcsa ▸ hg)

/-- A session names an interface, and starts with its burst. -/
theorem csaArm_starts {s : Sup} {q : Bytes} {t : ℕ} {c : Ground.CsaState} (h : s.csaArm q t = .ok c) :
    c.phase = .burst ∧ c.ifaces ≠ [] := by
  obtain ⟨chan, ifaces, ht, hacc, rfl⟩ := csaArm_ok h
  obtain ⟨iface, hifaces⟩ := hacc.ifaces
  exact ⟨rfl, csaIfaces_ok hifaces⟩

/-- No frame is sent, and no interface is named or forgotten. -/
theorem Kept.quiet {p p' : Pair} (h : Kept p) (htracks : Tracks p'.ground p'.vehicle.csa p'.radio)
    {q : Bytes} (hup : Upholds p'.ground q) (hair : p'.air = p.air ++ [])
    (hi : p'.ground.csa.ifaces = [] → p.ground.csa.ifaces = []) : Kept p' where
  tracks := htracks
  ground := ⟨q, hup⟩
  air := by
    rw [hair, List.append_nil]
    exact h.air
  fresh hnil := by
    rw [hair, List.append_nil]
    exact h.fresh (hi hnil)

theorem ground_kept {cfg : CsaCfg} {p : Pair} (h : Kept p) {e : Ground.Event}
    (hright : Regular cfg p (.ground e)) : Kept (Pair.step cfg p (.ground e)).1 := by
  obtain ⟨q, hup⟩ := h.ground
  rw [Pair.step, Pair.act]
  split
  · exact h.quiet h.tracks hup rfl id
  · have hmove := ground_moves hup e
    have hup' := hmove.upholds hup
    dsimp only
    generalize hs' : (Ground.machine.step p.ground e).1 = s' at hmove hup' ⊢
    generalize hos' : (Ground.machine.step p.ground e).2 = os at hmove hup' ⊢
    cases hmove with
    | aside hq hcsa _ hos =>
        have htunnels := tunnels_of_aside hq hos
        rw [frames_of_tunnels htunnels, see_tunnels _ htunnels]
        refine h.quiet (h.tracks.of_csa hcsa) hup' rfl ?_
        intro hi
        exact hcsa ▸ hi
    | refused hcsa _ =>
        refine h.quiet (h.tracks.of_csa hcsa) hup' rfl ?_
        intro hi
        exact hcsa ▸ hi
    | armed _ harm hcsa _ =>
        obtain ⟨hburst, hi⟩ := csaArm_starts harm
        subst hcsa
        obtain ⟨chan, hv, hg⟩ := hright s'.csa (by rw [harm]; rfl)
        exact h.quiet (.waits chan (.inr hburst) hi hg hv) hup' rfl fun hnil => absurd hnil hi
    | @tick dt io c hask hsame _ hspoken =>
        have hstart : Tracks { p.ground with clock := p.ground.clock + dt } p.vehicle.csa p.radio :=
          h.tracks.of_csa rfl
        refine ⟨ground_tick_tracks hstart hright, ⟨_, hup'⟩, ?_, ?_⟩
        · intro f hf
          rcases List.mem_append.mp hf with hf | hf
          · exact h.air f hf
          · exact ⟨q, legible_of_spoken hask hspoken.obs hf⟩
        · intro hnil
          obtain ⟨s, t, harm⟩ := hask
          exact absurd (hspoken.same.ifaces.symm.trans hnil) (csaArm_starts harm).2

/-- A call of the vehicle. -/
theorem call_kept {cfg : CsaCfg} {p : Pair} {now : ℤ} {call : Call} (h : Kept p) {os : List Obs}
    (hos : os = (p.call cfg now call).2 ∨ ∃ i, os = .delivered i :: (p.call cfg now call).2)
    (htracks : Tracks p.ground (p.call cfg now call).1.vehicle.csa
      ((p.call cfg now call).2.foldl Radio.see p.radio)) :
    Kept { (p.call cfg now call).1 with
      radio := os.foldl Radio.see p.radio, air := p.air ++ os.filterMap Obs.frame } := by
  have hnone : (p.call cfg now call).2.filterMap Obs.frame = [] := frames_of_vehicle _
  have hradio : os.foldl Radio.see p.radio = (p.call cfg now call).2.foldl Radio.see p.radio := by
    rcases hos with rfl | ⟨i, rfl⟩
    · rfl
    · rfl
  have hair : os.filterMap Obs.frame = [] := by
    rcases hos with rfl | ⟨i, rfl⟩
    · exact hnone
    · exact hnone
  rw [hradio, hair, List.append_nil]
  exact ⟨htracks, h.ground, h.air, h.fresh⟩

/-- A frame is read: it was announced, so the ground station has had a session. -/
theorem deliver_kept {cfg : CsaCfg} {p : Pair} (h : Kept p) {i : ℕ} {now : ℤ}
    (hright : Regular cfg p (.deliver i now)) : Kept (Pair.step cfg p (.deliver i now)).1 := by
  obtain ⟨q, hup⟩ := h.ground
  rw [Pair.step, Pair.act]
  cases hi : p.air[i]? with
  | none => exact h.quiet h.tracks hup rfl id
  | some f =>
      obtain ⟨hown, hnew⟩ := hright f hi
      have hmem := List.mem_of_getElem? hi
      obtain ⟨q, hlegible⟩ := h.air f hmem
      have hread : frameOf f.text = some (readBack f) := frameOf_text hlegible.printable
      have hifaces : p.ground.csa.ifaces ≠ [] := by
        intro hnil
        rw [h.fresh hnil] at hmem
        cases hmem
      have hfeed : (p.vehicle.csa.csaFeed cfg f.text now).2
          = p.vehicle.csa.onCommit cfg (readBack f) now := by
        rw [csaFeed_eq, hread]
      refine call_kept h (.inr ⟨i, rfl⟩) ?_
      show Tracks p.ground (p.vehicle.csa.csaFeed cfg f.text now).2.1
        (((p.vehicle.csa.csaFeed cfg f.text now).2.2.map Obs.vehicle).foldl Radio.see p.radio)
      rw [hfeed]
      refine commit_tracks h.tracks hown hifaces ?_
      intro hw harms
      have hint : (p.vehicle.csa.arm (readBack f) now).prevChan = f.prevChan := hlegible.int
      rw [hint]
      exact hnew hw harms

theorem step_kept {cfg : CsaCfg} {p : Pair} (h : Kept p) {e : Event} (hright : Regular cfg p e) :
    Kept (Pair.step cfg p e).1 := by
  obtain ⟨q, hup⟩ := h.ground
  cases e with
  | ground e => exact ground_kept h hright
  | traffic =>
      rw [Pair.step, Pair.act]
      split
      · exact h.quiet h.tracks hup rfl id
      · exact h.quiet h.tracks hup rfl id
  | retune r => exact hright.elim
  | tick now =>
      exact call_kept h (.inl rfl) (tick_tracks h.tracks hright.1 hright.2)
  | hear now =>
      rw [Pair.step, Pair.act]
      cases hn : p.inbox with
      | zero => exact h.quiet h.tracks hup rfl id
      | succ n =>
          have hread : Kept { p with inbox := n } := ⟨h.tracks, h.ground, h.air, h.fresh⟩
          have hon : HearsRight p := hright (by omega)
          exact call_kept hread (.inl rfl) (hear_tracks hread.tracks hon)
  | deliver i now => exact deliver_kept h hright

/-- After a tick at or behind its deadlines the ground station is not on its way. -/
theorem ground_settles (s : Sup) {t : ℕ} (hswitch : s.csa.tSwitchUs ≤ t) (hrevert : s.csa.tRevertUs ≤ t)
    (io : Sup.SendIo) : Waits (s.csaTick t io).1 := by
  have hburst : SameSession s.csa (s.csaBurst t io).1.csa := by
    rcases csaBurst_cases s t io with hnone | hstep
    · rw [hnone]
    · exact hstep.same
  show Waits (((s.csaBurst t io).1.csaSwitch t).1.csaVerify t).1
  generalize (s.csaBurst t io).1 = s' at hburst ⊢
  rw [← hburst.tSwitchUs] at hswitch
  rw [← hburst.tRevertUs] at hrevert
  have hhop : (s'.csaSwitch t).1.csa.phase ≠ .armed ∧ (s'.csaSwitch t).1.csa.tRevertUs ≤ t := by
    rw [Sup.csaSwitch]
    split
    · exact ⟨by simp [Sup.csaHopped], hrevert⟩
    · next hnot => exact ⟨fun ha => hnot ⟨ha, hswitch⟩, hrevert⟩
  obtain ⟨hnot, hdue⟩ := hhop
  generalize (s'.csaSwitch t).1 = s'' at hnot hdue ⊢
  rw [Sup.csaVerify]
  split
  · exact .inl rfl
  · next hearly =>
      cases hp : s''.csa.phase with
      | idle => exact .inl hp
      | burst => exact .inr hp
      | armed => exact absurd hp hnot
      | verify => exact absurd ⟨hp, hdue⟩ hearly

/-- A tick of the vehicle at or after its deadline goes on, and from VERIFY to the end. -/
theorem vehicle_settles (cfg : CsaCfg) {v : Csa.CsaState} {now : ℤ} (h : v.nextDeadline ≤ now) :
    (v.csaTick cfg now).1.st ≠ .armed ∧ (v.st ≠ .armed → (v.csaTick cfg now).1.st = .idle) := by
  rw [Csa.CsaState.csaTick]
  cases hst : v.st with
  | idle =>
      refine ⟨fun ha => ?_, fun _ => hst⟩
      cases hst.symm.trans ha
  | armed =>
      have hdue : v.tSwitchMs ≤ now := by simpa [Csa.CsaState.nextDeadline, hst] using h
      rw [if_pos hdue]
      refine ⟨?_, fun ha => absurd rfl ha⟩
      cases cfg.noRevert with
      | true =>
          intro ha
          cases ha
      | false =>
          intro ha
          cases ha
  | verify =>
      have hdue : v.tRevertMs ≤ now := by simpa [Csa.CsaState.nextDeadline, hst] using h
      rw [if_pos hdue]
      refine ⟨fun ha => ?_, fun _ => rfl⟩
      cases ha

/-- An uplink and a downlink on one interface. -/
def siteTunnels : List Tunnel :=
  [{ name := "uplink", role := .tx, ifaces := ["wlan0".toList], udpInPort := 5801 },
    { name := "video", role := .rx, ifaces := ["wlan0".toList] }]

/-- Everything is on channel 161. -/
def siteRadio : Radio := ⟨fun _ => (161, "HT20".toList), (161, "HT20".toList)⟩

def site : Pair := Pair.boot siteTunnels "uplink" siteRadio

def request (q : String) : Event := .ground (.post 0 q.toList)

/-- Ticks that come in time for the next frame. -/
def sends (n : ℕ) : List Event := List.replicate n (.ground (.tick 20000 ⟨0, true⟩))

def failedSend : Event := .ground (.tick 20000 ⟨0, false⟩)

def later (us : ℕ) : Event := .ground (.tick us ⟨0, true⟩)

/-- The video tunnel's wfb_rx gets a packet and reports it, and the record is read. -/
def heardVideo : List Event :=
  [.ground (.tunnel 1 .packet), .ground (.tunnel 1 (.dump true)), .ground (.tunnel 1 .drain)]

/-- A hop to 149 that both confirm, then one to 100 whose burst is cut short: the vehicle goes
alone and comes back. -/
def regularRun : List Event :=
  [.ground (.tunnel 1 .spawn), request "chan=149&ht=HT20&iface=wlan0&prev_chan=161"] ++ sends 5 ++
    [.deliver 0 100, later 400000, .tick 600, .traffic, .hear 610] ++ heardVideo ++
    [later 3000000, request "chan=100&ht=HT20&iface=wlan0&prev_chan=149", later 0, failedSend,
      .deliver 5 4000, .tick 4500, .tick 7500]

/-- A frame of the session in flight reaches the vehicle before T_switch. -/
def Announced (cfg : CsaCfg) (p : Pair) : List Event → Prop
  | [] => False
  | e :: es =>
      (match e with
        | .deliver i _ =>
            ∃ f ∈ p.air[i]?, f.sess = p.ground.csa.sess ∧ p.ground.clock < p.ground.csa.tSwitchUs
        | _ => False) ∨
      Announced cfg (Pair.step cfg p e).1 es

instance decAnnounced (cfg : CsaCfg) : ∀ (p : Pair) (es : List Event), Decidable (Announced cfg p es)
  | _, [] => inferInstanceAs (Decidable False)
  | p, e :: es =>
      have := decAnnounced cfg (Pair.step cfg p e).1 es
      match e with
      | .deliver i _ =>
          inferInstanceAs (Decidable ((∃ f ∈ p.air[i]?, f.sess = p.ground.csa.sess ∧
            p.ground.clock < p.ground.csa.tSwitchUs) ∨ Announced cfg (Pair.step cfg p _).1 es))
      | .ground _ | .traffic | .hear _ | .tick _ | .retune _ =>
          inferInstanceAs (Decidable (False ∨ Announced cfg (Pair.step cfg p _).1 es))

/-- The vehicle does not take the channel, and the ground station was told not to come back. -/
def noRevertRun : List Event :=
  request "chan=149&ht=HT20&iface=wlan0&prev_chan=161&no_revert=1" :: sends 5 ++
    [.deliver 0 100, later 400000, later 3000000]

/-- The burst is cut short; a copy of its one frame comes after the vehicle's switch. -/
def lateCopyRun : List Event :=
  request "chan=149&ht=HT20&iface=wlan0&prev_chan=161" :: sends 1 ++
    [failedSend, .deliver 0 100, .tick 600, .deliver 0 700]

/-- The same with a datagram from before the switch that is read behind it. -/
def queuedRun : List Event :=
  request "chan=149&ht=HT20&iface=wlan0&prev_chan=161" :: sends 1 ++
    [failedSend, .traffic, .deliver 0 100, .tick 600, .hear 610]

/-- The same with a request that names no previous channel. -/
def unnamedCutRun : List Event :=
  request "chan=149&ht=HT20&iface=wlan0" :: sends 1 ++
    [failedSend, .deliver 0 100, .tick 600, .tick 3700]

/-- Both hop and hear each other, but no record of it is read before the deadline. -/
def unreadRun : List Event :=
  .ground (.tunnel 1 .spawn) :: request "chan=149&ht=HT20&iface=wlan0&prev_chan=161" :: sends 5 ++
    [.deliver 0 100, later 400000, .tick 600, .traffic, .hear 610, .ground (.tunnel 1 .packet),
      later 3000000]

/-- A hop both confirm, and then a frame of a session that was cut short before it. -/
def oldFrameRun : List Event :=
  .ground (.tunnel 1 .spawn) :: request "chan=100&ht=HT20&iface=wlan0&prev_chan=161" :: sends 1 ++
    [failedSend, request "chan=149&ht=HT20&iface=wlan0&prev_chan=161"] ++ sends 5 ++
    [.deliver 1 200, later 400000, .tick 700, .traffic, .hear 710] ++ heardVideo ++
    [later 3000000, .deliver 0 10000, .tick 10500, .tick 14000]

/-- A hop both confirm; the vehicle hears nothing before its deadline and leaves. -/
def deafRun : List Event :=
  .ground (.tunnel 1 .spawn) :: request "chan=149&ht=HT20&iface=wlan0&prev_chan=161" :: sends 5 ++
    [.deliver 0 100, later 400000, .tick 600] ++ heardVideo ++ [later 3000000, .tick 4000]

/-- The interface of the session is on another channel than the vehicle. -/
def strayRun : List Event :=
  request "chan=149&ht=HT20&iface=wlan1&prev_chan=161" :: sends 1 ++ [.deliver 0 100, failedSend]

def straySite : Pair :=
  Pair.boot [{ name := "uplink", role := .tx, ifaces := ["wlan1".toList], udpInPort := 5801 }] "uplink"
    ⟨fun _ => (36, "HT20".toList), (161, "HT20".toList)⟩

/-- A run of the two from a start of its own. -/
structure Trial where
  cfg : CsaCfg := {}
  start : Pair := site
  run : List Event

def Trial.ends (x : Trial) : Pair := (Pair.machine x.cfg).run x.start x.run

/-- How many steps of a run are not regular. -/
def irregular (cfg : CsaCfg) (p : Pair) : List Event → ℕ
  | [] => 0
  | e :: es =>
      (if Regular cfg p e then 0 else 1) + irregular cfg ((Pair.machine cfg).step p e).1 es

/-- Runs that leave the two apart, each for another reason. -/
def apartRuns : List Trial :=
  [{ cfg := { allowChan := [161] }, start := straySite, run := strayRun },
    { cfg := { allowChan := [161] }, run := noRevertRun }, { run := unreadRun },
    { run := lateCopyRun }, { run := queuedRun }, { run := unnamedCutRun }, { run := oldFrameRun },
    { run := deafRun }, { cfg := { noRevert := true }, run := lateCopyRun }]

end Waybeam.Link
