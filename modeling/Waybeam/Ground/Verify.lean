/-
# `Waybeam.Ground.Verify` — what the packet counter tells of the hop

VERIFY compares `st_pkt_all` at the revert deadline with its value at T_switch.  The writer
of the records clears its counters after each, so `st_pkt_all` is not a running total but the
count of one interval: the last that was read.  Beside the code runs a ledger of what the
watched wfb_rx really received:

    interval   packets since its last record
    pending    the counts of the records that wait
    held       the count of the record read last
    before     `held` at T_switch
    since      packets since T_switch

The code keeps all of them but `since`, modulo 2^32 (`Tells`).  So the decision is right at
a deadline exactly when `held ≠ before` says the same as `since ≠ 0` (`CountsTell`): equal
counts over a live link revert it, a silent record after a busy one keeps a dead link.
-/
import Waybeam.Ground.Session

namespace Waybeam.Ground

/-! ## The ledger -/

/-- What the watched tunnel received and reported. -/
structure Ledger where
  interval : ℕ := 0
  pending : List ℕ := []
  held : ℕ := 0
  before : ℕ := 0
  since : ℕ := 0
  deriving DecidableEq, Repr

namespace Ledger

/-- What is seen of the watched tunnel. -/
def note (g : Ledger) : Stat → Ledger
  | .received => { g with interval := g.interval + 1, since := g.since + 1 }
  | .recorded sent =>
      { g with interval := 0, pending := if sent then g.pending ++ [g.interval] else g.pending }
  | .drained => { g with held := g.pending.getLastD g.held, pending := [] }
  | .discarded => { g with pending := [] }
  | .spawned => { g with interval := 0, held := 0 }

/-- T_switch. -/
def switch (g : Ledger) : Ledger := { g with before := g.held, since := 0 }

/-- The two counts are the same in 32 bits. -/
def Same (g : Ledger) : Prop := g.held % 2 ^ 32 = g.before % 2 ^ 32

instance (g : Ledger) : Decidable g.Same := inferInstanceAs (Decidable (_ = _))

end Ledger

/-- A session that reaches its deadline in VERIFY goes back iff nothing was received since
T_switch, unless it was told not to.  `w` is the tunnel watched. -/
def verdicts (w : Option ℕ) : Monitor Obs Ledger where
  upd g
    | .tunnel i what => if w = some i then g.note what else g
    | .switched .. => g.switch
    | _ => g
  ok g
    | .verified csa iw => csa.noRevert || iw = (if g.since = 0 then csa.back else [])
    | _ => true

/-- At a deadline, the last record read before it carries another count than the last read
before T_switch exactly when a packet was received in between. -/
def CountsTell (sg : Sup × Ledger) (e : Event) : Prop :=
  match e with
  | .tick dt _ =>
      sg.1.csa.phase = .verify → sg.1.csa.tRevertUs ≤ sg.1.clock + dt → sg.1.csa.noRevert = false →
        (sg.2.Same ↔ sg.2.since = 0)
  | _ => True

/-! ## The code's side of the ledger -/

/-- The counts the code keeps are the ledger's, in 32 bits. -/
structure Tells (t : Tunnel) (g : Ledger) : Prop where
  running : ∀ all ∈ t.countPAll, all = UInt32.ofNat g.interval
  waiting : t.socket = g.pending.map fun n => ⟨UInt32.ofNat n⟩
  held : t.stPktAll = UInt32.ofNat g.held

theorem foldl_takeRecord (t : Tunnel) (rs : List RxRecord) :
    (rs.foldl Tunnel.takeRecord t).stPktAll = (rs.map RxRecord.all).getLastD t.stPktAll ∧
      (rs.foldl Tunnel.takeRecord t).countPAll = t.countPAll := by
  induction rs generalizing t with
  | nil => exact ⟨rfl, rfl⟩
  | cons r rs ih =>
      obtain ⟨hlast, hcount⟩ := ih (t.takeRecord r)
      refine ⟨?_, hcount⟩
      rw [List.foldl_cons, hlast, List.map_cons, List.getLastD_cons]
      rfl

theorem getLastD_map_ofNat (ns : List ℕ) (n : ℕ) :
    (ns.map UInt32.ofNat).getLastD (UInt32.ofNat n) = UInt32.ofNat (ns.getLastD n) := by
  induction ns generalizing n with
  | nil => rfl
  | cons m ns ih => rw [List.map_cons, List.getLastD_cons, List.getLastD_cons, ih]

/-- What a tunnel does to its counters, the ledger notes. -/
theorem Tells.step {t : Tunnel} {g : Ledger} (h : Tells t g) (hrx : t.role = .rx)
    (e : TunnelEvent) : Tells (t.step e).1 ((t.step e).2.foldl Ledger.note g) := by
  cases e with
  | packet =>
      rw [Tunnel.step]
      cases hc : t.countPAll with
      | none => exact h
      | some all =>
          refine ⟨?_, h.waiting, h.held⟩
          intro all' hall'
          cases hall'
          rw [h.running all hc]
          exact (UInt32.ofNat_add ..).symm
  | dump sent =>
      rw [Tunnel.step]
      cases hc : t.countPAll with
      | none => exact h
      | some all =>
          refine ⟨?_, ?_, h.held⟩
          · intro all' hall'
            cases hall'
            rfl
          · show (if sent then t.socket ++ [⟨all⟩] else t.socket) = List.map _
              (if sent then g.pending ++ [g.interval] else g.pending)
            rw [h.waiting, h.running all hc]
            cases sent <;> simp
  | exit => exact ⟨fun all hall => (nomatch hall), h.waiting, h.held⟩
  | spawn =>
      rw [Tunnel.step, hrx]
      refine ⟨?_, h.waiting, rfl⟩
      intro all' hall'
      cases hall'
      rfl
  | drain =>
      obtain ⟨hlast, hcount⟩ := foldl_takeRecord t t.socket
      refine ⟨fun all hall => h.running all (hcount ▸ hall), rfl, ?_⟩
      show (t.socket.foldl Tunnel.takeRecord t).stPktAll = _
      have hmap : t.socket.map RxRecord.all = g.pending.map UInt32.ofNat := by
        rw [h.waiting, List.map_map]
        rfl
      rw [hlast, hmap, h.held]
      exact getLastD_map_ofNat ..
  | scanDrain => exact ⟨h.running, rfl, h.held⟩

@[simp] theorem Tunnel.step_role (t : Tunnel) (e : TunnelEvent) : (t.step e).1.role = t.role := by
  have hfold : ∀ (rs : List RxRecord) (t : Tunnel), (rs.foldl takeRecord t).role = t.role := by
    intro rs
    induction rs with
    | nil => intro t; rfl
    | cons r rs ih => intro t; exact ih (t.takeRecord r)
  cases e with
  | packet => rw [Tunnel.step]; cases t.countPAll <;> rfl
  | dump sent => rw [Tunnel.step]; cases t.countPAll <;> rfl
  | spawn => rw [Tunnel.step]; split <;> rfl
  | drain => exact hfold t.socket t
  | exit => rfl
  | scanDrain => rfl

/-! ## The supervisor's side -/

theorem Sup.pick_eq (s : Sup) :
    s.csaPickRxTunnelIdx = (s.tunnels.map Tunnel.role).findIdx? (· = .rx) := by
  rw [List.findIdx?_map]
  rfl

theorem Sup.onTunnel_of_some {s : Sup} {i : ℕ} {t : Tunnel} (h : s.tunnels[i]? = some t)
    (e : TunnelEvent) :
    s.onTunnel i e
      = ({ s with tunnels := s.tunnels.set i (t.step e).1 }, (t.step e).2.map (.tunnel i)) := by
  rw [Sup.onTunnel, h]

/-- A tunnel keeps its role, so the watched tunnel stays the same. -/
theorem roles_set {ts : List Tunnel} {i : ℕ} {t : Tunnel} (h : ts[i]? = some t) (e : TunnelEvent) :
    (ts.set i (t.step e).1).map Tunnel.role = ts.map Tunnel.role := by
  rw [List.map_set, t.step_role]
  refine List.ext_getElem? ?_
  intro j
  rw [List.getElem?_set]
  split
  · next hij =>
      subst hij
      have hlt := (List.getElem?_eq_some_iff.mp h).1
      rw [List.getElem?_map, h]
      simp [hlt]
  · rfl

/-- The ledger takes down the watched tunnel only. -/
theorem after_tunnel (w : Option ℕ) (g : Ledger) (i : ℕ) (os : List Stat) :
    (verdicts w).after g (os.map (.tunnel i)) = if w = some i then os.foldl Ledger.note g else g := by
  rw [Monitor.after, List.foldl_map]
  by_cases hw : w = some i
  · simp [verdicts, hw]
  · simp [verdicts, hw]

theorem accepts_tunnel (w : Option ℕ) (g : Ledger) (i : ℕ) (os : List Stat) :
    (verdicts w).Accepts g (os.map (.tunnel i)) := by
  induction os generalizing g with
  | nil => trivial
  | cons o os ih => exact ⟨rfl, ih _⟩

theorem Ledger.before_foldl_note (os : List Stat) (g : Ledger) :
    (os.foldl Ledger.note g).before = g.before := by
  induction os generalizing g with
  | nil => rfl
  | cons o os ih =>
      rw [List.foldl_cons, ih]
      cases o <;> rfl

/-- The state and the ledger of the tunnel it watches. -/
structure Watched (w : Option ℕ) (s : Sup) (g : Ledger) : Prop where
  pick : s.csaPickRxTunnelIdx = w
  tells : ∀ i ∈ w, ∃ t, s.tunnels[i]? = some t ∧ t.role = .rx ∧ Tells t g
  nothing : w = none → g = {}
  baseline : s.csa.phase = .verify → s.csa.baselineRxIdx = w ∧
    (w.isSome → s.csa.baselinePktAll = UInt32.ofNat g.before)
  ifaces : s.csa.phase ≠ .idle → s.csa.ifaces ≠ []

namespace Watched

variable {w : Option ℕ} {s : Sup} {g : Ledger}

/-- The count the code holds of the watched tunnel. -/
theorem stPktAll (h : Watched w s g) {i : ℕ} (hi : i ∈ w) : s.stPktAll i = UInt32.ofNat g.held := by
  obtain ⟨t, ht, -, htells⟩ := h.tells i hi
  rw [Sup.stPktAll, ht]
  exact htells.held

/-- Everything but the session may change, as long as the tunnels stay. -/
theorem of_session (h : Watched w s g) {s' : Sup} (ht : s'.tunnels = s.tunnels)
    (hb : s'.csa.phase = .verify → s'.csa.baselineRxIdx = w ∧
      (w.isSome → s'.csa.baselinePktAll = UInt32.ofNat g.before))
    (hi : s'.csa.phase ≠ .idle → s'.csa.ifaces ≠ []) : Watched w s' g where
  pick := by
    rw [Sup.pick_eq, ht, ← Sup.pick_eq]
    exact h.pick
  tells := ht ▸ h.tells
  nothing := h.nothing
  baseline := hb
  ifaces := hi

/-- The session is over. -/
theorem idle (h : Watched w s g) {s' : Sup} (ht : s'.tunnels = s.tunnels)
    (hp : s'.csa.phase = .idle) : Watched w s' g :=
  h.of_session ht (fun hv => absurd (hp.symm.trans hv) (by decide)) (fun hn => absurd hp hn)

/-- What happens to a tunnel, watched or not. -/
theorem onTunnel (h : Watched w s g) (i : ℕ) (e : TunnelEvent) :
    Watched w (s.onTunnel i e).1 ((verdicts w).after g (s.onTunnel i e).2) := by
  cases ht : s.tunnels[i]? with
  | none =>
      rw [Sup.onTunnel, ht]
      exact h
  | some t =>
      rw [Sup.onTunnel_of_some ht e, after_tunnel]
      refine ⟨?_, ?_, ?_, ?_, h.ifaces⟩
      · rw [Sup.pick_eq]
        show (List.map Tunnel.role (s.tunnels.set i (t.step e).1)).findIdx? _ = w
        rw [roles_set ht e, ← Sup.pick_eq]
        exact h.pick
      · intro j hj
        obtain ⟨tj, htj, hrx, htells⟩ := h.tells j hj
        show ∃ t', (s.tunnels.set i (t.step e).1)[j]? = some t' ∧ _
        rw [List.getElem?_set]
        by_cases hij : i = j
        · subst hij
          cases ht.symm.trans htj
          have hlt := (List.getElem?_eq_some_iff.mp ht).1
          have hw : w = some i := hj
          rw [if_pos rfl, if_pos hlt, if_pos hw]
          exact ⟨_, rfl, (t.step_role e).trans hrx, htells.step hrx e⟩
        · have hw : w ≠ some i := fun hw => hij (Option.some.inj (hw.symm.trans hj))
          rw [if_neg hij, if_neg hw]
          exact ⟨tj, htj, hrx, htells⟩
      · intro hw
        rw [if_neg (by simp [hw])]
        exact h.nothing hw
      · intro hv
        refine ⟨(h.baseline hv).1, fun hw => ?_⟩
        have hsame : (if w = some i then (t.step e).2.foldl Ledger.note g else g).before = g.before := by
          split
          · exact Ledger.before_foldl_note ..
          · rfl
        rw [hsame]
        exact (h.baseline hv).2 hw

/-- A session that is not in VERIFY, over the same tunnels. -/
theorem quiet (h : Watched w s g) {s' : Sup} (ht : s'.tunnels = s.tunnels)
    (hp : s'.csa.phase ≠ .verify) (hi : s'.csa.phase ≠ .idle → s'.csa.ifaces ≠ []) :
    Watched w s' g :=
  h.of_session ht (fun hv => absurd hv hp) hi

/-- A request arms a session with interfaces, or changes nothing. -/
theorem post (h : Watched w s g) (q : Bytes) (t : ℕ) :
    (verdicts w).wp g (s.csaPost q t) (Watched w) := by
  rw [Sup.csaPost]
  cases harm : s.csaArm q t with
  | error why => exact wp_emit rfl h
  | ok csa =>
      obtain ⟨chan, ifaces, ht, hacc, rfl⟩ := csaArm_ok harm
      obtain ⟨iface, hifaces⟩ := hacc.ifaces
      exact wp_emit rfl (h.quiet rfl (fun hv => CsaPhase.noConfusion hv) fun _ => csaIfaces_ok hifaces)

end Watched

/-! ## The tick -/

/-- The frames of a burst are no business of the ledger. -/
theorem BurstStep.ignored {s s' : Sup} {t : ℕ} {io : Sup.SendIo} {os : List Obs}
    (h : BurstStep s t io s' os) (w : Option ℕ) : ∀ o ∈ os, (verdicts w).Ignores o := by
  intro o ho
  rcases h.frames with ⟨hos, -⟩ | ⟨port, hos, -⟩
  · rw [hos] at ho
    exact absurd ho List.not_mem_nil
  · rw [hos] at ho
    rw [List.mem_singleton.mp ho]
    exact fun g => ⟨rfl, rfl⟩

/-- A burst leaves the watched tunnel and the session's interfaces as they are. -/
theorem Watched.burst {w : Option ℕ} {s s' : Sup} {g : Ledger} (h : Watched w s g) {t : ℕ}
    {io : Sup.SendIo} {os : List Obs} (hb : BurstStep s t io s' os) : Watched w s' g := by
  refine h.quiet hb.tunnels hb.not_verify ?_
  intro _
  rw [hb.same.ifaces]
  exact h.ifaces (by simp [hb.burst])

/-- At T_switch the ledger notes what the code notes. -/
theorem Watched.switch {w : Option ℕ} {s : Sup} {g : Ledger} (h : Watched w s g) (t : ℕ) :
    (verdicts w).wp g (s.csaSwitch t) (Watched w) := by
  rw [Sup.csaSwitch]
  split
  · next hdue =>
      refine wp_emit rfl ⟨h.pick, ?_, ?_, fun _ => ⟨h.pick, fun hw => ?_⟩, fun _ => ?_⟩
      · intro i hi
        obtain ⟨ti, hti, hrx, htells⟩ := h.tells i hi
        exact ⟨ti, hti, hrx, htells.running, htells.waiting, htells.held⟩
      · intro hw
        rw [h.nothing hw]
        rfl
      · obtain ⟨i, hi⟩ := Option.isSome_iff_exists.mp hw
        show (s.csaPickRxTunnelIdx.map s.stPktAll).getD 0 = UInt32.ofNat g.held
        rw [h.pick, hi]
        exact h.stPktAll hi
      · exact h.ifaces (by simp [hdue.1])
  · exact wp_pure h

/-- The counter the code compares, by the ledger. -/
theorem Watched.alive_iff {w : Option ℕ} {s : Sup} {g : Ledger} (h : Watched w s g)
    (hv : s.csa.phase = .verify) :
    (s.csa.baselineRxIdx.any fun i => s.stPktAll i ≠ s.csa.baselinePktAll)
      ↔ ¬g.Same := by
  obtain ⟨hidx, hbase⟩ := h.baseline hv
  rw [hidx]
  cases hw : w with
  | none => simp [h.nothing hw, Ledger.Same]
  | some i =>
      have hheld := h.stPktAll (i := i) hw
      have hbefore := hbase (by simp [hw])
      simp [hheld, hbefore, ← UInt32.toNat_inj, Ledger.Same]

/-- The decision at the deadline. -/
theorem Watched.verify_iff {w : Option ℕ} {s : Sup} {g : Ledger} (h : Watched w s g) (t : ℕ) :
    (verdicts w).Accepts g (s.csaVerify t).2 ↔
      (s.csa.phase = .verify → s.csa.tRevertUs ≤ t → s.csa.noRevert = false →
        (g.Same ↔ g.since = 0)) := by
  rw [Sup.csaVerify]
  by_cases hdue : s.csa.phase = .verify ∧ s.csa.tRevertUs ≤ t
  · have halive := h.alive_iff hdue.1
    have hback : s.csa.back ≠ [] := by
      rw [CsaState.back, ne_eq, List.map_eq_nil_iff]
      exact h.ifaces (by simp [hdue.1])
    rw [if_pos hdue]
    generalize (s.csa.baselineRxIdx.any fun i => s.stPktAll i ≠ s.csa.baselinePktAll) = alive
      at halive ⊢
    simp only [Monitor.accepts_cons, Monitor.accepts_nil, and_true, verdicts, hdue, true_imp_iff]
    cases hn : s.csa.noRevert with
    | true => simp
    | false =>
        cases alive with
        | true =>
            have hne : ¬g.Same := halive.mp rfl
            by_cases hs : g.since = 0 <;> simp [hs, hne, hback.symm]
        | false =>
            have heq : g.Same := not_not.mp fun hne => absurd (halive.mpr hne) (by decide)
            by_cases hs : g.since = 0 <;> simp [hs, heq, hback]
  · rw [if_neg hdue]
    simp only [Monitor.accepts_nil, true_iff]
    intro hv ht
    exact absurd ⟨hv, ht⟩ hdue

/-- The deadline ends the session. -/
theorem Watched.verify {w : Option ℕ} {s : Sup} {g : Ledger} (h : Watched w s g) (t : ℕ) :
    Watched w (s.csaVerify t).1 ((verdicts w).after g (s.csaVerify t).2) := by
  rw [Sup.csaVerify]
  split
  · exact h.idle rfl rfl
  · exact h

/-- What leads up to the deadline in one tick: nothing for a session in VERIFY, and for one
that comes into VERIFY here, no time to receive anything. -/
theorem Watched.untilVerify {w : Option ℕ} {s : Sup} {g : Ledger} (h : Watched w s g) (t : ℕ)
    (io : Sup.SendIo) :
    (verdicts w).wp g (andThen (s.csaBurst t io) (Sup.csaSwitch t)) fun s' g' =>
      Watched w s' g' ∧ (s.csa.phase = .verify → s' = s ∧ g' = g) ∧
        (s.csa.phase ≠ .verify → s'.csa.phase = .verify → g'.Same ∧ g'.since = 0) := by
  have hswitch : ∀ (s' : Sup) (g' : Ledger), Watched w s' g' →
      (s.csa.phase = .verify → s' = s ∧ g' = g) →
      (s.csa.phase ≠ .verify → s'.csa.phase ≠ .verify) →
      (verdicts w).wp g' (s'.csaSwitch t) fun s' g' =>
        Watched w s' g' ∧ (s.csa.phase = .verify → s' = s ∧ g' = g) ∧
          (s.csa.phase ≠ .verify → s'.csa.phase = .verify → g'.Same ∧ g'.since = 0) := by
    intro s' g' hw hsame hne
    have hstep := hw.switch t
    by_cases hdue : s'.csa.phase = .armed ∧ s'.csa.tSwitchUs ≤ t
    · rw [Sup.csaSwitch, if_pos hdue] at hstep ⊢
      refine ⟨hstep.1, hstep.2, fun hv => ?_, fun _ _ => ⟨rfl, rfl⟩⟩
      obtain ⟨rfl, -⟩ := hsame hv
      exact absurd (hv.symm.trans hdue.1) (by decide)
    · rw [Sup.csaSwitch, if_neg hdue]
      exact ⟨trivial, hw, hsame, fun hv hv' => absurd hv' (hne hv)⟩
  refine wp_andThen ?_
  rcases csaBurst_cases s t io with hsame | hb
  · rw [hsame]
    exact wp_pure (hswitch s g h (fun _ => ⟨rfl, rfl⟩) id)
  · refine wp_ignored (hb.ignored w) (hswitch _ g (h.burst hb) (fun hv => ?_) fun _ => hb.not_verify)
    exact absurd (hv.symm.trans hb.burst) (by decide)

theorem Watched.tick {w : Option ℕ} {s : Sup} {g : Ledger} (h : Watched w s g) (t : ℕ)
    (io : Sup.SendIo) :
    ((verdicts w).Accepts g (s.csaTick t io).2 ↔
      (s.csa.phase = .verify → s.csa.tRevertUs ≤ t → s.csa.noRevert = false →
        (g.Same ↔ g.since = 0))) ∧
      Watched w (s.csaTick t io).1 ((verdicts w).after g (s.csaTick t io).2) := by
  obtain ⟨hacc, hw, hsame, hfresh⟩ := h.untilVerify t io
  rw [Sup.csaTick]
  generalize andThen (s.csaBurst t io) (Sup.csaSwitch t) = r at hacc hw hsame hfresh
  obtain ⟨s', os⟩ := r
  dsimp only at hacc hw hsame hfresh
  show ((verdicts w).Accepts g (os ++ (s'.csaVerify t).2) ↔ _) ∧
    Watched w (s'.csaVerify t).1 ((verdicts w).after g (os ++ (s'.csaVerify t).2))
  rw [Monitor.accepts_append, Monitor.after_append, hw.verify_iff]
  refine ⟨?_, hw.verify t⟩
  by_cases hv : s.csa.phase = .verify
  · obtain ⟨rfl, hg⟩ := hsame hv
    rw [hg]
    exact and_iff_right hacc
  · refine iff_of_true ⟨hacc, fun hv' _ _ => ?_⟩ fun hv' => absurd hv' hv
    obtain ⟨hs, hz⟩ := hfresh hv hv'
    exact iff_of_true hs hz

/-! ## The runs -/

theorem boot_watched (tunnels : List Tunnel) (up : String) :
    Watched (Sup.boot tunnels up).csaPickRxTunnelIdx (Sup.boot tunnels up) {} where
  pick := rfl
  tells i hi := by
    obtain ⟨hlt, hrx, -⟩ := List.findIdx?_eq_some_iff_getElem.mp hi
    have hmap : i < tunnels.length := by simpa [Sup.boot] using hlt
    refine ⟨_, List.getElem?_eq_getElem hlt, by simpa using hrx, ?_⟩
    simp only [Sup.boot, List.getElem_map]
    exact ⟨fun all hall => (nomatch hall), rfl, rfl⟩
  nothing _ := rfl
  baseline hv := CsaPhase.noConfusion hv
  ifaces hn := absurd rfl hn

/-- One event: the decision is right iff the counts tell, and the ledger goes on. -/
theorem step_verdict {w : Option ℕ} {s : Sup} {g : Ledger} (h : Watched w s g) (e : Event) :
    ((verdicts w).Accepts g (machine.step s e).2 ↔ CountsTell (s, g) e) ∧
      Watched w (machine.step s e).1 ((verdicts w).after g (machine.step s e).2) := by
  cases e with
  | tunnel i e =>
      refine ⟨iff_of_true ?_ trivial, h.onTunnel i e⟩
      show (verdicts w).Accepts g (s.onTunnel i e).2
      rw [Sup.onTunnel]
      split
      · trivial
      · exact accepts_tunnel ..
  | scan running =>
      refine ⟨iff_of_true ?_ trivial, ?_⟩
      · show (verdicts w).Accepts g (s.step (.scan running)).2
        rw [Sup.step]
        split <;> trivial
      · show Watched w (s.step (.scan running)).1 ((verdicts w).after g (s.step (.scan running)).2)
        rw [Sup.step]
        split
        · exact h
        · exact ⟨h.pick, h.tells, h.nothing, h.baseline, h.ifaces⟩
  | post dt q =>
      have hlater : Watched w { s with clock := s.clock + dt } g :=
        ⟨h.pick, h.tells, h.nothing, h.baseline, h.ifaces⟩
      have hpost := hlater.post q (s.clock + dt)
      exact ⟨iff_of_true hpost.1 trivial, hpost.2⟩
  | tick dt io =>
      have hlater : Watched w { s with clock := s.clock + dt } g :=
        ⟨h.pick, h.tells, h.nothing, h.baseline, h.ifaces⟩
      exact hlater.tick (s.clock + dt) io

/-- Every session that reaches its deadline goes back iff its tunnel received nothing since
T_switch, exactly in the runs in which at every deadline the counts tell. -/
theorem verdict_iff (tunnels : List Tunnel) (up : String) (es : List Event) :
    let s := Sup.boot tunnels up
    let w := s.csaPickRxTunnelIdx
    (verdicts w).Accepts {} (machine.trace s es) ↔
      (machine.watch (verdicts w)).Meets CountsTell (s, {}) es := by
  intro s w
  exact Machine.accepts_trace_iff (fun s g e h _ => (step_verdict h e).2)
    (fun s g e h => (step_verdict h e).1) (boot_watched tunnels up) es

/-- One interface, a video rx tunnel on it, and the uplink. -/
def station : List Tunnel :=
  [{ name := "video", role := .rx, ifaces := ["wlan0".toList] },
    { name := "uplink", role := .tx, ifaces := ["wlan0".toList], udpInPort := 5801 }]

/-- Five frames of a burst, on time. -/
def burstTicks : List Event :=
  [.tick 0 ⟨0, true⟩, .tick 20000 ⟨0, true⟩, .tick 20000 ⟨0, true⟩, .tick 20000 ⟨0, true⟩,
    .tick 20000 ⟨0, true⟩]

/-- A packet is received and reported, the hop follows, and nothing is heard any more: the
record of a silent interval makes the count differ. -/
def deadLink : List Event :=
  [.tunnel 0 .spawn, .tunnel 0 .packet, .tunnel 0 (.dump true), .tunnel 0 .drain,
    .post 0 "chan=149&ht=HT20&iface=wlan0&prev_chan=161".toList] ++ burstTicks ++
    [.tick 420000 ⟨0, true⟩, .tunnel 0 (.dump true), .tunnel 0 .drain,
      .tick 3000000 ⟨0, true⟩]

/-- The dead link is taken for a live one. -/
theorem verdict_broken :
    ¬ ∀ (tunnels : List Tunnel) (up : String) (es : List Event),
      (verdicts (Sup.boot tunnels up).csaPickRxTunnelIdx).Accepts {}
        (machine.trace (Sup.boot tunnels up) es) :=
  not_forall.mpr ⟨station, not_forall.mpr ⟨"uplink", not_forall.mpr ⟨deadLink, by decide +kernel⟩⟩⟩

end Waybeam.Ground
