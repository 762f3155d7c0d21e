/-
# `Waybeam.Ground.Forward` — what leaves a probe tunnel

What a probe tunnel loses is no link quality of the video: its rx_ant records must not reach
the vehicle, which takes every one it gets for video.  Two places send a datagram on as it came.

    stats_drain   to stats_out and to the tap, never from a probe tunnel
    hop           to stats_out, from the first rx tunnel, whatever it is

So it depends on the configuration alone: on which rx tunnel is the first.
-/
import Waybeam.Ground.Scan

namespace Waybeam.Ground.Stats

open Text Tokens

/-! ## What the configuration fixes -/

/-- What a listener is, apart from what it counts. -/
def Listener.kind (t : Listener) : Role × Bool × Bool := (t.role, t.probe, t.producer.statsFwdActive)

section Kind

variable (t : Listener) {g : ScanState} {buf dgram : Bytes} {now tsMs : ℕ}

theorem probeAccumulate_fwd (p : Probe.Producer) (s : Probe.Sample) :
    (p.probeAccumulate s now tsMs).1.statsFwdActive = p.statsFwdActive := by
  have hopen : (p.probeOpen now).statsFwdActive = p.statsFwdActive := by
    unfold Probe.Producer.probeOpen
    split <;> rfl
  have hexpire : ∀ p : Probe.Producer, (p.probeExpire now).1.statsFwdActive = p.statsFwdActive := by
    intro p
    unfold Probe.Producer.probeExpire
    split <;> rfl
  have hadd : ∀ p : Probe.Producer, (p.probeAdd s).1.statsFwdActive = p.statsFwdActive := by
    intro p
    unfold Probe.Producer.probeAdd
    split <;> rfl
  have hlast : ∀ p : Probe.Producer, (if p.winUs ≤ now - p.probeWinStartUs then
      p.probeWindowFlush now tsMs else (p, [])).1.statsFwdActive = p.statsFwdActive := by
    intro p
    split <;> rfl
  exact (hlast _).trans ((hadd _).trans ((hexpire _).trans hopen))

theorem takeRxAnt_kind : (t.takeRxAnt buf now tsMs).1.kind = t.kind := by
  unfold Listener.takeRxAnt
  split
  · next pkt _ =>
      dsimp only
      split
      · exact congrArg (fun fwd => (t.role, t.probe, fwd)) (probeAccumulate_fwd _ _)
      · rfl
  · dsimp only
    split
    · exact congrArg (fun fwd => (t.role, t.probe, fwd)) (probeAccumulate_fwd _ _)
    · rfl

theorem takeTxStats_kind : (t.takeTxStats buf now).kind = t.kind := by
  unfold Listener.takeTxStats
  split <;> split <;> rfl

theorem takeRecord_kind : (t.takeRecord g buf now tsMs).1.1.kind = t.kind := by
  have hrx : (if isRxAnt buf then t.takeRxAnt buf now tsMs else (t, [])).1.kind = t.kind := by
    split
    · exact takeRxAnt_kind t
    · rfl
  have htx : ∀ t' : Listener, t'.kind = t.kind →
      (if isTxStats buf then t'.takeTxStats buf now else t').kind = t.kind := by
    intro t' h
    split
    · exact (takeTxStats_kind t').trans h
    · exact h
  exact htx _ hrx

/-- A datagram changes what is counted and nothing else. -/
theorem takeDatagram_kind : (t.takeDatagram g dgram now tsMs).1.1.kind = t.kind := by
  by_cases hempty : dgram.take 4095 = []
  · simp only [Listener.takeDatagram, if_pos hempty]
  · simp only [Listener.takeDatagram, if_neg hempty, andThen]
    split
    · exact takeRecord_kind _
    · rfl

theorem takeAll_kind (i : ℕ) (reps : List Report) (lg : Listener × ScanState) :
    (Scanner.takeAll i now tsMs reps lg).1.1.kind = lg.1.kind := by
  induction reps generalizing lg with
  | nil => rfl
  | cons rep reps ih => exact (ih _).trans (takeDatagram_kind lg.1)

end Kind

/-- A tunnel is what its configuration says, and it forwards only to an address it could read. -/
structure Node.Configured (long : ℕ) (n : Node) : Prop where
  role : n.listener.role = n.cfg.role
  probe : n.listener.probe = n.cfg.probe
  fwd : n.listener.producer.statsFwdActive = true → parseHostPort long n.cfg.statsOut = true

/-- The rx tunnel that a scan empties. -/
def drained (cfg : List TunnelCfg) : Option ℕ := cfg.findIdx? fun t => t.role = .rx

/-- A name that a query can have as it is. -/
def Nameable (f : Bytes) : Prop := f ≠ [] ∧ ∀ c ∈ f, c ≠ ',' ∧ c ≠ '&' ∧ c ≠ ' '

/-- There is an interface to scan with. -/
def Scannable (cfg : List TunnelCfg) : Prop := ∃ t ∈ cfg, ∃ f ∈ t.ifaces, Nameable f

theorem mem_pieces {f s : Bytes} (h : f ∈ pieces s) : f ∈ s.splitOn ',' := by
  unfold pieces at h
  dsimp only at h
  split at h
  · exact List.dropLast_subset _ h
  · exact h

theorem pieces_ne_nil {s : Bytes} (h : s ≠ []) : pieces s ≠ [] := by
  unfold pieces
  dsimp only
  split
  · next hlast =>
      intro hnil
      have hinter : [','].intercalate (s.splitOn ',') = s := List.intercalate_splitOn ','

      obtain ⟨l, ls, hls⟩ := List.exists_cons_of_ne_nil (List.splitOn_ne_nil ',' s)
      rw [hls] at hnil hlast hinter
      cases ls with
      | nil =>
          cases hlast
          exact h hinter.symm
      | cons l' ls => cases hnil
  · exact List.splitOn_ne_nil _ _

theorem parseIfaces_ok {s : Bytes} {ifaces : List Bytes} (h : parseIfaces s = .ok ifaces) :
    ifaces = pieces s ∧ ∀ f ∈ pieces s, f ≠ [] := by
  unfold parseIfaces at h
  split at h
  · cases h
  · next hnames =>
      split at h
      · cases h
      · next hfour =>
          cases h
          refine ⟨rfl, fun f hf hempty => hnames ?_⟩
          have hfew : (pieces s).take 4 = pieces s := List.take_of_length_le (by omega)
          rw [hfew]
          exact List.any_eq_true.mpr ⟨f, hf, by simp [hempty]⟩

namespace Node

variable {long : ℕ} {n n' : Node}

theorem Configured.of_kind (h : n.Configured long) (hcfg : n'.cfg = n.cfg)
    (hkind : n'.listener.kind = n.listener.kind) : n'.Configured long := by
  obtain ⟨hrole, hprobe, hfwd⟩ : n'.listener.role = n.listener.role ∧
      n'.listener.probe = n.listener.probe ∧
      n'.listener.producer.statsFwdActive = n.listener.producer.statsFwdActive := by
    simpa only [Listener.kind, Prod.mk.injEq] using hkind
  constructor
  · rw [hrole, hcfg]
    exact h.role
  · rw [hprobe, hcfg]
    exact h.probe
  · rw [hfwd, hcfg]
    exact h.fwd

/-- What a step does to a tunnel while it stays what it is. -/
structure Stays (long : ℕ) (n n' : Node) : Prop where
  cfg : n'.cfg = n.cfg
  configured : n.Configured long → n'.Configured long

theorem Stays.of_kind (hcfg : n'.cfg = n.cfg) (hkind : n'.listener.kind = n.listener.kind) :
    Stays long n n' := ⟨hcfg, fun h => h.of_kind hcfg hkind⟩

theorem Stays.trans {n₁ n₂ : Node} (h : Stays long n n₁) (h' : Stays long n₁ n₂) : Stays long n n₂ :=
  ⟨h'.cfg.trans h.cfg, fun hn => h'.configured (h.configured hn)⟩

theorem spawn_stays (opened : Bool) : Stays long n (n.spawn long opened) := by
  have hopen : Stays long n (if !n.fdOpen && opened then
      { n with fdOpen := true, listener := n.cfg.statsListenerOpen long n.listener } else n) := by
    split
    · exact ⟨rfl, fun h => ⟨h.role, h.probe, id⟩⟩
    · exact Stays.of_kind rfl rfl
  unfold spawn
  extract_lets n₁ l
  split
  · exact hopen.trans (Stays.of_kind rfl rfl)
  · exact hopen.trans (Stays.of_kind rfl rfl)

theorem packet_stays (i : ℕ) (r : Reception) : Stays long n (n.packet i r).1 := by
  unfold packet
  split
  · split
    · exact Stays.of_kind rfl rfl
    · exact Stays.of_kind rfl rfl
  · exact Stays.of_kind rfl rfl

theorem report_stays (i : ℕ) (r : RxAnt) (sent : Bool) : Stays long n (n.report i r sent).1 := by
  unfold report
  split
  · split
    · exact Stays.of_kind rfl rfl
    · exact Stays.of_kind rfl rfl
  · exact Stays.of_kind rfl rfl

theorem hopDrain_stays (k : ℕ) : Stays long n (Scanner.hopDrain k n).1 := by
  unfold Scanner.hopDrain
  split
  · exact Stays.of_kind rfl rfl
  · exact Stays.of_kind rfl rfl

end Node

namespace Scanner

variable {long : ℕ} {cfg : List TunnelCfg} {s : Scanner} {n n' : Node} {i : ℕ}

/-- The supervisor runs this configuration. -/
structure Runs (long : ℕ) (cfg : List TunnelCfg) (s : Scanner) : Prop where
  cfgs : s.nodes.map Node.cfg = cfg
  configured : ∀ n ∈ s.nodes, n.Configured long
  drained : ∀ k ∈ s.scan.baselineRxIdx, drained cfg = some k ∧ Scannable cfg

theorem Runs.cfg_eq (h : s.Runs long cfg) (hn : s.nodes[i]? = some n) : cfg[i]? = some n.cfg := by
  rw [← h.cfgs, List.getElem?_map, hn, Option.map_some]

/-- A tunnel changes, but not what it is. -/
theorem Runs.set (h : s.Runs long cfg) (hn : s.nodes[i]? = some n) (hcfg : n'.cfg = n.cfg)
    (hkind : n'.Configured long) : ({ s with nodes := s.nodes.set i n' } : Scanner).Runs long cfg where
  cfgs := by
    have hsame : (s.nodes.map Node.cfg)[i]? = some n'.cfg := by
      rw [List.getElem?_map, hn, Option.map_some, hcfg]
    obtain ⟨hi, hsame⟩ := List.getElem?_eq_some_iff.mp hsame
    rw [List.map_set, ← hsame, List.set_getElem_self, h.cfgs]
  configured := by
    intro m hm
    rcases List.mem_or_eq_of_mem_set hm with hm | rfl
    · exact h.configured m hm
    · exact hkind
  drained := h.drained

theorem Runs.onNode (h : s.Runs long cfg) {f : Node → Node × List ScanObs}
    (hf : ∀ n : Node, n.Stays long (f n).1) : (s.onNode i f).1.Runs long cfg := by
  unfold Scanner.onNode
  split
  · exact h
  · next n hn => exact h.set hn (hf n).cfg ((hf n).configured (h.configured n (List.mem_of_getElem? hn)))

/-- The scan changes, but not the tunnel it empties. -/
theorem Runs.withScan (h : s.Runs long cfg) {scan : ScanState}
    (hdrained : ∀ k ∈ scan.baselineRxIdx, Stats.drained cfg = some k ∧ Scannable cfg) :
    ({ s with scan } : Scanner).Runs long cfg where
  cfgs := h.cfgs
  configured := h.configured
  drained := hdrained

/-- The rx tunnel that is picked is the first of the configuration. -/
theorem Runs.csaPickRxTunnelIdx_eq (h : s.Runs long cfg) :
    s.csaPickRxTunnelIdx = Stats.drained cfg := by
  have hsame : ∀ ns : List Node, (∀ n ∈ ns, n.Configured long) →
      ns.findIdx? (fun n => n.listener.role = .rx) = ns.findIdx? fun n => n.cfg.role = .rx := by
    intro ns hns
    induction ns with
    | nil => rfl
    | cons n ns ih =>
        obtain ⟨hn, hns⟩ := List.forall_mem_cons.mp hns
        rw [List.findIdx?_cons, List.findIdx?_cons, hn.role, ih hns]
  rw [csaPickRxTunnelIdx, hsame _ h.configured, Stats.drained, ← h.cfgs, List.findIdx?_map]
  rfl

end Scanner

/-! ## What is sent -/

/-- There is a probe tunnel at this index. -/
def ProbeAt (cfg : List TunnelCfg) (i : ℕ) : Prop := ∃ t ∈ cfg[i]?, t.probe = true

/-- A probe tunnel sends probe records and nothing else. -/
def OnlyRecords (cfg : List TunnelCfg) (os : List ScanObs) : Prop :=
  ∀ i what, .sent i what ∈ os → ProbeAt cfg i → ∃ o, what = .probe o

/-- No rx_ant record leaves a probe tunnel as it came. -/
def NotRaw (cfg : List TunnelCfg) (os : List ScanObs) : Prop :=
  ∀ i d, .sent i (.fwd d) ∈ os ∨ .sent i (.tap d) ∈ os → ProbeAt cfg i → isRxAnt d = false

/-- The rx tunnel that a scan empties is a probe tunnel that has an address to send to, and some
interface can be scanned with. -/
def ScanLeaks (long : ℕ) (cfg : List TunnelCfg) : Prop :=
  (∃ k ∈ drained cfg, ∃ t ∈ cfg[k]?, t.probe = true ∧ parseHostPort long t.statsOut = true) ∧
    Scannable cfg

variable {long : ℕ} {cfg : List TunnelCfg} {os os' : List ScanObs}

theorem OnlyRecords.notRaw (h : OnlyRecords cfg os) : NotRaw cfg os := by
  intro i d hd hi
  rcases hd with hd | hd
  · obtain ⟨o, ho⟩ := h i _ hd hi
    cases ho
  · obtain ⟨o, ho⟩ := h i _ hd hi
    cases ho

/-- Nothing is sent. -/
theorem onlyRecords_of_silent (h : ∀ i what, .sent i what ∉ os) : OnlyRecords cfg os :=
  fun i what hsent => absurd hsent (h i what)

theorem OnlyRecords.append (h : OnlyRecords cfg os) (h' : OnlyRecords cfg os') :
    OnlyRecords cfg (os ++ os') := by
  intro i what hsent hi
  rcases List.mem_append.mp hsent with hsent | hsent
  · exact h i what hsent hi
  · exact h' i what hsent hi

namespace Scanner

variable {s : Scanner} {n : Node} {i : ℕ}

/-- `stats_drain` holds back what came in on a probe tunnel. -/
theorem takeDatagram_onlyRecords (t : Listener) (g : ScanState) (dgram : Bytes) (now tsMs : ℕ)
    (ht : ProbeAt cfg i → t.probe = true) :
    OnlyRecords cfg ((t.takeDatagram g dgram now tsMs).2.map (.sent i)) := by
  intro j what hsent hj
  obtain ⟨w, hw, hjw⟩ := List.mem_map.mp hsent
  cases hjw
  by_cases hempty : dgram.take 4095 = []
  · simp [Listener.takeDatagram, hempty] at hw
  · rw [Listener.takeDatagram_sent t hempty, Listener.forward, ht hj] at hw
    simp only [Bool.not_true, Bool.and_false, Bool.false_eq_true, if_false, List.nil_append] at hw
    split at hw
    · obtain ⟨o, -, ho⟩ := List.mem_map.mp hw
      exact ⟨o, ho.symm⟩
    · cases hw

theorem takeAll_onlyRecords (now tsMs : ℕ) (reps : List Report) (lg : Listener × ScanState)
    (ht : ProbeAt cfg i → lg.1.probe = true) :
    OnlyRecords cfg (takeAll i now tsMs reps lg).2 := by
  induction reps generalizing lg with
  | nil => exact onlyRecords_of_silent fun _ _ h => by cases h
  | cons rep reps ih =>
      have hkept : (lg.1.takeDatagram lg.2 rep.dgram now tsMs).1.1.probe = lg.1.probe :=
        congrArg (fun k => k.2.1) (takeDatagram_kind lg.1)
      have hfirst := takeDatagram_onlyRecords lg.1 lg.2 rep.dgram now tsMs ht
      have hrest := ih (lg.1.takeDatagram lg.2 rep.dgram now tsMs).1 fun hi => hkept.trans (ht hi)
      have htook : OnlyRecords cfg [.took i rep now] := onlyRecords_of_silent fun _ _ h => by simp at h
      exact (htook.append hfirst).append hrest

theorem takeAll_baseline (now tsMs : ℕ) (reps : List Report) (lg : Listener × ScanState) :
    (takeAll i now tsMs reps lg).1.2.baselineRxIdx = lg.2.baselineRxIdx := by
  induction reps generalizing lg with
  | nil => rfl
  | cons rep reps ih =>
      refine (ih _).trans ?_
      rw [Listener.takeDatagram_scan]
      unfold ScanState.sample
      split
      · split <;> rfl
      · rfl

theorem Runs.probeAt_iff (h : s.Runs long cfg) (hn : s.nodes[i]? = some n) :
    ProbeAt cfg i ↔ n.listener.probe = true := by
  rw [(h.configured n (List.mem_of_getElem? hn)).probe, ProbeAt, h.cfg_eq hn]
  simp

/-- What a step of the supervisor has to keep. -/
structure Keeps (long : ℕ) (cfg : List TunnelCfg) (r : Scanner × List ScanObs) : Prop where
  runs : r.1.Runs long cfg
  sent : ¬ScanLeaks long cfg → OnlyRecords cfg r.2

theorem keeps_pure (h : s.Runs long cfg) : Keeps long cfg (s, []) :=
  ⟨h, fun _ => onlyRecords_of_silent fun _ _ h => by cases h⟩

theorem Keeps.andThen {r : Scanner × List ScanObs} {k : Scanner → Scanner × List ScanObs}
    (h : Keeps long cfg r) (hk : ∀ s, s.Runs long cfg → Keeps long cfg (k s)) :
    Keeps long cfg (Waybeam.andThen r k) :=
  ⟨(hk _ h.runs).runs, fun hcfg => (h.sent hcfg).append ((hk _ h.runs).sent hcfg)⟩

theorem keeps_onNode (h : s.Runs long cfg) {f : Node → Node × List ScanObs}
    (hstays : ∀ n : Node, n.Stays long (f n).1)
    (hsent : ∀ n, s.nodes[i]? = some n → ¬ScanLeaks long cfg → OnlyRecords cfg (f n).2) :
    Keeps long cfg (s.onNode i f) := by
  refine ⟨h.onNode hstays, fun hcfg => ?_⟩
  unfold onNode
  split
  · exact onlyRecords_of_silent fun _ _ h => by cases h
  · next n hn => exact hsent n hn hcfg

theorem keeps_statsDrain (h : s.Runs long cfg) (tsMs : ℕ) : Keeps long cfg (s.statsDrain i tsMs) := by
  unfold statsDrain
  split
  · next n hn =>
      split
      · refine ⟨?_, fun _ => takeAll_onlyRecords _ _ _ _ (h.probeAt_iff hn).mp⟩
        let m : Node :=
          { n with listener := (takeAll i s.clock tsMs n.socket (n.listener, s.scan)).1.1, socket := [] }
        have hconf : m.Configured long :=
          (h.configured n (List.mem_of_getElem? hn)).of_kind rfl (takeAll_kind i _ _)
        refine (h.set hn (show m.cfg = n.cfg from rfl) hconf).withScan fun k hk => ?_
        rw [takeAll_baseline] at hk
        exact h.drained k hk
      · exact keeps_pure h
  · exact keeps_pure h

/-- A hop sends what it takes from the socket; where that does not leak, no probe tunnel is read
from that has an address to send to. -/
theorem hopDrain_onlyRecords (h : s.Runs long cfg) (hcfg : ¬ScanLeaks long cfg) {k : ℕ}
    (hk : k ∈ s.scan.baselineRxIdx) (hn : s.nodes[k]? = some n) :
    OnlyRecords cfg (hopDrain k n).2 := by
  obtain ⟨hdrained, hscannable⟩ := h.drained k hk
  intro j what hsent hj
  unfold hopDrain at hsent
  split at hsent
  · dsimp only at hsent
    split at hsent
    · next hfwd =>
        obtain ⟨rep, -, hrep⟩ := List.mem_map.mp hsent
        cases hrep
        obtain ⟨t, ht, hprobe⟩ := hj
        have hconf := h.configured n (List.mem_of_getElem? hn)
        have hnt : n.cfg = t := Option.some.inj ((h.cfg_eq hn).symm.trans ht)
        exact absurd ⟨⟨k, hdrained, t, ht, hprobe, hnt ▸ hconf.fwd hfwd⟩, hscannable⟩ hcfg
    · cases hsent
  · cases hsent

theorem keeps_hop (h : s.Runs long cfg) (step : ℕ) (io : IwIo) :
    Keeps long cfg (s.scanApplyStepDrained step io) := by
  unfold scanApplyStepDrained
  split
  · exact keeps_pure h
  · next at_ _ =>
      have htuned : (s.tuneTo step at_ io).Runs long cfg := ⟨h.cfgs, h.configured, h.drained⟩
      have hdrain : Keeps long cfg (s.tuneTo step at_ io).drainBaseline := by
        unfold drainBaseline
        split
        · next k hk =>
            exact keeps_onNode htuned (fun n => Node.hopDrain_stays k) fun n hn hcfg =>
              hopDrain_onlyRecords htuned hcfg hk hn
        · exact keeps_pure htuned
      refine hdrain.andThen fun s hs => ⟨⟨hs.cfgs, hs.configured, hs.drained⟩, fun _ => ?_⟩
      exact onlyRecords_of_silent fun _ _ h => by simp [startDwell] at h

/-- An observation by itself that sends nothing. -/
theorem Keeps.cons {r : Scanner × List ScanObs} {o : ScanObs} (h : Keeps long cfg r)
    (ho : ∀ i what, o ≠ .sent i what) : Keeps long cfg (r.1, o :: r.2) := by
  refine ⟨h.runs, fun hcfg => ?_⟩
  have hfirst : OnlyRecords cfg [o] :=
    onlyRecords_of_silent fun i what hmem => ho i what (List.mem_singleton.mp hmem).symm
  exact hfirst.append (h.sent hcfg)

theorem keeps_tick (h : s.Runs long cfg) (io : IwIo) :
    Keeps long cfg (s.scanTick io) := by
  unfold scanTick
  split
  · exact keeps_pure h
  · simp only []
    split
    · refine Keeps.cons (keeps_pure (h.withScan ?_)) ?_
      · exact h.drained
      · intro i what ho
        cases ho
    · split
      · refine Keeps.cons (keeps_pure (h.withScan ?_)) ?_
        · exact h.drained
        · intro i what ho
          cases ho
      · refine Keeps.andThen (Keeps.cons (keeps_pure (h.withScan ?_)) ?_) ?_
        · exact h.drained
        · intro i what ho
          cases ho
        · intro s hs
          exact keeps_hop hs _ io

/-- An accepted request names an interface. -/
theorem scannable_of_parseScan {req : Bytes} {scan : List Bytes × List ScanStep × ℕ}
    (h : parseScan long (cfg.flatMap (·.ifaces)) (query req) = .ok scan) : Scannable cfg := by
  unfold parseScan at h
  split at h
  · next istr histr =>
      split at h
      · cases hifaces : parseIfaces istr with
        | error why =>
            rw [hifaces] at h
            cases h
        | ok ifaces =>
            rw [hifaces] at h
            obtain ⟨hget, hne⟩ := Option.filter_eq_some_iff.mp histr
            obtain ⟨rfl, hnames⟩ := parseIfaces_ok hifaces
            obtain ⟨f, fs, hfs⟩ := List.exists_cons_of_ne_nil (pieces_ne_nil (of_decide_eq_true hne))
            have hf : f ∈ pieces istr := hfs ▸ List.mem_cons_self
            have hknown : f ∈ cfg.flatMap (·.ifaces) := by
              by_contra hf'
              simp only [bind, Except.bind] at h
              split at h
              · cases h
              · next hall => exact absurd (List.find?_eq_none.mp hall f hf) (by simpa using hf')
            obtain ⟨t, ht, hft⟩ := List.mem_flatMap.mp hknown
            refine ⟨t, ht, f, hft, hnames f hf, fun c hc => ?_⟩
            obtain ⟨hcv, hcomma⟩ := mem_splitOn (mem_pieces hf) c hc
            obtain ⟨hcq, hamp⟩ := qsGet_chars hget c hcv
            have hblank := List.mem_takeWhile_imp (p := fun c => decide (c ≠ ' ')) hcq
            exact ⟨hcomma, hamp, of_decide_eq_true hblank⟩
      · cases h
  · cases h

theorem Runs.known_eq (h : s.Runs long cfg) :
    s.nodes.flatMap (·.cfg.ifaces) = cfg.flatMap (·.ifaces) := by
  rw [← h.cfgs, List.flatMap_map]

/-- An accepted request empties the first rx tunnel, and there is an interface for it. -/
theorem Runs.armed_drained (h : s.Runs long cfg) {req : Bytes} {scan : List Bytes × List ScanStep × ℕ}
    (hparse : parseScan long (s.nodes.flatMap (·.cfg.ifaces)) (query req) = .ok scan) :
    ∀ k ∈ s.csaPickRxTunnelIdx, Stats.drained cfg = some k ∧ Scannable cfg := by
  rw [h.known_eq] at hparse
  intro k hk
  exact ⟨h.csaPickRxTunnelIdx_eq.symm.trans hk, scannable_of_parseScan hparse⟩

theorem keeps_arm (h : s.Runs long cfg) (csaIdle : Bool) (req : Bytes)
    (io : IwIo) : Keeps long cfg (s.armScan long csaIdle req io) := by
  have hrefused : ∀ why, Keeps long cfg (s, [.refused why]) := by
    intro why
    refine (keeps_pure h).cons ?_
    intro i what ho
    cases ho
  unfold armScan
  split
  · exact hrefused _
  · split
    · exact hrefused _
    · split
      · exact hrefused _
      · next ifaces steps dwell hparse =>
          refine Keeps.andThen (Keeps.cons (keeps_pure (h.withScan ?_)) ?_) ?_
          · exact h.armed_drained hparse
          · intro i what ho
            cases ho
          · intro s hs
            exact keeps_hop hs 0 io

theorem keeps_step (h : s.Runs long cfg) (e : ScanEvent) :
    Keeps long cfg ((scanMachine long).step s e) := by
  cases e with
  | wait us => exact keeps_pure ⟨h.cfgs, h.configured, h.drained⟩
  | spawn i opened =>
      exact keeps_onNode h (fun n => Node.spawn_stays opened) fun n _ => (keeps_pure h).sent
  | exit i =>
      exact keeps_onNode h (fun n => Node.Stays.of_kind rfl rfl) fun n _ => (keeps_pure h).sent
  | packet i iface nonce =>
      refine keeps_onNode h (fun n => Node.packet_stays i _) fun n _ _ => onlyRecords_of_silent ?_
      intro j what hsent
      unfold Node.packet at hsent
      split at hsent
      · split at hsent
        · simp at hsent
        · cases hsent
      · cases hsent
  | report i r sent =>
      refine keeps_onNode h (fun n => Node.report_stays i r sent) fun n _ _ => onlyRecords_of_silent ?_
      intro j what hsent
      unfold Node.report at hsent
      split at hsent
      · split at hsent
        · simp at hsent
        · cases hsent
      · cases hsent
  | arrive i dgram =>
      exact keeps_onNode h (fun n => Node.Stays.of_kind rfl rfl) fun n _ => (keeps_pure h).sent
  | drain i tsMs => exact keeps_statsDrain h tsMs
  | tick io => exact keeps_tick h io
  | arm csaIdle req io => exact keeps_arm h csaIdle req io
  | cancel =>
      show Keeps long cfg (s.cancelScan, [])
      unfold cancelScan
      split
      · exact keeps_pure (h.withScan h.drained)
      · exact keeps_pure h
  | retune iface tuned => exact keeps_pure ⟨h.cfgs, h.configured, h.drained⟩

theorem start_runs (cfg : List TunnelCfg) : (Scanner.start cfg).Runs long cfg where
  cfgs := by
    rw [Scanner.start, List.map_map]
    exact List.map_id cfg
  configured := by
    intro n hn
    obtain ⟨t, -, rfl⟩ := List.mem_map.mp hn
    exact ⟨rfl, rfl, fun h => by cases h⟩
  drained := by
    intro k hk
    cases hk

/-! ## A scan that leaks -/

/-- A request for one interface and one channel. -/
def oneChannel (f : Bytes) : Bytes := "iface=".toList ++ f ++ "&chans=36".toList

theorem query_oneChannel {f : Bytes} (hf : Nameable f) (hnul : '\x00' ∉ f) :
    query (oneChannel f) = oneChannel f := by
  have hchars : ∀ c ∈ oneChannel f, c ≠ '\x00' ∧ c ≠ ' ' := by
    intro c hc
    rcases List.mem_append.mp hc with hc | hc
    · rcases List.mem_append.mp hc with hc | hc
      · exact (by decide : ∀ c ∈ "iface=".toList, c ≠ '\x00' ∧ c ≠ ' ') c hc
      · exact ⟨fun h => hnul (h ▸ hc), (hf.2 c hc).2.2⟩
    · exact (by decide : ∀ c ∈ "&chans=36".toList, c ≠ '\x00' ∧ c ≠ ' ') c hc
  rw [query, cstr_of_free fun h => (hchars _ h).1 rfl]
  apply List.takeWhile_eq_self_iff.mpr
  intro c hc
  exact decide_eq_true (hchars c hc).2

theorem parseScan_oneChannel {f : Bytes} (hf : Nameable f) (hshort : f.length < 16)
    (hnul : '\x00' ∉ f) (hlong : 32 ≤ long) {known : List Bytes} (hknown : f ∈ known) :
    parseScan long known (query (oneChannel f)) =
      .ok ([f], [⟨36, "HT20".toList⟩], 600) := by
  have hsplit : (oneChannel f).splitOn '&' = ["iface=".toList ++ f, "chans=36".toList] := by
    have hfree : '&' ∉ "iface=".toList ++ f := by
      intro h
      rcases List.mem_append.mp h with h | h
      · exact absurd h (by decide)
      · exact (hf.2 _ h).2.1 rfl
    exact (List.splitOn_append_cons_self_of_not_mem hfree _).trans (congrArg _ (by decide))
  have hpieces : pieces f = [f] := by
    have hone := List.splitOn_eq_singleton fun h => (hf.2 _ h).1 rfl
    have hlast : ¬[f].getLast? = some [] := fun h => hf.1 (Option.some.inj h)
    rw [pieces, hone]
    exact if_neg hlast
  have hifaces : parseIfaces f = .ok [f] := by
    have hname : ¬(f = [] ∨ 16 ≤ f.length) := by
      rintro (h | h)
      · exact hf.1 h
      · omega
    simp [parseIfaces, hpieces, hname]
  have hiface : qsGet (oneChannel f) "iface".toList = some f := by
    rw [qsGet, hsplit]
    rfl
  have hchans : qsGet (oneChannel f) "chans".toList = some "36".toList := by
    rw [qsGet, hsplit]
    rfl
  have hhts : qsGet (oneChannel f) "hts".toList = none := by
    rw [qsGet, hsplit]
    rfl
  have hht : qsGet (oneChannel f) "ht".toList = none := by
    rw [qsGet, hsplit]
    rfl
  have hdwell : dwellMs (oneChannel f) = 600 := by
    rw [dwellMs, qsGetInt, qsGet, hsplit]
    rfl
  have hread : strtol long (decimal 36 ++ []) = some 36 := by
    have hfits : 36 < 2 ^ (long - 1) :=
      lt_of_lt_of_le (by norm_num) (Nat.pow_le_pow_right (by norm_num) (show 31 ≤ long - 1 by omega))
    exact strtol_decimal hfits (by intro c hc; cases hc)
  have hparsed : parseChans long 32 "36".toList = .ok [36] :=
    parseChans_cons (c := '3') (s := ['6']) 31 (by decide) hread (by decide)
  rw [query_oneChannel hf hnul, parseScan, hiface, hchans]
  have hsome : Option.filter (fun s => decide (s ≠ [])) (some f) = some f := by
    simp [Option.filter, hf.1]
  have hgiven : Option.filter (fun s => decide (s ≠ [])) (some "36".toList) = some "36".toList := rfl
  have hall : [f].find? (· ∉ known) = none := by simp [hknown]
  simp only [hsome, hgiven, hifaces, hhts, hht, hdwell, hparsed, hall, bind, Except.bind]
  rfl

theorem hop_leaks {k : ℕ} {step : ScanStep} {rep : Report} {reps : List Report} (io : IwIo)
    (hstep : s.scan.steps[i]? = some step) (hk : s.scan.baselineRxIdx = some k)
    (hn : s.nodes[k]? = some n) (hopen : n.fdOpen = true)
    (hfwd : n.listener.producer.statsFwdActive = true) (hsocket : n.socket = rep :: reps)
    (hne : rep.dgram ≠ []) :
    .sent k (.fwd (rep.dgram.take 4096)) ∈ (s.scanApplyStepDrained i io).2 := by
  have hdrain : .sent k (.fwd (rep.dgram.take 4096)) ∈ (hopDrain k n).2 := by
    simp only [hopDrain, if_pos hopen, if_pos hfwd, hsocket,
      List.takeWhile_cons_of_pos (p := fun rep : Report => decide (rep.dgram ≠ [])) (decide_eq_true hne)]
    exact List.mem_cons_self
  have hbase : (s.tuneTo i step io).drainBaseline.2 = (hopDrain k n).2 := by
    have htuned : (s.tuneTo i step io).scan.baselineRxIdx = some k := hk
    have hnode : (s.tuneTo i step io).nodes[k]? = some n := hn
    rw [drainBaseline, htuned]
    show ((s.tuneTo i step io).onNode k (hopDrain k)).2 = _
    rw [onNode, hnode]
  rw [scanApplyStepDrained, hstep]
  exact List.mem_append_left _ (hbase ▸ hdrain)

/-- A tunnel is spawned, wfb_rx reports once, and a scan starts. -/
def leaking (k : ℕ) (f : Bytes) : List ScanEvent :=
  [.spawn k true, .report k .quiet true, .arm true (oneChannel f) ⟨[], 0⟩]

theorem onNode_self (hn : s.nodes[i]? = some n) (f : Node → Node × List ScanObs) :
    (s.onNode i f).1.nodes[i]? = some (f n).1 := by
  rw [onNode, hn]
  exact List.getElem?_set_self (List.getElem?_eq_some_iff.mp hn).1

theorem onNode_scan (f : Node → Node × List ScanObs) : (s.onNode i f).1.scan = s.scan := by
  unfold onNode
  split <;> rfl

/-- An accepted request hops to its first step. -/
theorem arm_hops {req : Bytes} {ifaces : List Bytes} {steps : List ScanStep} {dwell : ℕ} (io : IwIo)
    (hphase : s.scan.phase ≠ .running)
    (hparse : parseScan long (s.nodes.flatMap (·.cfg.ifaces)) (query req) = .ok (ifaces, steps, dwell)) :
    s.armScan long true req io =
      Waybeam.andThen
        ({ s with scan := s.armed ifaces steps dwell }, [.armed (s.armed ifaces steps dwell)])
        fun s => s.scanApplyStepDrained 0 io := by
  simp only [armScan, Bool.not_true, Bool.false_eq_true, if_false, if_neg hphase, hparse]

/-- An rx tunnel that is spawned for the first time. -/
theorem spawn_fresh {t : TunnelCfg} (hrole : t.role = .rx) :
    let n := ({ cfg := t, listener := t.listener } : Node).spawn long true
    n.fdOpen = true ∧ n.interval = some [] ∧ n.socket = [] ∧
      n.listener.producer.statsFwdActive = parseHostPort long t.statsOut := by
  obtain ⟨role, ifaces, radioPort, udpOut, statsOut, statsTap, probe, window⟩ := t
  cases hrole
  exact ⟨rfl, rfl, rfl, rfl⟩

/-- It has heard nothing and says so. -/
theorem report_quiet (hopen : n.fdOpen = true) (hinterval : n.interval = some [])
    (hsocket : n.socket = []) :
    (n.report i .quiet true).1 = { n with interval := some [], socket := [⟨RxAnt.quiet.text, some []⟩] } := by
  have hfits : RxAnt.datagram { RxAnt.quiet with uniq := Node.uniq [] } = some RxAnt.quiet.text := by
    decide +kernel
  simp only [Node.report, hinterval, hfits, hopen, hsocket, Bool.and_self, if_pos, List.nil_append]

theorem leaking_leaks {k : ℕ} {t : TunnelCfg} {f : Bytes} (hk : Stats.drained cfg = some k)
    (ht : cfg[k]? = some t) (hout : parseHostPort long t.statsOut = true) (hf : Nameable f)
    (hshort : f.length < 16) (hnul : '\x00' ∉ f) (hlong : 32 ≤ long)
    (hknown : f ∈ cfg.flatMap (·.ifaces)) :
    .sent k (.fwd RxAnt.quiet.text) ∈ (scanMachine long).trace (start cfg) (leaking k f) := by
  have hrole : t.role = .rx := by
    obtain ⟨hlt, hrx, -⟩ := List.findIdx?_eq_some_iff_getElem.mp hk
    have htk : cfg[k] = t := Option.some.inj ((List.getElem?_eq_getElem hlt).symm.trans ht)
    rw [htk] at hrx
    exact of_decide_eq_true hrx
  have hn₀ : (start cfg).nodes[k]? = some { cfg := t, listener := t.listener } := by
    rw [start, List.getElem?_map, ht]
    rfl
  obtain ⟨hopen, hinterval, hsocket, hfwd⟩ := @spawn_fresh long t hrole
  -- the tunnel is spawned
  let spawned := ((start cfg).onNode k fun n => (n.spawn long true, [])).1
  have hn₁ := onNode_self hn₀ fun n => (n.spawn long true, [])
  have hruns₁ : spawned.Runs long cfg := (start_runs cfg).onNode fun n => Node.spawn_stays true
  -- its record waits in the socket
  let waiting := (spawned.onNode k fun n => n.report k .quiet true).1
  have hn₂ := onNode_self hn₁ fun n => n.report k .quiet true
  have hruns₂ : waiting.Runs long cfg := hruns₁.onNode fun n => Node.report_stays k .quiet true
  rw [report_quiet hopen hinterval hsocket] at hn₂
  have hscan : waiting.scan = {} := (onNode_scan _).trans (onNode_scan _)
  have hknown₂ : f ∈ waiting.nodes.flatMap (·.cfg.ifaces) := hruns₂.known_eq ▸ hknown
  have hphase : waiting.scan.phase ≠ .running := by
    rw [hscan]
    exact fun h => by cases h
  have harm := arm_hops ⟨[], 0⟩ hphase (parseScan_oneChannel hf hshort hnul hlong hknown₂)
  -- and the scan takes it
  let scan := waiting.armed [f] [⟨36, "HT20".toList⟩] 600
  have hbase : scan.baselineRxIdx = some k := hruns₂.csaPickRxTunnelIdx_eq.trans hk
  have hleak := hop_leaks (s := { waiting with scan }) (i := 0) ⟨[], 0⟩ rfl hbase hn₂ hopen
    (hfwd.trans hout) rfl (by decide +kernel)
  have hshort : RxAnt.quiet.text.take 4096 = RxAnt.quiet.text :=
    List.take_of_length_le (by decide +kernel)
  rw [hshort] at hleak
  have hlast : .sent k (.fwd RxAnt.quiet.text) ∈
      (waiting.armScan long true (oneChannel f) ⟨[], 0⟩).2 := by
    rw [harm]
    exact List.mem_append_right _ hleak
  exact List.mem_append_right _ (List.mem_append_right _ (List.mem_append_left _ hlast))

end Scanner

/-! ## The names of a configuration -/

/-- A name that was read into a buffer of 16 bytes. -/
def InBuffer (f : Bytes) : Prop := f.length < 16 ∧ '\x00' ∉ f

theorem inBuffer_of_jstr {v : List Tok} {f : Bytes} (h : jstr 16 v = some f) : InBuffer f := by
  unfold jstr at h
  split at h
  · split at h
    · cases h
      refine ⟨lt_of_le_of_lt (List.takeWhile_sublist _).length_le ?_, nul_notMem_cstr _⟩
      rw [List.length_take]
      omega
    · cases h
  · cases h

theorem inBuffer_of_strings {least most : ℕ} {v : List Tok} {fs : List Bytes}
    (h : strings least most 16 v = some fs) : ∀ f ∈ fs, InBuffer f := by
  unfold strings at h
  split at h
  · split at h
    · intro f hf
      obtain ⟨v, -, hv⟩ := mem_mapM h f hf
      exact inBuffer_of_jstr hv
    · cases h
  · cases h

theorem parseRx_ifaces {v : List Tok} {ifaces : List Bytes} {port : ℤ} {t : TunnelCfg}
    (h : parseRx long v ifaces port = some t) : t.ifaces = ifaces := by
  simp only [parseRx, bind, Option.bind_eq_some_iff] at h
  obtain ⟨_, -, _, -, _, -, _, -, _, -, h⟩ := h
  cases h
  rfl

theorem inBuffer_of_cfgParseTunnel {v : List Tok} {t : TunnelCfg} (h : cfgParseTunnel long v = some t) :
    ∀ f ∈ t.ifaces, InBuffer f := by
  obtain ⟨ifaces, port, hifaces, h⟩ := cfgParseTunnel_inv h
  obtain ⟨names, -, hnames⟩ := Option.bind_eq_some_iff.mp hifaces
  have hsame : t.ifaces = ifaces := by
    rcases h with h | h
    · exact parseRx_ifaces h
    · rw [parseTx_inv h]
  rw [hsame]
  exact inBuffer_of_strings hnames

theorem inBuffer_of_cfgExpandProfile {p : List Tok} {up down : ℕ} {ts : List TunnelCfg}
    (h : cfgExpandProfile long p up down = some ts) : ∀ t ∈ ts, ∀ f ∈ t.ifaces, InBuffer f := by
  unfold cfgExpandProfile at h
  simp only [bind, Option.bind_eq_some_iff, Option.ite_none_left_eq_some] at h
  obtain ⟨ifaces, hifaces, uplink, -, huplink, _, -, _, _, -, _, _, -, _, _, -, _, h⟩ := h
  obtain ⟨v, -, hv⟩ := Option.bind_eq_some_iff.mp hifaces
  have hnames := inBuffer_of_strings hv
  cases h
  intro t ht f hf
  simp only [List.mem_cons, List.not_mem_nil, or_false] at ht
  rcases ht with rfl | rfl | rfl
  · exact hnames f hf
  · exact hnames f hf
  · rw [List.mem_singleton.mp hf]
    exact hnames _ (not_not.mp huplink)

theorem inBuffer_of_cfgLoad {buf : Bytes} (h : cfgLoad long buf = some cfg) :
    ∀ t ∈ cfg, ∀ f ∈ t.ifaces, InBuffer f := by
  obtain ⟨-, ⟨p, up, down, hp⟩ | ⟨vs, hvs⟩⟩ := cfgLoad_inv h
  · exact inBuffer_of_cfgExpandProfile hp
  · intro t ht
    obtain ⟨v, -, hv⟩ := mem_mapM hvs t ht
    exact inBuffer_of_cfgParseTunnel hv

/-! ## Which configurations leak -/

/-- A video tunnel and a probe tunnel. -/
def videoText : Bytes :=
  ("\x7b\"name\":\"video\",\"role\":\"rx\",\"link_id\":7,\"interfaces\":[\"wlan0\"]," ++
    "\"udp_out\":\"127.0.0.1:5600\",\"stats_out\":\"127.0.0.1:6600\"\x7d").toList

def probeText : Bytes :=
  ("\x7b\"name\":\"probe\",\"role\":\"rx\",\"link_id\":7,\"interfaces\":[\"wlan0\"]," ++
    "\"udp_out\":\"127.0.0.1:5751\",\"stats_out\":\"127.0.0.1:6600\",\"probe\":true\x7d").toList

/-- A configuration of these. -/
def twoTunnels (t t' : Bytes) : Bytes :=
  "\x7b\"tunnels\":[".toList ++ t ++ ',' :: t' ++ "]\x7d".toList

def videoCfg : TunnelCfg where
  role := .rx
  ifaces := ["wlan0".toList]
  udpOut := ("127.0.0.1".toList, 5600)
  statsOut := "127.0.0.1:6600".toList

def probeCfg : TunnelCfg where
  role := .rx
  ifaces := ["wlan0".toList]
  udpOut := ("127.0.0.1".toList, 5751)
  statsOut := "127.0.0.1:6600".toList
  probe := true

end Waybeam.Ground.Stats
