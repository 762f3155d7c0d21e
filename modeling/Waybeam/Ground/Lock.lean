/-
# `Waybeam.Ground.Lock` — what a scan stops at

A scan is to stop at the step whose channel the vehicle is heard on.

    sound      FOUND at a step: an rx tunnel has received a packet through a scanned interface
               that was tuned to the step, and since the hop
    complete   the next step, or STOPPED: no rx tunnel on the scanned interfaces has reported
               packets in every interval since the hop

The flag between the two is set by the records of every rx tunnel, on whatever interfaces it
listens and whenever its interval began, and by none that is taken in the first 200 ms of the
dwell, however short that is.  Both hold of a run in which no record counts that has nothing from
the scanned channel in it, and none of those that should count comes too early or too late.
-/
import Waybeam.Ground.Forward

namespace Waybeam.Ground.Stats

open Text

/-! ## What is known from outside -/

/-- The packets an interval has, each once. -/
def Report.uniq (rep : Report) : UInt32 := Node.uniq (rep.heard.getD [])

/-- The supervisor reads an rx_ant record with packets. -/
def Report.Counts (rep : Report) : Prop :=
  isRxAnt (rep.dgram.take 4095) = true ∧ recCount (rep.dgram.take 4095) "uniq".toList ≠ 0

instance (rep : Report) : Decidable rep.Counts := inferInstanceAs (Decidable (_ ∧ _))

/-- The packets so far; the records and the datagrams taken since the last hop. -/
structure Evidence where
  received : List (ℕ × Reception) := []
  reports : List (ℕ × Report) := []
  taken : List (ℕ × Report × ℕ) := []

/-- There is an rx tunnel at this index. -/
def RxAt (cfg : List TunnelCfg) (i : ℕ) : Prop := (cfg[i]?.any fun t => t.role = .rx) = true

/-- It listens to a scanned interface. -/
def OnScanned (cfg : List TunnelCfg) (scan : ScanState) (i : ℕ) : Prop :=
  (cfg[i]?.any fun t => t.role = .rx && t.ifaces.any (· ∈ scan.ifaces)) = true

instance (cfg : List TunnelCfg) (i : ℕ) : Decidable (RxAt cfg i) := inferInstanceAs (Decidable (_ = _))

instance (cfg : List TunnelCfg) (scan : ScanState) (i : ℕ) : Decidable (OnScanned cfg scan i) :=
  inferInstanceAs (Decidable (_ = _))

/-- A packet on the step's channel since the hop. -/
def Received (cfg : List TunnelCfg) (scan : ScanState) (g : Evidence) : Prop :=
  ∃ p ∈ g.received, RxAt cfg p.1 ∧ p.2.iface ∈ scan.ifaces ∧ scan.stepStartedUs < p.2.us ∧
    p.2.tuned.isSome ∧ p.2.tuned = scan.steps[scan.curStep]?

/-- A tunnel that has reported packets in every interval since the hop. -/
def Reporting (cfg : List TunnelCfg) (scan : ScanState) (g : Evidence) : Prop :=
  ∃ p ∈ g.reports, OnScanned cfg scan p.1 ∧ ∀ q ∈ g.reports, q.1 = p.1 → q.2.uniq ≠ 0

instance (cfg : List TunnelCfg) (scan : ScanState) (g : Evidence) : Decidable (Received cfg scan g) :=
  inferInstanceAs (Decidable (∃ p ∈ g.received, _ ∧ _))

instance (cfg : List TunnelCfg) (scan : ScanState) (g : Evidence) : Decidable (Reporting cfg scan g) :=
  inferInstanceAs (Decidable (∃ p ∈ g.reports, _ ∧ _))

/-- Sound and complete at every deadline. -/
def lock (cfg : List TunnelCfg) : Monitor ScanObs Evidence where
  upd g
    | .received i r => { g with received := g.received ++ [(i, r)] }
    | .reported i rep _ => { g with reports := g.reports ++ [(i, rep)] }
    | .took i rep us => { g with taken := g.taken ++ [(i, rep, us)] }
    | .hopped _ => { g with reports := [], taken := [] }
    | _ => g
  ok g
    | .decided before after =>
        if after.phase = .found then Received cfg before g else ¬Reporting cfg before g
    | _ => true

/-! ## When it works -/

/-- It counts a packet that came through a scanned interface since the hop. -/
def Report.Fresh (scan : ScanState) (rep : Report) : Prop :=
  ∃ r ∈ rep.heard.getD [], r.iface ∈ scan.ifaces ∧ scan.stepStartedUs < r.us

instance (scan : ScanState) (rep : Report) : Decidable (rep.Fresh scan) :=
  inferInstanceAs (Decidable (∃ r ∈ rep.heard.getD [], _))

/-- Every tunnel on a scanned interface that has reported since the hop has had one of these
records taken after the first 200 ms. -/
def Timely (cfg : List TunnelCfg) (scan : ScanState) (g : Evidence) : Prop :=
  ∀ p ∈ g.reports, OnScanned cfg scan p.1 →
    ∃ q ∈ g.taken, q.1 = p.1 ∧ (p.1, q.2.1) ∈ g.reports ∧ scan.stepStartedUs + 200000 ≤ q.2.2

instance (cfg : List TunnelCfg) (scan : ScanState) (g : Evidence) : Decidable (Timely cfg scan g) :=
  inferInstanceAs (Decidable (∀ p ∈ g.reports, _))

/-- `iw` succeeds for every interface. -/
def IwIo.Tunes (io : IwIo) (ifaces : List Bytes) : Prop :=
  ifaces.length ≤ io.ok.length ∧ ∀ ok ∈ io.ok, ok = true

instance (io : IwIo) (ifaces : List Bytes) : Decidable (io.Tunes ifaces) :=
  inferInstanceAs (Decidable (_ ∧ _))

/-- The step's deadline has passed. -/
def Scanner.Due (s : Scanner) : Prop :=
  s.scan.phase = .running ∧ s.scan.stepStartedUs + s.scan.stepDwellUs ≤ s.clock

instance (s : Scanner) : Decidable s.Due := inferInstanceAs (Decidable (_ ∧ _))

/-- The record of an rx tunnel counts for a scan only if it is from the scanned channel. -/
def DrainOrderly (s : Scanner) (n : Node) : Prop :=
  n.listener.role = .rx → s.scan.phase = .running → s.scan.stepStartedUs + 200000 ≤ s.clock →
    ∀ rep ∈ n.socket, rep.Counts → rep.Fresh s.scan

instance (s : Scanner) (n : Node) : Decidable (DrainOrderly s n) :=
  inferInstanceAs (Decidable (_ → _ → _ → ∀ rep ∈ n.socket, _))

/-- The steps in which the flag says what it should, the deadline does not come before the record
it waits for, and the interfaces are where the scan puts them. -/
def Orderly (long : ℕ) (cfg : List TunnelCfg) (sg : Scanner × Evidence) : ScanEvent → Prop
  | .drain i _ => ∀ n ∈ sg.1.nodes[i]?, DrainOrderly sg.1 n
  | .tick io =>
      sg.1.Due → sg.1.scan.stepSawTraffic = false →
        Timely cfg sg.1.scan sg.2 ∧
          (sg.1.scan.curStep + 1 < sg.1.scan.steps.length → io.Tunes sg.1.scan.ifaces)
  | .arm csaIdle req io =>
      csaIdle = true → sg.1.scan.phase ≠ .running →
        ∀ scan ∈ (parseScan long (sg.1.nodes.flatMap (·.cfg.ifaces)) (query req)).toOption,
          io.Tunes scan.1
  | .retune iface _ => sg.1.scan.phase = .running → iface ∉ sg.1.scan.ifaces
  | _ => True

instance (long : ℕ) (cfg : List TunnelCfg) (sg : Scanner × Evidence) (e : ScanEvent) :
    Decidable (Orderly long cfg sg e) := by
  cases e <;> unfold Orderly <;> infer_instance

/-! ## The flag -/

variable {long : ℕ} {cfg : List TunnelCfg} {scan : ScanState} {g : Evidence} {i : ℕ}

/-- What the flag of the step says. -/
structure Flag (cfg : List TunnelCfg) (scan : ScanState) (g : Evidence) : Prop where
  saw : scan.stepSawTraffic = true →
    ∃ p ∈ g.received, RxAt cfg p.1 ∧ p.2.iface ∈ scan.ifaces ∧ scan.stepStartedUs < p.2.us
  took : ∀ q ∈ g.taken, RxAt cfg q.1 → q.2.1.Counts → scan.stepStartedUs + 200000 ≤ q.2.2 →
    scan.stepSawTraffic = true

theorem sent_ignored (what : Sent) : (lock cfg).Ignores (.sent i what) := fun _ => ⟨rfl, rfl⟩

theorem takeDatagram_counts (t : Listener) (scan : ScanState) (rep : Report) (now tsMs : ℕ) :
    (t.takeDatagram scan rep.dgram now tsMs).1.2 =
      if rep.Counts ∧ scan.phase = .running ∧ t.role = .rx ∧ scan.stepStartedUs + 200000 ≤ now then
        { scan with stepSawTraffic := true }
      else scan := by
  rw [Listener.takeDatagram_scan]
  by_cases hrx : isRxAnt (rep.dgram.take 4095) = true
  · rw [if_pos hrx, ScanState.sample]
    exact if_congr ⟨fun h => ⟨⟨hrx, h.1⟩, h.2⟩, fun h => ⟨h.1.2, h.2⟩⟩ rfl rfl
  · rw [if_neg hrx, if_neg fun h => hrx h.1.1]

/-- A datagram is taken: it sets the flag or leaves it. -/
theorem Flag.take (h : scan.phase = .running → Flag cfg scan g) {t : Listener} {rep : Report}
    {now : ℕ} (hrole : t.role = .rx ↔ RxAt cfg i)
    (hknown : ∀ r ∈ rep.heard.getD [], (i, r) ∈ g.received)
    (hfresh : t.role = .rx → scan.phase = .running → scan.stepStartedUs + 200000 ≤ now →
      rep.Counts → rep.Fresh scan) (tsMs : ℕ) :
    let scan' := (t.takeDatagram scan rep.dgram now tsMs).1.2
    scan'.phase = .running → Flag cfg scan' { g with taken := g.taken ++ [(i, rep, now)] } := by
  intro scan' hphase
  have hscan : scan' = _ := takeDatagram_counts t scan rep now tsMs
  split at hscan
  · next hcounts =>
      obtain ⟨hcount, hrunning, hrx, hgrace⟩ := hcounts
      obtain ⟨r, hr, hiface, hsince⟩ := hfresh hrx hrunning hgrace hcount
      rw [hscan]
      exact ⟨fun _ => ⟨(i, r), hknown r hr, hrole.mp hrx, hiface, hsince⟩, fun _ _ _ _ _ => rfl⟩
  · next hcounts =>
      rw [hscan] at hphase ⊢
      refine ⟨(h hphase).saw, ?_⟩
      intro q hq hrx hcount hgrace
      rcases List.mem_append.mp hq with hq | hq
      · exact (h hphase).took q hq hrx hcount hgrace
      · cases List.mem_singleton.mp hq
        exact absurd ⟨hcount, hphase, hrole.mpr hrx, hgrace⟩ hcounts

/-- What taking datagrams leaves of the scan: everything but the flag. -/
def ScanState.unflagged (scan : ScanState) : ScanState := { scan with stepSawTraffic := false }

theorem takeDatagram_unflagged (t : Listener) (dgram : Bytes) (now tsMs : ℕ) :
    (t.takeDatagram scan dgram now tsMs).1.2.unflagged = scan.unflagged := by
  rw [Listener.takeDatagram_scan]
  unfold ScanState.sample
  split
  · split <;> rfl
  · rfl

/-- What taking what waits at a tunnel does. -/
theorem takeAll_wp {now tsMs : ℕ} {reps : List Report} {lg : Listener × ScanState}
    (h : lg.2.phase = .running → Flag cfg lg.2 g) (hrole : lg.1.role = .rx ↔ RxAt cfg i)
    (hknown : ∀ rep ∈ reps, ∀ r ∈ rep.heard.getD [], (i, r) ∈ g.received)
    (hfresh : lg.1.role = .rx → lg.2.phase = .running → lg.2.stepStartedUs + 200000 ≤ now →
      ∀ rep ∈ reps, rep.Counts → rep.Fresh lg.2) :
    (lock cfg).wp g (Scanner.takeAll i now tsMs reps lg) fun lg' g' =>
      (lg'.2.phase = .running → Flag cfg lg'.2 g') ∧ lg'.2.unflagged = lg.2.unflagged ∧
        g'.received = g.received ∧ g'.reports = g.reports := by
  induction reps generalizing lg g with
  | nil => exact wp_pure ⟨h, rfl, rfl, rfl⟩
  | cons rep reps ih =>
      obtain ⟨hknown₁, hknown⟩ := List.forall_mem_cons.mp hknown
      have hflag := Flag.take (g := g) h hrole hknown₁
        (fun hrx hrun hgrace => hfresh hrx hrun hgrace rep List.mem_cons_self) tsMs
      let lg₁ := (lg.1.takeDatagram lg.2 rep.dgram now tsMs).1
      have hsame : lg₁.2.unflagged = lg.2.unflagged := takeDatagram_unflagged lg.1 rep.dgram now tsMs
      have hphase : lg₁.2.phase = lg.2.phase := (congrArg ScanState.phase hsame :)
      have hifaces : lg₁.2.ifaces = lg.2.ifaces := (congrArg ScanState.ifaces hsame :)
      have hstart : lg₁.2.stepStartedUs = lg.2.stepStartedUs := (congrArg ScanState.stepStartedUs hsame :)
      have hrole₁ : lg₁.1.role = lg.1.role := congrArg (fun k => k.1) (takeDatagram_kind lg.1)
      have hsent : ∀ o ∈ (lg.1.takeDatagram lg.2 rep.dgram now tsMs).2.map (ScanObs.sent i),
          (lock cfg).Ignores o := by
        intro o ho
        obtain ⟨what, -, rfl⟩ := List.mem_map.mp ho
        exact sent_ignored what
      have hrest := @ih _ lg₁ hflag (hrole₁ ▸ hrole) hknown (by
        intro hrx hrun hgrace rep' hrep' hcounts
        rw [hstart] at hgrace
        have hfresh' := hfresh (hrole₁ ▸ hrx) (hphase ▸ hrun) hgrace rep' (List.mem_cons_of_mem _ hrep') hcounts
        unfold Report.Fresh
        rw [hifaces, hstart]
        exact hfresh')
      refine wp_andThen ⟨⟨rfl, Monitor.accepts_of_ignored hsent⟩, ?_⟩
      rw [Monitor.after_cons, Monitor.after_of_ignored hsent]
      refine wp_mono hrest fun lg' g' hpost => ?_
      exact ⟨hpost.1, hpost.2.1.trans hsame, hpost.2.2⟩

/-! ## The invariant -/

/-- What waits at a tunnel was received. -/
structure Node.Known (i : ℕ) (n : Node) (g : Evidence) : Prop where
  interval : ∀ r ∈ n.interval.getD [], (i, r) ∈ g.received
  socket : ∀ rep ∈ n.socket, ∀ r ∈ rep.heard.getD [], (i, r) ∈ g.received

/-- The scanned interfaces are tuned to the step, since the hop. -/
structure Tuned (s : Scanner) (g : Evidence) : Prop where
  now : ∃ step, s.scan.steps[s.scan.curStep]? = some step ∧ ∀ f ∈ s.scan.ifaces, s.tuned f = some step
  since : ∀ p ∈ g.received, p.2.iface ∈ s.scan.ifaces → s.scan.stepStartedUs < p.2.us →
    p.2.tuned = s.scan.steps[s.scan.curStep]?

/-- State and evidence, between two steps of a scan as well. -/
structure Knows (long : ℕ) (cfg : List TunnelCfg) (s : Scanner) (g : Evidence) : Prop where
  runs : s.Runs long cfg
  known : ∀ (i : ℕ) (n : Node), s.nodes[i]? = some n → n.Known i g
  past : ∀ p ∈ g.received, p.2.us ≤ s.clock
  written : ∀ p ∈ g.reports, p.2.uniq ≠ 0 → p.2.Counts

/-- While a scan runs, its flag is right and its interfaces are on the step. -/
structure Tracks (long : ℕ) (cfg : List TunnelCfg) (s : Scanner) (g : Evidence) : Prop
    extends Knows long cfg s g where
  tuned : s.scan.phase = .running → Tuned s g
  flag : s.scan.phase = .running → Flag cfg s.scan g

variable {s : Scanner} {n n' : Node} {tsMs : ℕ}

theorem Node.Known.mono {g' : Evidence} (h : n.Known i g) (hg : ∀ p ∈ g.received, p ∈ g'.received) :
    n.Known i g' :=
  ⟨fun r hr => hg _ (h.interval r hr), fun rep hrep r hr => hg _ (h.socket rep hrep r hr)⟩

theorem Scanner.Runs.rx_iff (h : s.Runs long cfg) (hn : s.nodes[i]? = some n) :
    n.listener.role = .rx ↔ RxAt cfg i := by
  rw [RxAt, h.cfg_eq hn, (h.configured n (List.mem_of_getElem? hn)).role]
  simp

/-- A tunnel changes. -/
theorem Knows.set (h : Knows long cfg s g) (hn : s.nodes[i]? = some n) (hstays : n.Stays long n')
    (hknown : n'.Known i g) : Knows long cfg { s with nodes := s.nodes.set i n' } g where
  runs := h.runs.set hn hstays.cfg (hstays.configured (h.runs.configured n (List.mem_of_getElem? hn)))
  known := by
    intro j m hm
    by_cases hij : i = j
    · subst hij
      have hlt : i < s.nodes.length := (List.getElem?_eq_some_iff.mp hn).1
      rw [List.getElem?_set_self hlt] at hm
      cases hm
      exact hknown
    · rw [List.getElem?_set_ne hij] at hm
      exact h.known j m hm
  past := h.past
  written := h.written

theorem Tracks.set (h : Tracks long cfg s g) (hn : s.nodes[i]? = some n) (hstays : n.Stays long n')
    (hknown : n'.Known i g) : Tracks long cfg { s with nodes := s.nodes.set i n' } g where
  toKnows := h.toKnows.set hn hstays hknown
  tuned := fun hrun => ⟨(h.tuned hrun).now, (h.tuned hrun).since⟩
  flag := h.flag

theorem wp_onNode {m : Monitor ScanObs Evidence} {f : Node → Node × List ScanObs}
    {Q : Scanner → Evidence → Prop} (hnone : Q s g)
    (hsome : ∀ n, s.nodes[i]? = some n →
      m.wp g ({ s with nodes := s.nodes.set i (f n).1 }, (f n).2) Q) :
    m.wp g (s.onNode i f) Q := by
  unfold Scanner.onNode
  split
  · exact wp_pure hnone
  · next n hn => exact hsome n hn

/-! ## What the steps keep -/

/-- A packet is received where the interfaces are. -/
theorem Tracks.received (h : Tracks long cfg s g) {r : Reception} (hus : r.us = s.clock)
    (htuned : r.tuned = s.tuned r.iface) :
    Tracks long cfg s { g with received := g.received ++ [(i, r)] } where
  runs := h.runs
  known := fun j n hn => (h.known j n hn).mono fun p hp => List.mem_append_left _ hp
  past := by
    intro p hp
    rcases List.mem_append.mp hp with hp | hp
    · exact h.past p hp
    · cases List.mem_singleton.mp hp
      exact hus.le
  written := h.written
  tuned := by
    intro hrun
    obtain ⟨step, hstep, hon⟩ := (h.tuned hrun).now
    refine ⟨⟨step, hstep, hon⟩, fun p hp hiface hsince => ?_⟩
    rcases List.mem_append.mp hp with hp | hp
    · exact (h.tuned hrun).since p hp hiface hsince
    · cases List.mem_singleton.mp hp
      rw [hstep]
      exact htuned.trans (hon r.iface hiface)
  flag := by
    intro hrun
    refine ⟨fun hsaw => ?_, (h.flag hrun).took⟩
    obtain ⟨p, hp, hseen⟩ := (h.flag hrun).saw hsaw
    exact ⟨p, List.mem_append_left _ hp, hseen⟩

/-- A record is written. -/
theorem Tracks.reported (h : Tracks long cfg s g) {rep : Report} (hrep : rep.uniq ≠ 0 → rep.Counts) :
    Tracks long cfg s { g with reports := g.reports ++ [(i, rep)] } where
  runs := h.runs
  known := fun j n hn => (h.known j n hn).mono fun p hp => hp
  past := h.past
  written := by
    intro p hp
    rcases List.mem_append.mp hp with hp | hp
    · exact h.written p hp
    · cases List.mem_singleton.mp hp
      exact hrep
  tuned := fun hrun => ⟨(h.tuned hrun).now, (h.tuned hrun).since⟩
  flag := fun hrun => ⟨(h.flag hrun).saw, (h.flag hrun).took⟩

/-- The supervisor reads of a record what wfb_rx has written. -/
theorem counts_of_datagram {r : RxAnt} {heard : List Reception} {dgram : Bytes}
    (h : RxAnt.datagram { r with uniq := Node.uniq heard } = some dgram) :
    (⟨dgram, some heard⟩ : Report).uniq ≠ 0 → (⟨dgram, some heard⟩ : Report).Counts := by
  intro huniq
  unfold RxAnt.datagram at h
  split at h
  · next hshort =>
      cases h
      have htake := List.take_of_length_le (Nat.le_of_lt_succ hshort)
      constructor
      · rw [htake]
        exact isRxAnt_text _
      · rw [htake, (recCount_text _).1]
        exact huniq
  · cases h

theorem packet_wp (h : Tracks long cfg s g) (iface : Bytes) (nonce : ℕ) :
    (lock cfg).wp g (s.onNode i fun n => n.packet i ⟨iface, s.tuned iface, s.clock, nonce⟩)
      (Tracks long cfg) := by
  refine wp_onNode h fun n hn => ?_
  have hsame := h.set hn (.of_kind rfl rfl) (h.known i n hn)
  unfold Node.packet
  split
  · next heard hheard =>
      split
      · have hg := h.received (i := i) (r := ⟨iface, s.tuned iface, s.clock, nonce⟩) rfl rfl
        refine wp_emit rfl (hg.set hn (.of_kind rfl rfl) ⟨fun r hr => ?_, (hg.known i n hn).socket⟩)
        rcases List.mem_append.mp hr with hr | hr
        · exact (hg.known i n hn).interval r (by rw [hheard]; exact hr)
        · cases List.mem_singleton.mp hr
          exact List.mem_append_right _ List.mem_cons_self
      · exact wp_pure hsame
  · exact wp_pure hsame

theorem report_wp (h : Tracks long cfg s g) (r : RxAnt) (sent : Bool) :
    (lock cfg).wp g (s.onNode i fun n => n.report i r sent) (Tracks long cfg) := by
  refine wp_onNode h fun n hn => ?_
  have hknown := h.known i n hn
  unfold Node.report
  split
  · next heard hheard =>
      split
      · next dgram hdgram =>
          have hg := h.reported (i := i) (counts_of_datagram hdgram)
          refine wp_emit rfl (hg.set hn (.of_kind rfl rfl) ⟨fun _ hp => absurd hp List.not_mem_nil, ?_⟩)
          intro rep hrep r hr
          dsimp only at hrep
          split at hrep
          · rcases List.mem_append.mp hrep with hrep | hrep
            · exact hknown.socket rep hrep r hr
            · cases List.mem_singleton.mp hrep
              exact hknown.interval r (by rw [hheard]; exact hr)
          · exact hknown.socket rep hrep r hr
      · exact wp_pure (h.set hn (.of_kind rfl rfl) ⟨fun _ hp => absurd hp List.not_mem_nil, hknown.socket⟩)
  · exact wp_pure (h.set hn (.of_kind rfl rfl) hknown)

theorem arrive_wp (h : Tracks long cfg s g) (dgram : Bytes) :
    (lock cfg).wp g (s.onNode i fun n =>
      ({ n with socket := if n.fdOpen then n.socket ++ [⟨dgram, none⟩] else n.socket }, []))
      (Tracks long cfg) := by
  refine wp_onNode h fun n hn => wp_pure (h.set hn (.of_kind rfl rfl) ⟨(h.known i n hn).interval, ?_⟩)
  intro rep hrep r hr
  split at hrep
  · rcases List.mem_append.mp hrep with hrep | hrep
    · exact (h.known i n hn).socket rep hrep r hr
    · cases List.mem_singleton.mp hrep
      cases hr
  · exact (h.known i n hn).socket rep hrep r hr

theorem exit_wp (h : Tracks long cfg s g) :
    (lock cfg).wp g (s.onNode i fun n => ({ n with interval := none }, [])) (Tracks long cfg) := by
  refine wp_onNode h fun n hn => wp_pure (h.set hn (.of_kind rfl rfl) ⟨?_, (h.known i n hn).socket⟩)
  intro r hr
  cases hr

theorem spawn_wp (h : Tracks long cfg s g) (opened : Bool) :
    (lock cfg).wp g (s.onNode i fun n => (n.spawn long opened, [])) (Tracks long cfg) := by
  refine wp_onNode h fun n hn => wp_pure (h.set hn (Node.spawn_stays opened) ?_)
  have hknown := h.known i n hn
  have hopen : ∀ m : Node, m = (if !n.fdOpen && opened then
      { n with fdOpen := true, listener := n.cfg.statsListenerOpen long n.listener } else n) →
      m.interval = n.interval ∧ m.socket = n.socket := by
    rintro m rfl
    split
    · exact ⟨rfl, rfl⟩
    · exact ⟨rfl, rfl⟩
  unfold Node.spawn
  extract_lets m l
  obtain ⟨hinterval, hsocket⟩ := hopen m rfl
  split
  · refine ⟨fun _ hr => absurd hr List.not_mem_nil, fun rep hrep => hknown.socket rep ?_⟩
    rw [← hsocket]
    exact hrep
  · refine ⟨fun r hr => hknown.interval r ?_, fun rep hrep => hknown.socket rep ?_⟩
    · rw [← hinterval]
      exact hr
    · rw [← hsocket]
      exact hrep

/-- A socket is drained. -/
theorem Tracks.drained (h : Tracks long cfg s g) (hn : s.nodes[i]? = some n) {l : Listener}
    {g' : Evidence} (hkind : l.kind = n.listener.kind)
    (hflag : scan.phase = .running → Flag cfg scan g') (hsame : scan.unflagged = s.scan.unflagged)
    (hreceived : g'.received = g.received) (hreports : g'.reports = g.reports) :
    Tracks long cfg { s with nodes := s.nodes.set i { n with listener := l, socket := [] }, scan } g' := by
  have hknown : ({ n with listener := l, socket := [] } : Node).Known i g :=
    ⟨(h.known i n hn).interval, fun _ hrep => absurd hrep List.not_mem_nil⟩
  have hstays : n.Stays long { n with listener := l, socket := [] } := .of_kind rfl hkind
  have hset := h.toKnows.set hn hstays hknown
  have hbase : scan.baselineRxIdx = s.scan.baselineRxIdx := (congrArg ScanState.baselineRxIdx hsame :)
  constructor
  · refine ⟨hset.runs.withScan ?_, ?_, ?_, ?_⟩
    · rw [hbase]
      exact h.runs.drained
    · intro j m hm
      exact (hset.known j m hm).mono fun p hp => hreceived ▸ hp
    · rw [hreceived]
      exact h.past
    · rw [hreports]
      exact h.written
  · intro hrun
    have hphase : scan.phase = s.scan.phase := (congrArg ScanState.phase hsame :)
    have hifaces : scan.ifaces = s.scan.ifaces := (congrArg ScanState.ifaces hsame :)
    have hstart : scan.stepStartedUs = s.scan.stepStartedUs := (congrArg ScanState.stepStartedUs hsame :)
    have hsteps : scan.steps = s.scan.steps := (congrArg ScanState.steps hsame :)
    have hcur : scan.curStep = s.scan.curStep := (congrArg ScanState.curStep hsame :)
    obtain ⟨hnow, hsince⟩ := h.tuned (hphase ▸ hrun)
    constructor
    · show ∃ step, scan.steps[scan.curStep]? = some step ∧ ∀ f ∈ scan.ifaces, s.tuned f = some step
      rw [hsteps, hcur, hifaces]
      exact hnow
    · show ∀ p ∈ g'.received, p.2.iface ∈ scan.ifaces → scan.stepStartedUs < p.2.us →
        p.2.tuned = scan.steps[scan.curStep]?
      rw [hreceived, hsteps, hcur, hifaces, hstart]
      exact hsince
  · exact hflag

theorem drain_wp (h : Tracks long cfg s g) (hok : Orderly long cfg (s, g) (.drain i tsMs)) :
    (lock cfg).wp g (s.statsDrain i tsMs) (Tracks long cfg) := by
  unfold Scanner.statsDrain
  split
  · next n hn =>
      split
      · have horderly : DrainOrderly s n := hok n hn
        obtain ⟨haccepts, hflag, hsame, hreceived, hreports⟩ :=
          @takeAll_wp cfg g i s.clock tsMs n.socket (n.listener, s.scan) h.flag (h.runs.rx_iff hn)
            (h.known i n hn).socket horderly
        exact ⟨haccepts, h.drained hn (takeAll_kind i _ _) hflag hsame hreceived hreports⟩
      · exact wp_pure h
  · exact wp_pure h

/-! ## Hops and deadlines -/

theorem ok_found {before after : ScanState} (hphase : after.phase = .found)
    (h : Received cfg before g) : (lock cfg).ok g (.decided before after) = true := by
  simp only [lock, hphase, h, if_true, decide_true]

theorem ok_lost {before after : ScanState} (hphase : after.phase ≠ .found)
    (h : ¬Reporting cfg before g) : (lock cfg).ok g (.decided before after) = true := by
  simp only [lock, hphase, h, if_false, not_false_eq_true, decide_true]

theorem iwAll_tunes {step : ScanStep} {ifaces : List Bytes} {oks : List Bool}
    {tuned : Bytes → Option ScanStep} {f : Bytes} (hlen : ifaces.length ≤ oks.length)
    (hok : ∀ ok ∈ oks, ok = true) (hf : f ∈ ifaces ∨ tuned f = some step) :
    Scanner.iwAll step ifaces oks tuned f = some step := by
  induction ifaces generalizing oks tuned with
  | nil => exact hf.resolve_left List.not_mem_nil
  | cons f' ifaces ih =>
      cases oks with
      | nil => exact absurd hlen (by simp)
      | cons ok oks =>
          obtain ⟨rfl, hoks⟩ := List.forall_mem_cons.mp hok
          refine ih (Nat.le_of_succ_le_succ hlen) hoks ?_
          by_cases hff : f = f'
          · right
            subst hff
            exact Function.update_self ..
          · rcases hf with hf | hf
            · exact .inl ((List.mem_cons.mp hf).resolve_left hff)
            · right
              exact (Function.update_of_ne hff ..).trans hf

/-- Emptying the first rx tunnel sends, and touches nothing else. -/
theorem drainBaseline_wp (h : Knows long cfg s g) :
    (lock cfg).wp g s.drainBaseline fun s' g' =>
      Knows long cfg s' g ∧ s'.scan = s.scan ∧ s'.tuned = s.tuned ∧ s'.clock = s.clock ∧ g' = g := by
  unfold Scanner.drainBaseline
  split
  · next k _ =>
      refine wp_onNode ⟨h, rfl, rfl, rfl, rfl⟩ fun n hn => wp_ignored ?_ ⟨?_, rfl, rfl, rfl, rfl⟩
      · intro o ho
        unfold Scanner.hopDrain at ho
        split at ho
        · dsimp only at ho
          split at ho
          · obtain ⟨rep, -, rfl⟩ := List.mem_map.mp ho
            exact sent_ignored _
          · cases ho
        · cases ho
      · refine h.set hn (Node.hopDrain_stays k) ?_
        have hknown := h.known k n hn
        unfold Scanner.hopDrain
        split
        · exact ⟨hknown.interval, fun rep hrep => hknown.socket rep (List.mem_of_mem_drop hrep)⟩
        · exact hknown
  · exact wp_pure ⟨h, rfl, rfl, rfl, rfl⟩

theorem hop_wp (h : Knows long cfg s g) {io : IwIo} {k : ℕ} {step : ScanStep}
    (hstep : s.scan.steps[k]? = some step) (hio : io.Tunes s.scan.ifaces) :
    (lock cfg).wp g (s.scanApplyStepDrained k io) (Tracks long cfg) := by
  have htuned : Knows long cfg (s.tuneTo k step io) g :=
    ⟨⟨h.runs.cfgs, h.runs.configured, h.runs.drained⟩, h.known, h.past, h.written⟩
  unfold Scanner.scanApplyStepDrained
  rw [hstep]
  refine wp_andThen (wp_mono (drainBaseline_wp htuned) ?_)
  rintro s' g' ⟨hknows, hscan, htuned', hclock, rfl⟩
  have hpast : ∀ p ∈ g'.received, p.2.us ≤ s'.clock + io.us := fun p hp =>
    (hknows.past p hp).trans (Nat.le_add_right ..)
  have hknown : ∀ (j : ℕ) (m : Node), s'.nodes[j]? = some m →
      m.Known j { g' with reports := [], taken := [] } := fun j m hm =>
    (hknows.known j m hm).mono fun _ hp => hp
  refine wp_emit rfl ⟨⟨?_, hknown, hpast, fun p hp => absurd hp List.not_mem_nil⟩, ?_, ?_⟩
  · exact ⟨hknows.runs.cfgs, hknows.runs.configured, hknows.runs.drained⟩
  · intro _
    constructor
    · refine ⟨step, ?_, fun f hf => ?_⟩
      · show s'.scan.steps[s'.scan.curStep]? = some step
        rw [hscan]
        exact hstep
      · show s'.tuned f = some step
        rw [htuned']
        have hf' : f ∈ s'.scan.ifaces := hf
        rw [hscan] at hf'
        exact iwAll_tunes hio.1 hio.2 (.inl hf')
    · intro p hp _ hsince
      exact absurd hsince (Nat.not_lt_of_le (hpast p hp))
  · intro _
    constructor
    · intro hsaw
      have hsaw' : s'.scan.stepSawTraffic = true := hsaw
      rw [hscan] at hsaw'
      cases hsaw'
    · intro q hq
      exact absurd hq List.not_mem_nil

theorem OnScanned.rx (h : OnScanned cfg scan i) : RxAt cfg i := by
  obtain ⟨t, ht, hboth⟩ := (Option.any_eq_true ..).mp h
  exact (Option.any_eq_true ..).mpr ⟨t, ht, (Bool.and_eq_true_iff.mp hboth).1⟩

/-- A scan that has ended, or is to hop, keeps what is known. -/
theorem Knows.withScan (h : Knows long cfg s g)
    (hbase : ∀ k ∈ scan.baselineRxIdx, drained cfg = some k ∧ Scannable cfg) :
    Knows long cfg { s with scan } g :=
  ⟨h.runs.withScan hbase, h.known, h.past, h.written⟩

theorem Tracks.ended (h : Knows long cfg s g) (hphase : s.scan.phase ≠ .running) :
    Tracks long cfg s g :=
  ⟨h, fun hrun => absurd hrun hphase, fun hrun => absurd hrun hphase⟩

/-- The flag is set: it was set by a packet on the step. -/
theorem Tracks.found (h : Tracks long cfg s g) (hrun : s.scan.phase = .running)
    (hsaw : s.scan.stepSawTraffic = true) : Received cfg s.scan g := by
  obtain ⟨p, hp, hrx, hiface, hsince⟩ := (h.flag hrun).saw hsaw
  have htuned := (h.tuned hrun).since p hp hiface hsince
  obtain ⟨step, hstep, -⟩ := (h.tuned hrun).now
  refine ⟨p, hp, hrx, hiface, hsince, ?_, htuned⟩
  rw [htuned, hstep]
  rfl

/-- The flag is not set: no tunnel it waits for has reported packets throughout. -/
theorem Tracks.silent (h : Tracks long cfg s g) (hrun : s.scan.phase = .running)
    (hsaw : s.scan.stepSawTraffic = false) (htimely : Timely cfg s.scan g) :
    ¬Reporting cfg s.scan g := by
  rintro ⟨p, hp, hon, hall⟩
  obtain ⟨q, hq, hqp, hrep, hgrace⟩ := htimely p hp hon
  have hcounts : q.2.1.Counts := h.written _ hrep (hall _ hrep rfl)
  have htook := (h.flag hrun).took q hq (hqp ▸ hon.rx) hcounts hgrace
  rw [hsaw] at htook
  cases htook

theorem tick_wp (h : Tracks long cfg s g) {io : IwIo} (hok : Orderly long cfg (s, g) (.tick io)) :
    (lock cfg).wp g (s.scanTick io) (Tracks long cfg) := by
  unfold Scanner.scanTick
  split
  · exact wp_pure h
  · next hdue =>
      obtain ⟨hrun, hdeadline⟩ := not_or.mp hdue
      replace hrun := not_not.mp hrun
      have hok' := hok ⟨hrun, Nat.le_of_not_lt hdeadline⟩
      simp only []
      split
      · next hsaw =>
          have hover : ScanPhase.found ≠ .running := fun h => by cases h
          refine wp_emit (ok_found rfl (h.found hrun hsaw)) (Tracks.ended ?_ hover)
          exact h.toKnows.withScan h.runs.drained
      · next hsaw =>
          replace hsaw := Bool.eq_false_iff.mpr hsaw
          obtain ⟨htimely, htunes⟩ := hok' hsaw
          have hsilent := h.silent hrun hsaw htimely
          split
          · have hover : ScanPhase.stopped ≠ .running := fun h => by cases h
            have hlost : ScanPhase.stopped ≠ .found := fun h => by cases h
            refine wp_emit (ok_lost hlost hsilent) (Tracks.ended ?_ hover)
            exact h.toKnows.withScan h.runs.drained
          · next hnext =>
              replace hnext := Nat.lt_of_not_le hnext
              have hlost : s.scan.phase ≠ .found := fun h => by rw [hrun] at h; cases h
              have hknows : Knows long cfg
                  { s with scan := { s.scan with hopsDone := s.scan.hopsDone + 1 } } g :=
                h.toKnows.withScan h.runs.drained
              exact wp_andThen (wp_emit (ok_lost hlost hsilent)
                (hop_wp hknows (List.getElem?_eq_getElem hnext) (htunes hnext)))

theorem parseHts_length {hts ht : Option Bytes} {k : ℕ} {parsed : List Bytes}
    (h : parseHts hts ht k = .ok parsed) : parsed.length = k := by
  unfold parseHts at h
  dsimp only at h
  split at h
  · split at h
    · cases h
    · split at h
      · simp only [Except.bind] at h
        split at h
        · cases h
          exact List.length_replicate
        · cases h
      · split at h
        · next hcount =>
            simp only [Except.bind] at h
            split at h
            · cases h
              rw [List.length_map]
              exact hcount
            · cases h
        · cases h
  · split at h <;>
      simp only [Except.bind] at h <;>
      split at h <;>
      cases h <;>
      exact List.length_replicate

theorem parseChans_ne_nil {room : ℕ} {chstr : Bytes} {chans : List ℤ} (hne : chstr ≠ [])
    (h : parseChans long room chstr = .ok chans) : chans ≠ [] := by
  unfold parseChans at h
  split at h
  · exact absurd rfl hne
  · cases h
  · dsimp only at h
    split at h
    · cases h
    · split at h
      · cases h
      · split at h
        · cases h
        · unfold Except.map at h
          split at h
          · cases h
          · cases h
            exact List.cons_ne_nil _ _

/-- An accepted request has a first step. -/
theorem parseScan_steps {known : List Bytes} {qs : Bytes} {ifaces : List Bytes}
    {steps : List ScanStep} {dwell : ℕ}
    (h : parseScan long known qs = .ok (ifaces, steps, dwell)) : 0 < steps.length := by
  unfold parseScan at h
  split at h
  · split at h
    · next chstr hchstr =>
        have hne : chstr ≠ [] := of_decide_eq_true (Option.filter_eq_some_iff.mp hchstr).2
        simp only [bind, Except.bind] at h
        split at h
        · cases h
        · split at h
          · cases h
          · split at h
            · cases h
            · next chans hchans =>
                split at h
                · cases h
                · next hts hhts =>
                    cases h
                    have hpos := List.length_pos_of_ne_nil (parseChans_ne_nil hne hchans)
                    rw [List.length_zipWith, parseHts_length hhts, Nat.min_self]
                    exact hpos
    · cases h
  · cases h

theorem arm_wp (h : Tracks long cfg s g) {csaIdle : Bool} {req : Bytes} {io : IwIo}
    (hok : Orderly long cfg (s, g) (.arm csaIdle req io)) :
    (lock cfg).wp g (s.armScan long csaIdle req io) (Tracks long cfg) := by
  have hrefused : ∀ why, (lock cfg).wp g (s, [.refused why]) (Tracks long cfg) := fun why =>
    wp_emit rfl h
  unfold Scanner.armScan
  split
  · exact hrefused _
  · next hidle =>
      split
      · exact hrefused _
      · next hphase =>
          have hok' := hok (by simpa using hidle) hphase
          split
          · exact hrefused _
          · next ifaces steps dwell hparse =>
              rw [hparse] at hok'
              have hknows : Knows long cfg { s with scan := s.armed ifaces steps dwell } g :=
                h.toKnows.withScan (h.runs.armed_drained hparse)
              exact wp_andThen (wp_emit rfl
                (hop_wp hknows (List.getElem?_eq_getElem (parseScan_steps hparse)) (hok' _ rfl)))

theorem step_wp (h : Tracks long cfg s g) {e : ScanEvent} (hok : Orderly long cfg (s, g) e) :
    (lock cfg).wp g ((scanMachine long).step s e) (Tracks long cfg) := by
  cases e with
  | wait us =>
      refine wp_pure ⟨⟨⟨h.runs.cfgs, h.runs.configured, h.runs.drained⟩, h.known, ?_, h.written⟩, ?_, h.flag⟩
      · intro p hp
        exact (h.past p hp).trans (Nat.le_add_right ..)
      · intro hrun
        exact ⟨(h.tuned hrun).now, (h.tuned hrun).since⟩
  | spawn i opened => exact spawn_wp h opened
  | exit i => exact exit_wp h
  | packet i iface nonce => exact packet_wp h iface nonce
  | report i r sent => exact report_wp h r sent
  | arrive i dgram => exact arrive_wp h dgram
  | drain i tsMs => exact drain_wp h hok
  | tick io => exact tick_wp h hok
  | arm csaIdle req io => exact arm_wp h hok
  | cancel =>
      show (lock cfg).wp g (s.cancelScan, []) (Tracks long cfg)
      unfold Scanner.cancelScan
      split
      · have hover : ScanPhase.stopped ≠ .running := fun h => by cases h
        exact wp_pure (Tracks.ended (h.toKnows.withScan h.runs.drained) hover)
      · exact wp_pure h
  | retune iface tuned =>
      refine wp_pure ⟨⟨⟨h.runs.cfgs, h.runs.configured, h.runs.drained⟩, h.known, h.past, h.written⟩, ?_, h.flag⟩
      intro hrun
      obtain ⟨step, hstep, hon⟩ := (h.tuned hrun).now
      refine ⟨⟨step, hstep, fun f hf => ?_⟩, (h.tuned hrun).since⟩
      have hother : f ≠ iface := fun hfi => hok hrun (hfi ▸ hf)
      exact (Function.update_of_ne hother ..).trans (hon f hf)

theorem start_tracks (cfg : List TunnelCfg) : Tracks long cfg (Scanner.start cfg) {} := by
  refine Tracks.ended ⟨Scanner.start_runs cfg, ?_, ?_, ?_⟩ (fun h => by cases h)
  · intro i n hn
    obtain ⟨t, -, rfl⟩ := List.mem_map.mp (List.mem_of_getElem? hn)
    exact ⟨fun _ hr => absurd hr List.not_mem_nil, fun _ hrep => absurd hrep List.not_mem_nil⟩
  · intro p hp
    cases hp
  · intro p hp
    cases hp

/-- A packet of the first tunnel, 300 ms into the dwell. -/
def heard36 : List ScanEvent :=
  [.spawn 0 true, .arm true "iface=wlan0&chans=36,40".toList ⟨[true], 1⟩, .wait 1,
    .packet 0 "wlan0".toList 9, .wait 300000, .report 0 .quiet true, .drain 0 0, .wait 300000,
    .tick ⟨[], 0⟩]

/-- A dwell of 100 ms, with a packet in the interval that is reported. -/
def hasty : List ScanEvent :=
  [.spawn 0 true, .arm true "iface=wlan0&chans=36,40&dwell_ms=100".toList ⟨[true], 1⟩, .wait 1,
    .packet 0 "wlan0".toList 9, .wait 50000, .report 0 .quiet true, .drain 0 0, .wait 49999,
    .tick ⟨[true], 1⟩]

/-- A scan of one interface, and packets for another tunnel on another one. -/
def elsewhere : List ScanEvent :=
  [.spawn 1 true, .arm true "iface=wlan0&chans=36".toList ⟨[true], 1⟩, .wait 1,
    .packet 1 "wlan1".toList 9, .wait 300000, .report 1 .quiet true, .drain 1 0, .wait 300000,
    .tick ⟨[], 0⟩]

end Waybeam.Ground.Stats
