/-
# `Waybeam.Ground.Purity` — whose packets a probe bucket counts

A record of wfb_rx has one pair of counts and a list of entries, one per antenna and MCS.  The
producer adds the pair to the bucket of the last entry's MCS:

    "ant":[{..,"mcs":3,..},{..,"mcs":5,..}],"pkt":{..,"uniq":12,..,"lost":1,..}
                                    └────────── 12 and 1 to the bucket of 5

The record does not say how many of the twelve were at MCS 3.  The credit is right for every
way to spread them only if all entries are of one MCS (`pure_iff`).
-/
import Waybeam.Ground.Record

namespace Waybeam.Ground.Stats

open Text Probe

/-- The MCS that an entry reports packets of; one that says it has none reports none. -/
def Ant.reports (a : Ant) : Option ℤ := if a.pkts.all (0 < ·) then a.mcs else none

/-- The MCS values that a record reports packets of. -/
def reported (buf : Bytes) : List ℤ := (readAnts buf).filterMap Ant.reports

/-- A way to spread the packets of a record over the MCS values it reports: each packet's MCS. -/
structure Attribution (buf : Bytes) where
  recv : List ℤ
  lost : List ℤ
  recv_length : recv.length = (recCount buf "uniq".toList).toNat
  lost_length : lost.length = (recCount buf "lost".toList).toNat
  recv_mem : ∀ m ∈ recv, m ∈ reported buf
  lost_mem : ∀ m ∈ lost, m ∈ reported buf

/-- However the packets are spread, there are so many of MCS `m`. -/
structure Attributable (buf : Bytes) (m : ℤ) (uniq lost : UInt32) : Prop where
  possible : Nonempty (Attribution buf)
  only : ∀ a : Attribution buf, uniq.toNat ≤ a.recv.count m ∧ lost.toNat ≤ a.lost.count m

/-- What a datagram adds to a bucket is attributable to the bucket's MCS. -/
structure Pure (t : Listener) (g : ScanState) (dgram : Bytes) (now tsMs : ℕ) : Prop where
  added : ∀ (m : Fin 16) (uniq lost : UInt32),
    .probe (.added m uniq lost) ∈ (t.takeDatagram g dgram now tsMs).2 →
      Attributable (dgram.take 4095) m uniq lost

/-- The record has no packets, or all that it reports are of the last entry's MCS, or that is
none of a bucket. -/
structure OneMcs (buf : Bytes) : Prop where
  one : (0 ≤ recMcs (readAnts buf) ∧ recMcs (readAnts buf) < 16) →
    ¬(recCount buf "uniq".toList = 0 ∧ recCount buf "lost".toList = 0) →
    recMcs (readAnts buf) ∈ reported buf ∧ ∀ m ∈ reported buf, m = recMcs (readAnts buf)

/-! ## What is added -/

variable {t : Listener} {g : ScanState} {buf dgram : Bytes} {now tsMs : ℕ}

/-- One addition for each record, to the bucket of its MCS. -/
theorem added_mem_accumulate {p : Producer} {s : Sample} {m : Fin 16} {uniq lost : UInt32} :
    .added m uniq lost ∈ (p.probeAccumulate s now tsMs).2 ↔
      (m : ℤ) = s.mcs ∧ uniq = s.uniq ∧ lost = s.lost := by
  have hexpire : ∀ p : Producer, .added m uniq lost ∉ (p.probeExpire now).2 := by
    intro p
    rw [Producer.probeExpire]
    split
    · simp
    · simp
  have hadd : ∀ p : Producer, .added m uniq lost ∈ (p.probeAdd s).2 ↔
      (m : ℤ) = s.mcs ∧ uniq = s.uniq ∧ lost = s.lost := by
    intro p
    rw [Producer.probeAdd]
    split
    · next hrange =>
        have hm : m = (⟨s.mcs.toNat, by omega⟩ : Fin 16) ↔ (m : ℤ) = s.mcs := by
          rw [Fin.ext_iff]
          show (m : ℕ) = s.mcs.toNat ↔ _
          omega
        rw [List.mem_singleton, Probe.Obs.added.injEq, hm]
    · next hrange =>
        constructor
        · intro h
          exact absurd h List.not_mem_nil
        · rintro ⟨hm, -, -⟩
          have hlt := m.isLt
          omega
  have hflush : ∀ p : Producer, .added m uniq lost ∉
      (if p.winUs ≤ now - p.probeWinStartUs then p.probeWindowFlush now tsMs else (p, [])).2 := by
    intro p
    split
    · simp [Producer.probeWindowFlush]
    · simp
  simp only [Producer.probeAccumulate, andThen, List.mem_append, hexpire, hflush, hadd, false_or,
    or_false]

/-- What a record of a probe tunnel adds. -/
theorem added_mem_iff (ht : t.probe = true) (hrx : isRxAnt (dgram.take 4095) = true)
    {m : Fin 16} {uniq lost : UInt32} :
    .probe (.added m uniq lost) ∈ (t.takeDatagram g dgram now tsMs).2 ↔
      (m : ℤ) = recMcs (readAnts (dgram.take 4095)) ∧
        uniq = recCount (dgram.take 4095) "uniq".toList ∧
        lost = recCount (dgram.take 4095) "lost".toList := by
  have hne : dgram.take 4095 ≠ [] := by
    intro h0
    rw [h0] at hrx
    exact absurd hrx (by decide)
  have hno : .probe (.added m uniq lost) ∉ t.forward (dgram.take 4095) := by
    simp [Listener.forward, ht]
  rw [t.takeDatagram_sent hne, List.mem_append, or_iff_right hno, hrx, ht, Bool.and_self,
    if_pos rfl]
  constructor
  · intro h
    obtain ⟨o, ho, heq⟩ := List.mem_map.mp h
    cases heq
    exact added_mem_accumulate.mp ho
  · intro h
    exact List.mem_map.mpr ⟨_, added_mem_accumulate.mpr h, rfl⟩

/-! ## Purity -/

/-- All packets at one of the MCS values the record reports. -/
def Attribution.const {m : ℤ} (h : m ∈ reported buf) : Attribution buf where
  recv := List.replicate (recCount buf "uniq".toList).toNat m
  lost := List.replicate (recCount buf "lost".toList).toNat m
  recv_length := List.length_replicate
  lost_length := List.length_replicate
  recv_mem _ hk := List.eq_of_mem_replicate hk ▸ h
  lost_mem _ hk := List.eq_of_mem_replicate hk ▸ h

/-- No packets at all. -/
def Attribution.none (huniq : recCount buf "uniq".toList = 0)
    (hlost : recCount buf "lost".toList = 0) : Attribution buf where
  recv := []
  lost := []
  recv_length := by rw [huniq]; rfl
  lost_length := by rw [hlost]; rfl
  recv_mem _ hk := absurd hk List.not_mem_nil
  lost_mem _ hk := absurd hk List.not_mem_nil

/-- The counts of a record are attributable to an MCS where it has none, or reports no other. -/
theorem attributable_iff {m : ℤ} :
    Attributable buf m (recCount buf "uniq".toList) (recCount buf "lost".toList) ↔
      (¬(recCount buf "uniq".toList = 0 ∧ recCount buf "lost".toList = 0) →
        m ∈ reported buf ∧ ∀ k ∈ reported buf, k = m) := by
  constructor
  · intro h hcount
    have hall : ∀ k ∈ reported buf, k = m := by
      intro k hk
      by_contra hne
      -- with every packet at `k` there is none left for `m`
      obtain ⟨huniq, hlost⟩ := h.only (.const hk)
      simp only [Attribution.const, List.count_replicate, beq_iff_eq, if_neg hne,
        Nat.le_zero] at huniq hlost
      exact hcount ⟨UInt32.toNat_inj.mp huniq, UInt32.toNat_inj.mp hlost⟩
    obtain ⟨a⟩ := h.possible
    have hsome : ∃ k, k ∈ reported buf := by
      by_contra hnone
      have hrecv : a.recv = [] :=
        List.eq_nil_iff_forall_not_mem.mpr fun k hk => hnone ⟨k, a.recv_mem k hk⟩
      have hlost : a.lost = [] :=
        List.eq_nil_iff_forall_not_mem.mpr fun k hk => hnone ⟨k, a.lost_mem k hk⟩
      refine hcount ⟨UInt32.toNat_inj.mp ?_, UInt32.toNat_inj.mp ?_⟩
      · rw [← a.recv_length, hrecv]
        rfl
      · rw [← a.lost_length, hlost]
        rfl
    obtain ⟨k, hk⟩ := hsome
    exact ⟨hall k hk ▸ hk, hall⟩
  · intro h
    by_cases hcount : recCount buf "uniq".toList = 0 ∧ recCount buf "lost".toList = 0
    · refine ⟨⟨.none hcount.1 hcount.2⟩, ?_⟩
      intro a
      rw [hcount.1, hcount.2]
      exact ⟨Nat.zero_le _, Nat.zero_le _⟩
    · obtain ⟨hm, hall⟩ := h hcount
      refine ⟨⟨.const hm⟩, ?_⟩
      intro a
      have hrecv : a.recv.count m = a.recv.length :=
        List.count_eq_length.mpr fun k hk => (hall k (a.recv_mem k hk)).symm
      have hlost : a.lost.count m = a.lost.length :=
        List.count_eq_length.mpr fun k hk => (hall k (a.lost_mem k hk)).symm
      rw [hrecv, hlost, a.recv_length, a.lost_length]
      exact ⟨Nat.le_refl _, Nat.le_refl _⟩

/-- The buckets take only what is theirs at exactly the records of one MCS. -/
theorem pure_iff (ht : t.probe = true) (hrx : isRxAnt (dgram.take 4095) = true) :
    Pure t g dgram now tsMs ↔ OneMcs (dgram.take 4095) := by
  constructor
  · intro h
    constructor
    intro hrange
    have hm : ((⟨(recMcs (readAnts (dgram.take 4095))).toNat, by omega⟩ : Fin 16) : ℤ)
        = recMcs (readAnts (dgram.take 4095)) := Int.toNat_of_nonneg hrange.1
    have hadded := h.added _ _ _ ((added_mem_iff ht hrx).mpr ⟨hm, rfl, rfl⟩)
    rw [hm] at hadded
    exact attributable_iff.mp hadded
  · intro h
    constructor
    intro m uniq lost hmem
    obtain ⟨hm, rfl, rfl⟩ := (added_mem_iff ht hrx).mp hmem
    have hlt := m.isLt
    rw [hm]
    exact attributable_iff.mpr (h.one (by omega))

/-! ## Records of wfb_rx -/

theorem recMcs_text (r : RxAnt) :
    recMcs (readAnts r.text) = (r.ant.map fun e => (e.mcs.toNat : ℤ)).getLastD (-1) := by
  rw [readAnts_text, recMcs, List.filterMap_map]
  congr 1
  exact List.filterMap_eq_map.symm ▸ rfl

/-- wfb_rx has no entry without packets. -/
theorem reported_text (r : RxAnt) (h : ∀ e ∈ r.ant, 0 < e.pkts ∧ e.pkts < 2 ^ 31) :
    reported r.text = r.ant.map fun e => (e.mcs.toNat : ℤ) := by
  rw [reported, readAnts_text, List.filterMap_map, ← List.filterMap_eq_map]
  refine List.filterMap_congr ?_
  intro e he
  obtain ⟨hpos, hlt⟩ := h e he
  show (if (some (i32 e.pkts)).all (0 < ·) then _ else _) = _
  rw [i32_of_range ⟨by omega, hlt⟩, Option.all_some, if_pos (decide_eq_true hpos)]
  rfl

/-- A record of wfb_rx is right for its bucket if it has no packets, or all its entries are of the
last one's MCS. -/
theorem oneMcs_text (r : RxAnt) (h : ∀ e ∈ r.ant, 0 < e.pkts ∧ e.pkts < 2 ^ 31) :
    OneMcs r.text ↔ ∀ last ∈ r.ant.getLast?, last.mcs < 16 → ¬(r.uniq = 0 ∧ r.lost = 0) →
      ∀ e ∈ r.ant, e.mcs = last.mcs := by
  have hrec : recMcs (readAnts r.text) = (r.ant.getLast?.map fun e => (e.mcs.toNat : ℤ)).getD (-1) := by
    rw [recMcs_text, List.getLastD_eq_getLast?, List.getLast?_map]
  have hcounts := recCount_text r
  cases hlast : r.ant.getLast? with
  | none =>
      rw [hlast, Option.map_none, Option.getD_none] at hrec
      refine ⟨fun _ _ hnone => (Option.not_mem_none _ hnone).elim, fun _ => ⟨?_⟩⟩
      rw [hrec]
      exact fun hrange => absurd hrange.1 (by decide)
  | some last =>
      rw [hlast, Option.map_some, Option.getD_some] at hrec
      have hmem : (last.mcs.toNat : ℤ) ∈ r.ant.map fun e => (e.mcs.toNat : ℤ) :=
        List.mem_map_of_mem (List.mem_of_getLast? hlast)
      have hrange : (0 ≤ (last.mcs.toNat : ℤ) ∧ (last.mcs.toNat : ℤ) < 16) ↔ last.mcs < 16 := by
        rw [UInt8.lt_iff_toNat_lt]
        show _ ↔ last.mcs.toNat < 16
        omega
      have hall : (∀ m ∈ r.ant.map fun e => (e.mcs.toNat : ℤ), m = (last.mcs.toNat : ℤ)) ↔
          ∀ e ∈ r.ant, e.mcs = last.mcs := by
        rw [List.forall_mem_map]
        refine forall₂_congr fun e _ => ?_
        rw [Nat.cast_inj, UInt8.toNat_inj]
      constructor
      · intro hone e he hlt hsome
        cases he
        have hboth := hone.one
        rw [hrec, reported_text r h, hcounts.1, hcounts.2] at hboth
        exact hall.mp (hboth (hrange.mpr hlt) hsome).2
      · intro hone
        constructor
        rw [hrec, reported_text r h, hcounts.1, hcounts.2]
        intro hlt hsome
        exact ⟨hmem, hall.mpr (hone last rfl (hrange.mp hlt) hsome)⟩

/-- A record of wfb_rx with two entries. -/
def twoEntries (mcs mcs' : UInt8) : RxAnt where
  tsMs := 7
  seq := 0
  intervalMs := 100
  ant := [⟨5805, mcs, 20, 1, 10, ⟨-62, -60, -58⟩, ⟨20, 22, 25⟩⟩,
    ⟨5805, mcs', 20, 1, 2, ⟨-63, -61, -59⟩, ⟨19, 21, 24⟩⟩]
  all := 12
  bytes := 900
  decErr := 0
  session := 0
  sessionPlain := 0
  data := 12
  uniq := 12
  fecRecovered := 0
  lost := 1
  bad := 0
  outgoing := 11
  outgoingBytes := 800
  diversity := 0
  modeMismatch := 0
  adapters := 1

theorem take_text {r : RxAnt} (h : r.text.length ≤ 4095) : r.text.take 4095 = r.text :=
  List.take_of_length_le h

/-- A probe tunnel with a `stats_out`. -/
def probing : Listener := { role := .rx, probe := true, producer := { radioPort := 50 } }

theorem pure_twoEntries :
    Pure probing {} (twoEntries 5 5).text 1 1 ↔ OneMcs ((twoEntries 5 5).text.take 4095) := by
  refine pure_iff rfl ?_
  rw [take_text (by decide +kernel)]
  exact isRxAnt_text _

/-- A record that straddles a retune from MCS 3 to 5. -/
theorem not_pure :
    ¬∀ (t : Listener) (g : ScanState) (dgram : Bytes) (now tsMs : ℕ),
      t.probe = true → isRxAnt (dgram.take 4095) = true → Pure t g dgram now tsMs := by
  intro hall
  have htake : (twoEntries 3 5).text.take 4095 = (twoEntries 3 5).text := take_text (by decide +kernel)
  have hrx : isRxAnt ((twoEntries 3 5).text.take 4095) = true := by
    rw [htake]
    exact isRxAnt_text _
  have hcounts := recCount_text (twoEntries 3 5)
  have hmcs := recMcs_text (twoEntries 3 5)
  have hmem : 3 ∈ reported (twoEntries 3 5).text := by
    rw [reported_text _ (by decide)]
    decide
  have hadded := (hall probing {} (twoEntries 3 5).text 1 1 rfl hrx).added 5 12 1
  rw [added_mem_iff rfl hrx, htake, hmcs, hcounts.1, hcounts.2] at hadded
  have hcount := ((hadded ⟨rfl, rfl, rfl⟩).only (.const hmem)).1
  simp only [Attribution.const, hcounts.1] at hcount
  exact absurd hcount (by decide)

end Waybeam.Ground.Stats
