/-
# `Waybeam.Probes.Summary` — the summary at exit is that of the rows

With `--stats` the probe keeps running totals and prints them when it stops.  It keeps no row, and
yet the totals are those of all the rows it has printed: counts and sums, and for each duration the
number, least, greatest, mean and squared deviations of the rows that show it.
-/
import Mathlib.Data.List.Sort
import Waybeam.Welford
import Waybeam.Probes.Rows

namespace Waybeam.Probes

/-- The accumulator of these durations. -/
structure StatAcc.Of (xs : List ℕ) (s : StatAcc) : Prop where
  moments : Moments.Of (xs.map (Nat.cast : ℕ → ℚ)) ⟨s.count, s.mean, s.m2⟩
  least : s.min = xs.foldl Min.min (2 ^ 64 - 1)
  greatest : s.max = xs.foldl Max.max 0

theorem StatAcc.of_nil : StatAcc.Of [] {} := ⟨Moments.of_nil, rfl, rfl⟩

theorem StatAcc.Of.add {xs : List ℕ} {s : StatAcc} (h : StatAcc.Of xs s) (v : ℕ) : StatAcc.Of (xs ++ [v]) (s.add v) := by
  constructor
  · rw [List.map_append]
    exact h.moments.add (v : ℚ)
  · rw [List.foldl_append, ← h.least]
    simp only [StatAcc.add, List.foldl_cons, List.foldl_nil]
    split <;> omega
  · rw [List.foldl_append, ← h.greatest]
    simp only [StatAcc.add, List.foldl_cons, List.foldl_nil]
    split <;> omega

/-! ## The rows -/

def Obs.toRow : Obs → Option Row
  | .row r => some r
  | _ => none

/-- The rows of a run, in order. -/
def rowsOf (os : List Obs) : List Row := os.filterMap Obs.toRow

/-- The durations that are shown; zero prints as `-`. -/
def shown (l : List ℕ) : List ℕ := l.filter (· ≠ 0)

/-- The steps forward of a clock; from zero, which is none, there is no step. -/
def ascents (l : List ℕ) : List ℕ := between (fun a b => if a ≠ 0 ∧ a < b then [b - a] else []) l

/-- The last reading of a clock. -/
def lastOf (l : List ℕ) : ℕ := l.getLast?.getD 0

theorem ascents_append (l : List ℕ) (b : ℕ) :
    ascents (l ++ [b]) = ascents l ++ if lastOf l ≠ 0 ∧ lastOf l < b then [b - lastOf l] else [] := by
  cases hlast : l.getLast? with
  | none =>
      obtain rfl := List.getLast?_eq_none_iff.mp hlast
      rfl
  | some a => rw [ascents, between_append _ hlast, lastOf, hlast, Option.getD_some, ascents]

def Row.recvFirst (r : Row) : ℕ := r.fa.recvFirstUs

def Row.ready (r : Row) : Option ℕ := r.ce.map fun e => e.frameReadyUs.toNat

/-- The totals of these rows. -/
structure Totals (rows : List Row) (ps : ProbeStats) : Prop where
  frames : ps.frames = rows.length
  pkts : ps.totalRtpPkts = (rows.map fun r => (r.fa.seqLast - r.fa.seqFirst).toNat + 1).sum
  gaps : ps.totalGaps = (rows.map fun r => r.fa.gaps.toNat).sum
  encodeDur : ps.encodeDur.Of (shown (rows.map Row.encodeDur))
  sendSpread : ps.sendSpread.Of (shown (rows.map Row.sendSpread))
  spreadVals : ps.spreadVals = shown (rows.map Row.sendSpread)
  recvIvl : ps.recvIvl.Of (ascents (rows.map Row.recvFirst))
  senderIvl : ps.senderIvl.Of (ascents (rows.filterMap Row.ready))

/-- The probe after printing these rows. -/
structure Summed (rows : List Row) (p : Probe) : Prop where
  enabled : p.ps.enabled = true
  totals : Totals rows p.ps
  recv : p.prevRecvFirst = lastOf (rows.map Row.recvFirst)
  ready : p.prevFrameReady = lastOf (rows.filterMap Row.ready)

/-! ## One more row -/

theorem statPos_of {l : List ℕ} {s : StatAcc} (h : s.Of (shown l)) (v : ℕ) : (Probe.statPos s v).Of (shown (l ++ [v])) := by
  rw [Probe.statPos, shown, List.filter_append, ← shown]
  split
  · next hzero =>
      subst hzero
      simpa using h
  · next hpos => simpa [hpos] using h.add v

theorem ascents_of {l : List ℕ} {s : StatAcc} (h : s.Of (ascents l)) {prev : ℕ} (hprev : prev = lastOf l) (v : ℕ) :
    (if prev ≠ 0 ∧ prev < v then s.add (v - prev) else s).Of (ascents (l ++ [v])) := by
  rw [ascents_append, ← hprev]
  split
  · exact h.add (v - prev)
  · rwa [List.append_nil]

theorem lastOf_append (l : List ℕ) (v : ℕ) : lastOf (l ++ [v]) = v := by
  rw [lastOf, List.getLast?_concat, Option.getD_some]

/-- The totals take in the row that is printed. -/
theorem Summed.addFrame {rows : List Row} {p : Probe} (h : Summed rows p) (fa : FrameAccum) (ce : Option CacheEntry) :
    Totals (rows ++ [p.emitFrame fa ce]) (p.addFrame fa ce) := by
  have ht := h.totals
  have hrecv := ascents_of ht.recvIvl h.recv fa.recvFirstUs
  have hsum : ∀ f : Row → ℕ, ((rows ++ [p.emitFrame fa ce]).map f).sum = (rows.map f).sum + f (p.emitFrame fa ce) := by
    intro f
    rw [List.map_append, List.sum_append, List.map_singleton, List.sum_singleton]
  have hframes : p.ps.frames + 1 = (rows ++ [p.emitFrame fa ce]).length := by
    rw [ht.frames, List.length_append, List.length_singleton]
  cases ce with
  | none =>
      constructor
      · exact hframes
      · rw [hsum, ← ht.pkts]
        rfl
      · rw [hsum, ← ht.gaps]
        rfl
      · rw [List.map_append]
        exact statPos_of ht.encodeDur 0
      · rw [List.map_append]
        exact statPos_of ht.sendSpread 0
      · rw [List.map_append, shown, List.filter_append, ← shown, ← ht.spreadVals]
        exact (List.append_nil _).symm
      · rw [List.map_append]
        exact hrecv
      · rw [List.filterMap_append]
        exact (List.append_nil (rows.filterMap Row.ready)).symm ▸ ht.senderIvl
  | some e =>
      constructor
      · exact hframes
      · rw [hsum, ← ht.pkts]
        rfl
      · rw [hsum, ← ht.gaps]
        rfl
      · rw [List.map_append]
        exact statPos_of ht.encodeDur e.encodeDur
      · rw [List.map_append]
        exact statPos_of ht.sendSpread e.sendSpread
      · rw [List.map_append, shown, List.filter_append, ← shown, ← ht.spreadVals]
        show (if e.sendSpread = 0 then p.ps.spreadVals else p.ps.spreadVals ++ [e.sendSpread]) = _
        split
        · next hzero => simp [Probe.emitFrame, hzero]
        · next hpos => simp [Probe.emitFrame, hpos]
      · rw [List.map_append]
        exact hrecv
      · rw [List.filterMap_append]
        exact ascents_of ht.senderIvl h.ready e.frameReadyUs.toNat

/-- A marker: the row is printed and taken in. -/
theorem Summed.finish {rows : List Row} {p : Probe} (h : Summed rows p) (fa : FrameAccum) :
    Summed (rows ++ rowsOf (p.finish fa).2) (p.finish fa).1 := by
  have hrows : rowsOf (p.finish fa).2 = [p.emitFrame fa (p.cache.lookup fa.ssrc fa.rtpTs)] := rfl
  have hps : (p.finish fa).1.ps = p.addFrame fa (p.cache.lookup fa.ssrc fa.rtpTs) := if_pos h.enabled
  rw [hrows]
  constructor
  · rw [hps, ← h.enabled]
    cases p.cache.lookup fa.ssrc fa.rtpTs <;> rfl
  · rw [hps]
    exact h.addFrame fa _
  · rw [List.map_append]
    exact (lastOf_append ..).symm
  · rw [List.filterMap_append]
    cases hce : p.cache.lookup fa.ssrc fa.rtpTs with
    | none => simp only [Probe.finish, Probe.emitFrame, Row.ready, hce, List.filterMap_cons, List.filterMap_nil, Option.map_none, Option.elim_none, List.append_nil, h.ready]
    | some e => simp only [Probe.finish, Probe.emitFrame, Row.ready, hce, List.filterMap_cons, List.filterMap_nil, Option.map_some, Option.elim_some, lastOf_append]

/-- The sidecar counters are no totals of the rows. -/
theorem Totals.recounted {rows : List Row} {ps ps' : ProbeStats} (h : Totals rows ps) (hps : Recounted ps ps') :
    Totals rows ps' := by
  obtain ⟨_, _, _, _, _, rfl⟩ := hps
  exact ⟨h.frames, h.pkts, h.gaps, h.encodeDur, h.sendSpread, h.spreadVals, h.recvIvl, h.senderIvl⟩

/-- What prints no row. -/
theorem Summed.keep {rows : List Row} {p q : Probe} (h : Summed rows p) {r : Probe × List Obs} {os : List Obs}
    (heq : r = (q, os)) (hos : rowsOf os = []) (hps : Recounted p.ps q.ps) (hrecv : q.prevRecvFirst = p.prevRecvFirst)
    (hready : q.prevFrameReady = p.prevFrameReady) : Summed (rows ++ rowsOf r.2) r.1 := by
  subst heq
  rw [hos, List.append_nil]
  refine ⟨?_, h.totals.recounted hps, hrecv.trans h.recv, hready.trans h.ready⟩
  obtain ⟨_, _, _, _, _, heq⟩ := hps
  rw [heq]
  exact h.enabled

theorem recounted_refl (ps : ProbeStats) : Recounted ps ps := ⟨_, _, _, _, _, rfl⟩

theorem Summed.step {rows : List Row} {p : Probe} (h : Summed rows p) (e : Event) :
    Summed (rows ++ rowsOf (p.step e).2) (p.step e).1 := by
  cases e with
  | timers now t1 =>
      obtain ⟨os, hos, ls, ps, hps, heq | heq⟩ := p.timers_cases now t1
      · exact h.keep heq (by rcases hos with rfl | rfl <;> rfl) hps rfl rfl
      · exact h.keep heq (by rcases hos with rfl | rfl <;> rfl) hps rfl rfl
  | sidecar datagram recvTs =>
      obtain ⟨f, -, ps, hps, heq⟩ | ⟨-, heq⟩ | ⟨-, -, -, ps, hps, heq⟩ := p.sidecar_cases (datagram.take maxPkt) recvTs
      · exact h.keep heq rfl hps rfl rfl
      · exact h.keep heq rfl (recounted_refl _) rfl rfl
      · exact h.keep heq rfl hps rfl rfl
  | rtp datagram recvTs =>
      rw [Probe.step]
      obtain ⟨-, heq⟩ | ⟨hdr, -, -, heq⟩ | ⟨hdr, -, -, heq⟩ := p.rtp_cases (datagram.take maxPkt) recvTs
      · exact h.keep heq rfl (recounted_refl _) rfl rfl
      · rw [heq]
        exact h.finish _
      · exact h.keep heq rfl (recounted_refl _) rfl rfl

/-- The probe with `--stats`. -/
def withStats : Probe := { ps := { enabled := true } }

theorem summed_run (es : List Event) : Summed (rowsOf (machine.trace withStats es)) (machine.run withStats es) := by
  induction es using List.reverseRecOn with
  | nil =>
      exact ⟨rfl, ⟨rfl, rfl, rfl, StatAcc.of_nil, StatAcc.of_nil, rfl, StatAcc.of_nil, StatAcc.of_nil⟩, rfl, rfl⟩
  | append_singleton es e ih =>
      have hstep := ih.step e
      rw [machine.run_append, machine.trace_append, rowsOf, List.filterMap_append]
      rw [Machine.trace_cons, Machine.trace_nil, List.append_nil]
      exact hstep

/-! ## The summary -/

/-- `percentile` of a sorted array. -/
def percentile (sorted : List ℕ) (pct : ℕ) : ℕ :=
  if sorted.length = 0 then 0
  else
    let idx := sorted.length * pct / 100
    sorted.getD (if idx ≥ sorted.length then sorted.length - 1 else idx) 0

/-- `spread_vals` as `stats_print` sorts them. -/
def ProbeStats.sortedSpreads (ps : ProbeStats) : List ℕ := ps.spreadVals.mergeSort (· ≤ ·)

/-- In a sorted list, the element at a place has at most that many smaller ones, and more that are no
greater. -/
theorem rank_sorted {l : List ℕ} (hsorted : l.Pairwise (· ≤ ·)) {i : ℕ} (hi : i < l.length) :
    l.countP (· < l[i]) ≤ i ∧ i < l.countP (· ≤ l[i]) := by
  have hle : ∀ x ∈ l.take (i + 1), x ≤ l[i] := by
    intro x hx
    obtain ⟨j, hj, rfl⟩ := List.mem_iff_getElem.mp hx
    rw [List.length_take] at hj
    rw [List.getElem_take]
    rcases Nat.lt_or_ge j i with hlt | hge
    · exact List.pairwise_iff_getElem.mp hsorted j i (by omega) hi hlt
    · obtain rfl : j = i := by omega
      exact Nat.le_refl _
  have hge : ∀ x ∈ l.drop i, ¬ x < l[i] := by
    intro x hx
    obtain ⟨j, hj, rfl⟩ := List.mem_iff_getElem.mp hx
    rw [List.length_drop] at hj
    rw [List.getElem_drop]
    rcases Nat.eq_zero_or_pos j with rfl | hpos
    · exact Nat.lt_irrefl _
    · exact Nat.not_lt.mpr (List.pairwise_iff_getElem.mp hsorted i (i + j) hi (by omega) (by omega))
  constructor
  · have hnone : (l.drop i).countP (· < l[i]) = 0 := List.countP_eq_zero.mpr fun x hx => by simpa using hge x hx
    calc l.countP (· < l[i]) = (l.take i).countP (· < l[i]) + (l.drop i).countP (· < l[i]) := by
          rw [← List.countP_append, List.take_append_drop]
      _ = (l.take i).countP (· < l[i]) := by rw [hnone, Nat.add_zero]
      _ ≤ (l.take i).length := List.countP_le_length
      _ ≤ i := List.length_take_le ..
  · calc i < (l.take (i + 1)).length := by
          rw [List.length_take]
          omega
      _ = (l.take (i + 1)).countP (· ≤ l[i]) := (List.countP_eq_length.mpr fun x hx => by simpa using hle x hx).symm
      _ ≤ l.countP (· ≤ l[i]) := (List.take_sublist ..).countP_le

theorem percentile_rank {l : List ℕ} (hsorted : l.Pairwise (· ≤ ·)) (hne : l ≠ []) {pct : ℕ} (hpct : pct < 100) :
    percentile l pct ∈ l ∧ l.countP (· < percentile l pct) ≤ l.length * pct / 100 ∧
      l.length * pct / 100 < l.countP (· ≤ percentile l pct) := by
  have hpos : 0 < l.length := List.length_pos_of_ne_nil hne
  have hi : l.length * pct / 100 < l.length := by
    rw [Nat.div_lt_iff_lt_mul (by decide)]
    exact Nat.mul_lt_mul_of_pos_left hpct hpos
  have heq : percentile l pct = l[l.length * pct / 100] := by
    rw [percentile, if_neg (by omega)]
    dsimp only
    rw [if_neg (by omega), List.getD_eq_getElem?_getD, List.getElem?_eq_getElem hi, Option.getD_some]
  rw [heq]
  exact ⟨List.getElem_mem hi, rank_sorted hsorted hi⟩

/-- After every run the totals are those of the rows printed, and a percentile of the send spread
is one of the spreads, with that share of them below it. -/
theorem summary_of_rows (es : List Event) :
    Totals (rowsOf (machine.trace withStats es)) (machine.run withStats es).ps ∧
      ∀ pct < 100, shown ((rowsOf (machine.trace withStats es)).map Row.sendSpread) ≠ [] →
        let spreads := shown ((rowsOf (machine.trace withStats es)).map Row.sendSpread)
        let v := percentile (machine.run withStats es).ps.sortedSpreads pct
        v ∈ spreads ∧ spreads.countP (· < v) ≤ spreads.length * pct / 100 ∧
          spreads.length * pct / 100 < spreads.countP (· ≤ v) := by
  have htotals := (summed_run es).totals
  refine ⟨htotals, fun pct hpct hne => ?_⟩
  have hperm : (machine.run withStats es).ps.sortedSpreads.Perm
      (shown ((rowsOf (machine.trace withStats es)).map Row.sendSpread)) := by
    rw [← htotals.spreadVals]
    exact List.mergeSort_perm ..
  have hsorted : (machine.run withStats es).ps.sortedSpreads.Pairwise (· ≤ ·) := by
    exact List.pairwise_mergeSort' (· ≤ ·) _
  have hrank := percentile_rank hsorted (fun h => hne (List.Perm.nil_eq (h ▸ hperm)).symm) hpct
  rw [hperm.mem_iff, hperm.countP_eq, hperm.countP_eq, hperm.length_eq] at hrank
  exact hrank

theorem summary_of_rows_gap : Totals [gapRow] (machine.run withStats (gapRun ++ [gapLast])).ps ∧
    percentile (machine.run withStats (gapRun ++ [gapLast])).ps.sortedSpreads 50 ∈ [500] := by
  have hrows : rowsOf (machine.trace withStats (gapRun ++ [gapLast])) = [gapRow] := rfl
  have h := summary_of_rows (gapRun ++ [gapLast])
  rw [hrows] at h
  exact ⟨h.1, (h.2 50 (by decide) (by decide)).1⟩

end Waybeam.Probes
