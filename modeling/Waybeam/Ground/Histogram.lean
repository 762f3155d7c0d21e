/-
# `Waybeam.Ground.Histogram` — the received MCS over the last ten seconds

The stats socket folds the packets of each `rx_ant` record, counted by MCS, into a ring of
ten one-second slots; `GET /api/v1/status` sums the slots on its own.

    stats_drain        slot = second % 10, emptied if its stamp is another second
    json_emit_tunnel   skips stamp 0 and stamps with `nsec - stamp >= 10`, in 64 bits

The ring is one of stamped slots (`Laps`) over sixteen counters of 32 bits, so the sum is what
the present second and the nine before it counted, modulo 2^32.
-/
import Mathlib.Algebra.BigOperators.Pi
import Waybeam.Ground.Stats
import Waybeam.Laps

namespace Waybeam.Ground.Stats

open Text

namespace Listener

variable (t : Listener)

/-- The ring of a tunnel. -/
def mcsRing : Laps 10 (Fin 16 → UInt32) where
  stamp := t.stMcsWinSec
  held := t.stMcsWin

/-- The part of `stats_drain` that folds the counts of a record in. -/
def foldMcs (hist : Fin 16 → UInt32) (now : ℕ) : Listener :=
  let nsec := now / 1000000
  let wslot : Fin 10 := ⟨nsec % 10, Nat.mod_lt nsec (by decide)⟩
  let kept := if t.stMcsWinSec wslot ≠ nsec then fun _ => 0 else t.stMcsWin wslot
  { t with
    stMcsWinSec := Function.update t.stMcsWinSec wslot nsec
    stMcsWin := Function.update t.stMcsWin wslot fun m => kept m + hist m }

/-- Counts one after the other, each with its time in microseconds. -/
def foldAll (folds : List (ℕ × (Fin 16 → UInt32))) : Listener :=
  folds.foldl (fun t f => t.foldMcs f.2 f.1) t

/-- `win` of `json_emit_tunnel`: the slots stamped within the window. -/
def mcsWin (now : ℕ) (m : Fin 16) : UInt32 :=
  let nsec := now / 1000000
  ∑ sl : Fin 10,
    if t.stMcsWinSec sl = 0 then 0
    else if 10 ≤ (nsec + 2 ^ 64 - t.stMcsWinSec sl) % 2 ^ 64 then 0
    else t.stMcsWin sl m

end Listener

/-- `"mcs_hist":{..}`: the rungs that are not zero, and nothing at all without one. -/
def emitMcsHist (win : Fin 16 → UInt32) : Bytes :=
  match report (List.finRange 16) win with
  | [] => []
  | rungs =>
      ",\"mcs_hist\":\x7b".toList ++
        [','].intercalate
          (rungs.map fun r => '"' :: decimal r.1 ++ "\":".toList ++ decimal r.2.toNat) ++
        ['\x7d']

/-- What a list of counts has for `m` in the ten seconds up to `now`. -/
def countedIn (folds : List (ℕ × (Fin 16 → UInt32))) (now : ℕ) (m : Fin 16) : ℕ :=
  ((folds.filter fun f => decide (now / 1000000 < f.1 / 1000000 + 10)).map
    fun f => (f.2 m).toNat).sum

/-- Times that a run of the supervisor can have: from the first second on, never backwards, and
none after `now`. -/
structure InTime (folds : List (ℕ × (Fin 16 → UInt32))) (now : ℕ) : Prop where
  pos : ∀ f ∈ folds, 1000000 ≤ f.1
  sorted : folds.Pairwise (·.1 ≤ ·.1)
  past : ∀ f ∈ folds, f.1 ≤ now
  fits : now < 2 ^ 64

/-! ## The ring -/

/-- The log of the ring: seconds in place of microseconds. -/
def secondsOf (folds : List (ℕ × (Fin 16 → UInt32))) : List (ℕ × (Fin 16 → UInt32)) :=
  folds.map fun f => (f.1 / 1000000, f.2)

namespace Listener

variable {t : Listener} {ants : List Ant} {hist : Fin 16 → UInt32} {now tsMs : ℕ}
  {folds : List (ℕ × (Fin 16 → UInt32))} {m : Fin 16}

/-- Each writer of the ring is an `add`. -/
theorem foldMcs_mcsRing : (t.foldMcs hist now).mcsRing = t.mcsRing.add (now / 1000000) hist :=
  rfl

theorem takeAnts_mcsRing :
    (t.takeAnts ants now).mcsRing = t.mcsRing.add (now / 1000000) (mcsHist ants) :=
  foldMcs_mcsRing

theorem foldAll_mcsRing : (t.foldAll folds).mcsRing = t.mcsRing.addAll (secondsOf folds) := by
  induction folds generalizing t with
  | nil => rfl
  | cons f folds ih =>
      have hnext := ih (t := t.foldMcs f.2 f.1)
      rw [foldMcs_mcsRing] at hnext
      exact hnext

/-- With no stamp in the future the subtraction does not wrap. -/
theorem mcsWin_eq_recent (hpast : ∀ sl, t.stMcsWinSec sl ≤ now / 1000000) (hfits : now < 2 ^ 64) :
    t.mcsWin now m = t.mcsRing.recent (now / 1000000) m := by
  rw [Laps.recent, Finset.sum_apply]
  refine Finset.sum_congr rfl fun sl _ => ?_
  have hle := hpast sl
  have hage : (now / 1000000 + 2 ^ 64 - t.stMcsWinSec sl) % 2 ^ 64 =
      now / 1000000 - t.stMcsWinSec sl := by omega
  rw [hage]
  show _ = (if t.stMcsWinSec sl = 0 ∨ 10 ≤ now / 1000000 - t.stMcsWinSec sl then (0 : Fin 16 → UInt32)
    else t.stMcsWin sl) m
  by_cases hzero : t.stMcsWinSec sl = 0
  · rw [if_pos hzero, if_pos (Or.inl hzero)]
    rfl
  · rw [if_neg hzero]
    by_cases hold : 10 ≤ now / 1000000 - t.stMcsWinSec sl
    · rw [if_pos hold, if_pos (Or.inr hold)]
      rfl
    · rw [if_neg hold, if_neg (not_or.mpr ⟨hzero, hold⟩)]

end Listener

/-- A sum of 32-bit counters is the sum of their values modulo 2^32. -/
theorem toNat_sum_map {ι : Type} (f : ι → UInt32) (l : List ι) :
    (l.map f).sum.toNat = (l.map fun x => (f x).toNat).sum % 2 ^ 32 := by
  induction l with
  | nil => rfl
  | cons x l ih =>
      rw [List.map_cons, List.sum_cons, List.map_cons, List.sum_cons, UInt32.toNat_add, ih,
        Nat.add_mod_mod]

theorem sum_apply (l : List (Fin 16 → UInt32)) (m : Fin 16) :
    l.sum m = (l.map fun h => h m).sum := by
  induction l with
  | nil => rfl
  | cons h l ih => rw [List.sum_cons, Pi.add_apply, ih, List.map_cons, List.sum_cons]

theorem windowSum_toNat (folds : List (ℕ × (Fin 16 → UInt32))) (now : ℕ) (m : Fin 16) :
    (Laps.windowSum 10 (secondsOf folds) (now / 1000000) m).toNat =
      countedIn folds now m % 2 ^ 32 := by
  rw [Laps.windowSum, sum_apply, List.map_map, secondsOf, List.filter_map, List.map_map,
    toNat_sum_map]
  rfl

/-- A ring that holds counts reports them. -/
theorem mcsWin_of_holds {t : Listener} {folds : List (ℕ × (Fin 16 → UInt32))} {now : ℕ}
    (h : t.mcsRing.Holds (secondsOf folds)) (hpast : ∀ f ∈ folds, f.1 ≤ now) (hfits : now < 2 ^ 64)
    (m : Fin 16) : (t.mcsWin now m).toNat = countedIn folds now m % 2 ^ 32 := by
  have hlast : ∀ e ∈ secondsOf folds, e.1 ≤ now / 1000000 := by
    intro e he
    obtain ⟨f, hf, rfl⟩ := List.mem_map.mp he
    exact Nat.div_le_div_right (hpast f hf)
  have hstamps : ∀ sl, t.stMcsWinSec sl ≤ now / 1000000 := by
    intro sl
    by_cases hzero : t.stMcsWinSec sl = 0
    · omega
    · obtain ⟨e, he, hstamp⟩ := h.logged sl hzero
      exact hstamp.symm.trans_le (hlast e he)
  rw [Listener.mcsWin_eq_recent hstamps hfits, h.recent_eq hlast, windowSum_toNat]

theorem InTime.secondsOf_pos {folds : List (ℕ × (Fin 16 → UInt32))} {now : ℕ}
    (h : InTime folds now) : ∀ e ∈ secondsOf folds, 1 ≤ e.1 := by
  intro e he
  obtain ⟨f, hf, rfl⟩ := List.mem_map.mp he
  have := h.pos f hf
  show 1 ≤ f.1 / 1000000
  omega

theorem InTime.secondsOf_sorted {folds : List (ℕ × (Fin 16 → UInt32))} {now : ℕ}
    (h : InTime folds now) : (secondsOf folds).Pairwise (·.1 ≤ ·.1) :=
  List.pairwise_map.mpr (h.sorted.imp fun hle => Nat.div_le_div_right hle)

/-- From an empty ring on, whatever is folded in is held. -/
theorem addAll_holds {t : Listener} {folds : List (ℕ × (Fin 16 → UInt32))} {now : ℕ}
    (hempty : t.mcsRing = Laps.empty) (h : InTime folds now) :
    (t.mcsRing.addAll (secondsOf folds)).Holds (secondsOf folds) := by
  rw [hempty]
  exact Laps.holds_empty.addAll h.secondsOf_pos h.secondsOf_sorted

/-- The status reports what the present second and the nine before it counted. -/
theorem status_mcs_hist (t : Listener) (hempty : t.mcsRing = Laps.empty)
    (folds : List (ℕ × (Fin 16 → UInt32))) (now : ℕ) (h : InTime folds now)
    (hwrap : ∀ m, countedIn folds now m < 2 ^ 32) :
    (∀ m, ((t.foldAll folds).mcsWin now m).toNat = countedIn folds now m) ∧
      emitMcsHist ((t.foldAll folds).mcsWin now) =
        emitMcsHist fun m => UInt32.ofNat (countedIn folds now m) := by
  have hholds : (t.foldAll folds).mcsRing.Holds (secondsOf folds) := by
    rw [Listener.foldAll_mcsRing]
    exact addAll_holds hempty h
  have hexact : ∀ m, ((t.foldAll folds).mcsWin now m).toNat = countedIn folds now m := by
    intro m
    rw [mcsWin_of_holds hholds h.past h.fits, Nat.mod_eq_of_lt (hwrap m)]
  refine ⟨hexact, ?_⟩
  congr 1
  funext m
  rw [← hexact m, UInt32.ofNat_toNat]

/-- Ten seconds after the first record its slot has been taken over; the one two seconds old
is still counted. -/
theorem status_mcs_hist_lap :
    emitMcsHist ((({ role := .rx, probe := false, producer := { radioPort := 0 } } : Listener).foldAll
        [(5000000, fun _ => 9), (13900000, fun m => if m = 3 then 7 else 0),
          (15000000, fun m => if m = 3 then 4 else if m = 11 then 1 else 0)]).mcsWin 15500000) =
      ",\"mcs_hist\":\x7b\"3\":11,\"11\":1\x7d".toList :=
  (status_mcs_hist _ rfl _ _ ⟨by decide, by decide, by decide, by decide⟩ (by decide +kernel)).2.trans
    (by decide +kernel)

/-! ## Runs of the socket -/

namespace Listener

variable {t : Listener} {g : ScanState} {now tsMs : ℕ}

theorem takeTxStats_mcsRing (buf : Bytes) : (t.takeTxStats buf now).mcsRing = t.mcsRing := by
  unfold takeTxStats
  split
  · split
    · rfl
    · rfl
  · split
    · rfl
    · rfl

theorem takeRxAnt_mcsRing (buf : Bytes) : (t.takeRxAnt buf now tsMs).1.mcsRing =
    t.mcsRing.add (now / 1000000) (mcsHist (readAnts buf)) := by
  unfold takeRxAnt
  split
  · show (if t.probe then _ else _ : Listener × List Sent).1.mcsRing = _
    split
    · rfl
    · rfl
  · show (if t.probe then _ else _ : Listener × List Sent).1.mcsRing = _
    split
    · rfl
    · rfl

/-- Of a datagram only an `rx_ant` record reaches the ring. -/
theorem takeDatagram_mcsRing (dgram : Bytes) :
    (t.takeDatagram g dgram now tsMs).1.1.mcsRing =
      if isRxAnt (dgram.take 4095) then
        t.mcsRing.add (now / 1000000) (mcsHist (readAnts (dgram.take 4095)))
      else t.mcsRing := by
  by_cases hempty : dgram.take 4095 = []
  · have hquiet : ¬isRxAnt [] = true := by decide
    simp only [takeDatagram, hempty, if_pos, if_neg hquiet]
  · simp only [takeDatagram, if_neg hempty, andThen]
    by_cases hrx : isRxAnt (dgram.take 4095)
    · rw [hrx, Bool.true_or, if_pos rfl, if_pos rfl]
      simp only [takeRecord, hrx, if_pos]
      split
      · exact (takeTxStats_mcsRing _).trans (takeRxAnt_mcsRing _)
      · exact takeRxAnt_mcsRing _
    · rw [if_neg hrx]
      split
      · simp only [takeRecord, if_neg hrx]
        split
        · exact takeTxStats_mcsRing _
        · rfl
      · rfl

end Listener

/-- A datagram as `stats_drain` receives it. -/
structure Arrival where
  dgram : Bytes
  now : ℕ
  tsMs : ℕ

/-- The socket over a run. -/
def drainAll (s : Listener × ScanState) (ds : List Arrival) : Listener × ScanState :=
  ds.foldl (fun s d => (s.1.takeDatagram s.2 d.dgram d.now d.tsMs).1) s

/-- What a datagram counts, if it is an `rx_ant` record. -/
def Arrival.counts (d : Arrival) : Option (ℕ × (Fin 16 → UInt32)) :=
  if isRxAnt (d.dgram.take 4095) then some (d.now, mcsHist (readAnts (d.dgram.take 4095)))
  else none

/-- The counts of the `rx_ant` records of a run. -/
def countsOf (ds : List Arrival) : List (ℕ × (Fin 16 → UInt32)) := ds.filterMap Arrival.counts

theorem drainAll_mcsRing (s : Listener × ScanState) (ds : List Arrival) :
    (drainAll s ds).1.mcsRing = s.1.mcsRing.addAll (secondsOf (countsOf ds)) := by
  induction ds generalizing s with
  | nil => rfl
  | cons d ds ih =>
      show (drainAll (s.1.takeDatagram s.2 d.dgram d.now d.tsMs).1 ds).1.mcsRing = _
      rw [ih, Listener.takeDatagram_mcsRing]
      by_cases hrx : isRxAnt (d.dgram.take 4095)
      · have hcounts : d.counts = some (d.now, mcsHist (readAnts (d.dgram.take 4095))) := if_pos hrx
        rw [if_pos hrx, countsOf, countsOf, List.filterMap_cons_some hcounts]
        rfl
      · have hcounts : d.counts = none := if_neg hrx
        rw [if_neg hrx, countsOf, countsOf, List.filterMap_cons_none hcounts]

/-- Whatever the socket receives, the status reports what its `rx_ant` records of the last ten
seconds counted. -/
theorem drainAll_mcsWin (s : Listener × ScanState) (hempty : s.1.mcsRing = Laps.empty)
    (ds : List Arrival) (now : ℕ) (h : InTime (countsOf ds) now) (m : Fin 16) :
    ((drainAll s ds).1.mcsWin now m).toNat = countedIn (countsOf ds) now m % 2 ^ 32 := by
  refine mcsWin_of_holds ?_ h.past h.fits m
  rw [drainAll_mcsRing]
  exact addAll_holds hempty h

end Waybeam.Ground.Stats
