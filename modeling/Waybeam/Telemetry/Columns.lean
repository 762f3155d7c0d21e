/-
# `Waybeam.Telemetry.Columns` — the columns, as the store in Python derives them

The store and the logger write the same table; whatever comes in through the store has its columns
from here.  A record is what `json.loads` makes of it.  Every field may be missing; one of another
kind than a number is `None`, and `max` of equals is the first of them (`maxBy`).
-/
import Mathlib.Data.List.Dedup
import Mathlib.Data.List.ReduceOption
import Mathlib.Data.List.Sort
import Waybeam.Json
import Waybeam.Numeric

namespace Waybeam.Telemetry

/-! ## Built-in functions -/

section Builtins

variable {α : Type}

/-- `max(xs, key=f)` -/
def maxBy (f : α → ℕ) : List α → Option α
  | [] => none
  | x :: xs => some (xs.foldl (fun best x => if f best < f x then x else best) x)

/-- `max(xs)` -/
def maxOf : List ℚ → Option ℚ
  | [] => none
  | x :: xs => some (xs.foldl (fun best x => if best < x then x else best) x)

/-- `min(xs)` -/
def minOf : List ℚ → Option ℚ
  | [] => none
  | x :: xs => some (xs.foldl (fun best x => if x < best then x else best) x)

variable {f : α → ℕ}

/-- The best so far, of those that come later only a better one. -/
abbrev best (f : α → ℕ) (x : α) (xs : List α) : α :=
  xs.foldl (fun best x => if f best < f x then x else best) x

theorem best_stays {x : α} {xs : List α} (h : ∀ w ∈ xs, f w ≤ f x) : best f x xs = x := by
  induction xs with
  | nil => rfl
  | cons y ys ih =>
      obtain ⟨hy, hys⟩ := List.forall_mem_cons.mp h
      rw [best, List.foldl_cons, if_neg (Nat.not_lt.mpr hy)]
      exact ih hys

theorem best_mem (x : α) (xs : List α) : best f x xs ∈ x :: xs := by
  induction xs generalizing x with
  | nil => exact List.mem_cons_self
  | cons y ys ih =>
      rw [best, List.foldl_cons]
      split
      · exact List.mem_cons_of_mem _ (ih y)
      · rcases List.mem_cons.mp (ih x) with h | h
        · exact List.mem_cons.mpr (.inl h)
        · exact List.mem_cons_of_mem _ (List.mem_cons_of_mem _ h)

/-- Nothing is better, and nothing in front of it is as good. -/
theorem best_split (x : α) (xs : List α) :
    ∃ before after, x :: xs = before ++ best f x xs :: after ∧ (∀ w ∈ before, f w < f (best f x xs)) ∧
      ∀ w ∈ after, f w ≤ f (best f x xs) := by
  induction xs generalizing x with
  | nil => exact ⟨[], [], rfl, by simp, by simp⟩
  | cons y ys ih =>
      by_cases hlt : f x < f y
      · have hstep : best f x (y :: ys) = best f y ys := by rw [best, List.foldl_cons, if_pos hlt]
        obtain ⟨before, after, hsplit, hbefore, hafter⟩ := ih y
        have hy : f y ≤ f (best f y ys) := by
          have hmem : y ∈ before ++ best f y ys :: after := hsplit ▸ List.mem_cons_self
          rcases List.mem_append.mp hmem with h | h
          · exact (hbefore y h).le
          · rcases List.mem_cons.mp h with h | h
            · exact (congrArg f h).le
            · exact hafter y h
        rw [hstep]
        exact ⟨x :: before, after, congrArg (x :: ·) hsplit,
          List.forall_mem_cons.mpr ⟨hlt.trans_le hy, hbefore⟩, hafter⟩
      · have hstep : best f x (y :: ys) = best f x ys := by rw [best, List.foldl_cons, if_neg hlt]
        obtain ⟨before, after, hsplit, hbefore, hafter⟩ := ih x
        rw [hstep]
        cases before with
        | nil =>
            obtain ⟨hx, hys⟩ := List.cons.inj hsplit
            refine ⟨[], y :: ys, congrArg (· :: y :: ys) hx, by simp, ?_⟩
            rw [← hx] at hafter ⊢
            rw [hys]
            exact List.forall_mem_cons.mpr ⟨Nat.not_lt.mp hlt, hafter⟩
        | cons z before =>
            obtain ⟨rfl, hys⟩ := List.cons.inj hsplit
            obtain ⟨hz, hrest⟩ := List.forall_mem_cons.mp hbefore
            refine ⟨x :: y :: before, after, congrArg (fun l => x :: y :: l) hys, ?_, hafter⟩
            exact List.forall_mem_cons.mpr ⟨hz, List.forall_mem_cons.mpr
              ⟨(Nat.not_lt.mp hlt).trans_lt hz, hrest⟩⟩

/-- The first of those with the greatest key. -/
theorem maxBy_eq_some_iff {l : List α} {v : α} :
    maxBy f l = some v ↔ ∃ before after, l = before ++ v :: after ∧ (∀ w ∈ before, f w < f v) ∧
      ∀ w ∈ after, f w ≤ f v := by
  constructor
  · intro h
    cases l with
    | nil => cases h
    | cons x xs =>
        cases h
        exact best_split x xs
  · rintro ⟨before, after, rfl, hbefore, hafter⟩
    cases before with
    | nil => exact congrArg some (best_stays hafter)
    | cons x before =>
        have hlt : f (best f x before) < f v := hbefore _ (best_mem x before)
        show some (best f x (before ++ v :: after)) = some v
        rw [best, List.foldl_append, List.foldl_cons, if_pos hlt]
        exact congrArg some (best_stays hafter)

end Builtins

/-- `bool(x)`; a NaN is true. -/
def truthy : Json → Bool
  | .null => false
  | .bool b => b
  | .int n => n ≠ 0
  | .float q => q ≠ some 0
  | .str s => !s.isEmpty
  | .arr items => !items.isEmpty
  | .obj members => !members.isEmpty

/-! ## Fields -/

/-- `_num`; a number that is not finite is left out of account, and the record with it. -/
def num : Option Json → Option (Option ℚ)
  | some (.int n) => some (some n)
  | some (.float (some q)) => some (some q)
  | some (.float none) => none
  | _ => some none

/-- The members of a dictionary. -/
abbrev Dict := List (List ℕ × Json)

/-- `_num(d.get(key))` -/
def numOf (d : Dict) (key : String) : Option (Option ℚ) := num (Json.member d key.toList)

/-- The `avg` under a key, if there is a dictionary. -/
def avgOf (key : String) (a : Dict) : Option (Option ℚ) :=
  match Json.member a key.toList with
  | some (.obj sub) => numOf sub "avg"
  | _ => some none

/-- The dictionaries of `rec.get("ant") or []`; a number cannot be iterated. -/
def antOf (rec : Dict) : Option (List Dict) :=
  match (Json.member rec "ant".toList).filter truthy with
  | some (.arr items) => some (items.filterMap fun a => match a with | .obj d => some d | _ => none)
  -- characters and keys
  | none | some (.str _) | some (.obj _) => some []
  | _ => none

/-- `rec.get("pkt") or {}` -/
def pktOf (rec : Dict) : Option Dict :=
  match (Json.member rec "pkt".toList).filter truthy with
  | some (.obj d) => some d
  | none => some []
  | _ => none

/-! ## `derive_columns` -/

structure Columns where
  tsMs : Option ℚ
  seq : Option ℚ
  mcs : Option ℤ
  rssiComb : Option ℚ
  rssiSpread : Option ℚ
  snrAvg : Option ℚ
  pktAll : Option ℚ
  pktUniq : Option ℚ
  pktLost : Option ℚ
  fecRec : Option ℚ
  decErr : Option ℚ
  per : Option ℚ
  uplinkRssi : Option ℚ
  uplinkPkt : Option ℚ
  uplinkLost : Option ℚ
  deriving DecidableEq

/-- `max(set(vals), key=vals.count)`, where the set is iterated in ascending order. -/
def modeOf (vals : List ℤ) : Option ℤ := maxBy (fun v => vals.count v) (vals.dedup.insertionSort (· ≤ ·))

/-- `sum(vals) / len(vals)` -/
def meanOf (vals : List ℚ) : Option ℚ :=
  if vals = [] then none else some (vals.foldl (· + ·) 0 / vals.length)

/-- `derive_columns`; `none` is an exception. -/
def deriveColumns : Json → Option Columns
  | .obj rec => do
      let ant ← antOf rec
      let rssiAvgs := (← ant.mapM (avgOf "rssi")).reduceOption
      let snrAvgs := (← ant.mapM (avgOf "snr")).reduceOption
      let mcsVals := (← ant.mapM fun a => numOf a "mcs").reduceOption.map truncQ
      let pkt ← pktOf rec
      let uniq ← numOf pkt "uniq"
      let lost ← numOf pkt "lost"
      let per := uniq.bind fun uniq => lost.map fun lost =>
        if 0 < uniq + lost then lost / (uniq + lost) else 0
      let up := match Json.member rec "uplink_rx".toList with
        | some (.obj up) => if (Json.member up "present".toList).any truthy then up else []
        | _ => []
      let tsMs ← numOf rec "ts_ms"
      let seq ← numOf rec "seq"
      let pktAll ← numOf pkt "all"
      let fecRec ← numOf pkt "fec_recovered"
      let decErr ← numOf pkt "dec_err"
      let uplinkRssi ← numOf up "smoothed_rssi"
      let uplinkPkt ← numOf up "pkt_last"
      let uplinkLost ← numOf up "lost_last"
      return {
        tsMs, seq, pktAll, fecRec, decErr, per, uplinkRssi, uplinkPkt, uplinkLost
        mcs := modeOf mcsVals
        rssiComb := maxOf rssiAvgs
        rssiSpread := (maxOf rssiAvgs).bind fun hi => (minOf rssiAvgs).map fun lo => hi - lo
        snrAvg := meanOf snrAvgs
        pktUniq := uniq
        pktLost := lost }
  | _ => none

end Waybeam.Telemetry
