/-
# `Waybeam.Tally` — keyed amounts

A list of amounts with keys, and the sum of the amounts of one key:

    tally ((k, a) :: l) k = a + tally l k        tally ((j, a) :: l) k = tally l k
    tally (report ks f) k = f k                  for a key of `ks`, each named once

`report` lists a table's amounts key by key and leaves out the keys without one.  Nothing
here names a program.
-/
import Mathlib.Algebra.BigOperators.Group.List.Basic

namespace Waybeam

variable {κ α : Type} [DecidableEq κ] [AddCommMonoid α]

/-- What `l` holds under the key `k`. -/
def tally (l : List (κ × α)) (k : κ) : α := ((l.filter fun e => decide (e.1 = k)).map Prod.snd).sum

/-- The amounts of a table, in the order of its keys. -/
def report [DecidableEq α] (ks : List κ) (f : κ → α) : List (κ × α) :=
  ks.filterMap fun k => if f k = 0 then none else some (k, f k)

@[simp] theorem tally_nil (k : κ) : tally ([] : List (κ × α)) k = 0 := rfl

theorem tally_cons (e : κ × α) (l : List (κ × α)) (k : κ) :
    tally (e :: l) k = (if e.1 = k then e.2 else 0) + tally l k := by
  by_cases h : e.1 = k
  · simp [tally, h]
  · simp [tally, h]

@[simp] theorem tally_append (l l' : List (κ × α)) (k : κ) :
    tally (l ++ l') k = tally l k + tally l' k := by
  rw [tally, tally, tally, List.filter_append, List.map_append, List.sum_append]

theorem tally_singleton (k₀ : κ) (a : α) (k : κ) :
    tally [(k₀, a)] k = if k₀ = k then a else 0 := by
  rw [tally_cons, tally_nil, add_zero]

variable [DecidableEq α] {ks : List κ} {f : κ → α} {k : κ}

theorem tally_report_cons (j : κ) :
    tally (report (j :: ks) f) k = (if j = k then f j else 0) + tally (report ks f) k := by
  by_cases hj : f j = 0
  · have hskip : report (j :: ks) f = report ks f := List.filterMap_cons_none (if_pos hj)
    rw [hskip, hj, ite_self, zero_add]
  · have hkeep : report (j :: ks) f = (j, f j) :: report ks f :=
      List.filterMap_cons_some (if_neg hj)
    rw [hkeep, tally_cons]

theorem tally_report_of_notMem (h : k ∉ ks) : tally (report ks f) k = 0 := by
  induction ks with
  | nil => rfl
  | cons j ks ih =>
      rw [List.mem_cons, not_or] at h
      rw [tally_report_cons, if_neg (Ne.symm h.1), ih h.2, add_zero]

/-- A report holds what the table says. -/
theorem tally_report (hks : ks.Nodup) (h : k ∈ ks) : tally (report ks f) k = f k := by
  induction ks with
  | nil => cases h
  | cons j ks ih =>
      obtain ⟨hj, hks⟩ := List.nodup_cons.mp hks
      rw [tally_report_cons]
      rcases List.mem_cons.mp h with rfl | h
      · rw [if_pos rfl, tally_report_of_notMem hj, add_zero]
      · have hjk : j ≠ k := by
          rintro rfl
          exact hj h
        rw [if_neg hjk, zero_add, ih hks h]

end Waybeam
