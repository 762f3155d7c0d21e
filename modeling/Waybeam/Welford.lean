/-
# `Waybeam.Welford` — mean and squared deviations in one pass

A sample at a time, over a field: `mean` moves by `delta / count`, and `m2` by `delta` times what is
left of it.  After any list of samples `mean` is their mean and `m2` the sum of their squared
deviations from it.  Nothing here names a program.
-/
import Mathlib.Algebra.BigOperators.Group.List.Basic
import Mathlib.Algebra.Field.Basic
import Mathlib.Algebra.CharZero.Defs
import Mathlib.Data.Nat.Cast.Field
import Mathlib.Tactic.FieldSimp
import Mathlib.Tactic.LinearCombination
import Mathlib.Tactic.Ring

namespace Waybeam

variable {K : Type} [Field K]

/-- What a pass has seen. -/
structure Moments (K : Type) where
  count : ℕ
  mean : K
  m2 : K

namespace Moments

def add (s : Moments K) (x : K) : Moments K :=
  let count := s.count + 1
  let delta := x - s.mean
  let mean := s.mean + delta / count
  { count, mean, m2 := s.m2 + delta * (x - mean) }

/-- The moments of some samples, with nothing divided. -/
structure Of (xs : List K) (s : Moments K) : Prop where
  count : s.count = xs.length
  mean : s.mean * s.count = xs.sum
  m2 : s.m2 + s.count * s.mean ^ 2 = (xs.map fun x => x ^ 2).sum

theorem of_nil : Of [] (⟨0, 0, 0⟩ : Moments K) where
  count := rfl
  mean := by simp
  m2 := by simp

theorem Of.add [CharZero K] {xs : List K} {s : Moments K} (h : Of xs s) (x : K) : Of (xs ++ [x]) (s.add x) := by
  have hpos : ((s.count + 1 : ℕ) : K) ≠ 0 := Nat.cast_ne_zero.mpr (Nat.succ_ne_zero _)
  have hmean : (s.add x).mean * ((s.count + 1 : ℕ) : K) = xs.sum + x := by
    rw [← h.mean, Moments.add]
    field_simp
    push_cast
    ring
  constructor
  · show s.count + 1 = _
    rw [h.count, List.length_append, List.length_singleton]
  · show (s.add x).mean * ((s.count + 1 : ℕ) : K) = _
    rw [hmean, List.sum_append, List.sum_singleton]
  · rw [List.map_append, List.sum_append, ← h.m2, List.map_singleton, List.sum_singleton]
    show s.m2 + (x - s.mean) * (x - (s.add x).mean) + ((s.count + 1 : ℕ) : K) * (s.add x).mean ^ 2 = _
    -- the new mean, times the new count, is linear in the old one
    have hlin : (s.add x).mean * ((s.count + 1 : ℕ) : K) = s.mean * s.count + x := by rw [hmean, h.mean]
    push_cast at hlin ⊢
    linear_combination ((s.add x).mean + s.mean) * hlin

/-- What `m2` is the sum of. -/
theorem Of.deviations {xs : List K} {s : Moments K} (h : Of xs s) :
    s.m2 = (xs.map fun x => (x - s.mean) ^ 2).sum := by
  have hsum : ∀ ys : List K, (ys.map fun x => (x - s.mean) ^ 2).sum =
      (ys.map fun x => x ^ 2).sum - 2 * s.mean * ys.sum + ys.length * s.mean ^ 2 := by
    intro ys
    induction ys with
    | nil => simp
    | cons y ys ih =>
        rw [List.map_cons, List.sum_cons, ih, List.map_cons, List.sum_cons, List.sum_cons, List.length_cons]
        push_cast
        ring
  rw [hsum, ← h.mean, ← h.m2, ← h.count]
  ring

end Moments

end Waybeam
