/-
# `Waybeam.Numeric` — the C conversions the two daemons lean on

The sources compute in `float`/`double` and store the results in integers.  Floats are
exact rationals here; what remains of C is its conversions:

    (long)x                 truncation towards zero                 `truncQ`
    (uint64_t)(s * 1e6f)    seconds to microseconds                 `usOf`
    (float)us / 1e6f        microseconds to seconds                 `secsOf`
    a - b   on uint64_t     wraps modulo 2^64                       `sub64`
    (uint8_t)i              keeps the low byte                      `u8`
    (int)l  from `long`     keeps the low 32 bits, signed           `i32`

Instants are `Nat` microseconds of a monotonic clock, so a difference of two instants
read in order is plain subtraction; `sub64` is for the one place where the code subtracts
a length it has not compared first.
-/
import Mathlib.Data.Rat.Floor
import Mathlib.Tactic.Linarith

namespace Waybeam

/-- Float to integer: towards zero. -/
def truncQ (q : ℚ) : ℤ := if 0 ≤ q then ⌊q⌋ else ⌈q⌉

/-- `(uint64_t)(secs * 1e6f)`. -/
def usOf (secs : ℚ) : ℕ := (truncQ (secs * 1000000)).toNat

/-- `(float)us / 1e6f`. -/
def secsOf (us : ℕ) : ℚ := us / 1000000

/-- Subtraction of `uint64_t` values. -/
def sub64 (a b : ℕ) : ℕ := (a + 2 ^ 64 - b % 2 ^ 64) % 2 ^ 64

/-- `(uint8_t)i`. -/
def u8 (i : ℤ) : UInt8 := UInt8.ofNat (i % 256).toNat

/-- `(int)l` of a `long`. -/
def i32 (l : ℤ) : ℤ := Int.bmod l (2 ^ 32)

/-- Clamp to `[lo, hi]` in the source's order: the upper bound is applied last. -/
def clampInt (lo hi x : ℤ) : ℤ :=
  let x := if x < lo then lo else x
  if x > hi then hi else x

theorem i32_range (l : ℤ) : -2 ^ 31 ≤ i32 l ∧ i32 l < 2 ^ 31 := by
  have hlo := Int.le_bmod (show 0 < 2 ^ 32 by decide) (x := l)
  have hhi := Int.bmod_lt (show 0 < 2 ^ 32 by decide) (x := l)
  simp only [i32]
  omega

theorem i32_of_range {l : ℤ} (h : -2 ^ 31 ≤ l ∧ l < 2 ^ 31) : i32 l = l :=
  Int.bmod_eq_of_le (by omega) (by omega)

theorem truncQ_of_nonneg {q : ℚ} (h : 0 ≤ q) : truncQ q = ⌊q⌋ := if_pos h

/-- Truncation never overshoots on the nonnegative side. -/
theorem truncQ_le {q : ℚ} (h : 0 ≤ q) : (truncQ q : ℚ) ≤ q := by
  rw [truncQ_of_nonneg h]
  exact Int.floor_le q

theorem secsOf_mono {a b : ℕ} (h : a ≤ b) : secsOf a ≤ secsOf b := by
  rw [secsOf, secsOf]
  gcongr

theorem secsOf_lt_secsOf {us us' : ℕ} : secsOf us < secsOf us' ↔ us < us' := by
  rw [secsOf, secsOf, div_lt_div_iff_of_pos_right (by norm_num), Nat.cast_lt]

/-- A whole number of microseconds is within a time iff it is within what is left of it. -/
theorem secsOf_le_iff {us : ℕ} {secs : ℚ} (h : 0 ≤ secs) : secsOf us ≤ secs ↔ us ≤ usOf secs := by
  have hscaled : 0 ≤ secs * 1000000 := by positivity
  have hpos : 0 ≤ truncQ (secs * 1000000) := by
    rw [truncQ_of_nonneg hscaled]
    exact Int.floor_nonneg.mpr hscaled
  rw [usOf, Int.le_toNat hpos, truncQ_of_nonneg hscaled, Int.le_floor, secsOf,
    div_le_iff₀ (by norm_num)]
  norm_cast

theorem u8_toNat {i : ℤ} (h0 : 0 ≤ i) (h : i < 256) : ((u8 i).toNat : ℤ) = i := by
  have hm : i % 256 = i := Int.emod_eq_of_lt h0 h
  have hlt : i.toNat < 256 := by omega
  simp only [u8, hm, UInt8.toNat_ofNat', Nat.reducePow]
  rw [Nat.mod_eq_of_lt hlt]
  exact Int.toNat_of_nonneg h0

theorem clampInt_mem {lo hi : ℤ} (h : lo ≤ hi) (x : ℤ) :
    lo ≤ clampInt lo hi x ∧ clampInt lo hi x ≤ hi := by
  simp only [clampInt]
  split <;> split <;> omega

/-- Bounds that are the wrong way round clamp everything to the upper one. -/
theorem clampInt_lo_le (lo hi x : ℤ) : clampInt lo hi lo ≤ clampInt lo hi x := by
  simp only [clampInt]
  split_ifs <;> omega

theorem clampInt_le_hi (lo hi x : ℤ) : clampInt lo hi x ≤ hi := by
  simp only [clampInt]
  split_ifs <;> omega

theorem clampInt_le_self {lo hi x : ℤ} (h : clampInt lo hi lo ≤ x) : clampInt lo hi x ≤ x := by
  simp only [clampInt] at *
  split_ifs at * <;> omega

/-- What is inside the bounds stays as it is. -/
theorem clampInt_of_mem {lo hi x : ℤ} (hlo : lo ≤ x) (hhi : x ≤ hi) : clampInt lo hi x = x := by
  simp only [clampInt]
  split_ifs <;> omega

/-- The largest of some numbers is one of them. -/
theorem foldl_max_spec (a : ℤ) (l : List ℤ) :
    l.foldl max a ∈ a :: l ∧ ∀ b ∈ a :: l, b ≤ l.foldl max a :=
  List.max?_eq_some_iff.mp List.max?_cons'

end Waybeam
