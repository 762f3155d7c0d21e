/-
# `Waybeam.Ring` — a fixed-size ring that overwrites its oldest slot

`head` is the slot the next push writes, `count` how many slots back from it are live.
A push on a full ring overwrites the oldest entry; `expire` drops entries from the old end
until one is worth keeping.  The bounds are fields, so an index computed from `head` and
`count` is always a slot of the array.
-/
import Mathlib.Data.Nat.Notation
import Mathlib.Logic.Function.Basic

namespace Waybeam

/-- A ring of capacity `cap`. -/
structure Ring (cap : ℕ) (α : Type) where
  slots : ℕ → α
  head : ℕ
  count : ℕ
  head_lt : head < cap
  count_le : count ≤ cap

namespace Ring

variable {cap : ℕ} {α : Type}

/-- The zero-initialised ring. -/
def empty (cap : ℕ) (h : 0 < cap) (x : α) : Ring cap α where
  slots _ := x
  head := 0
  count := 0
  head_lt := h
  count_le := Nat.zero_le _

/-- Write at `head` and advance it; the count saturates at the capacity. -/
def push (r : Ring cap α) (x : α) : Ring cap α where
  slots := Function.update r.slots r.head x
  head := (r.head + 1) % cap
  count := if r.count < cap then r.count + 1 else r.count
  head_lt := Nat.mod_lt _ (Nat.zero_lt_of_lt r.head_lt)
  count_le := by
    have := r.count_le
    split <;> omega

/-- The `i`-th newest entry. -/
def newest (r : Ring cap α) (i : ℕ) : α := r.slots ((r.head + cap - 1 - i) % cap)

/-- The live entries, newest first. -/
def toList (r : Ring cap α) : List α := (List.range r.count).map r.newest

/-- How many of the `c` newest entries survive dropping from the old end while `keep`
fails: the oldest of `c` entries sits in slot `head - c`. -/
def keepCount (r : Ring cap α) (keep : α → Bool) : ℕ → ℕ
  | 0 => 0
  | c + 1 =>
      if keep (r.slots ((r.head + cap - (c + 1)) % cap)) then c + 1 else r.keepCount keep c

theorem keepCount_le (r : Ring cap α) (keep : α → Bool) :
    ∀ c, r.keepCount keep c ≤ c
  | 0 => Nat.le_refl 0
  | c + 1 => by
      rw [keepCount]
      split
      · exact Nat.le_refl _
      · exact Nat.le_succ_of_le (r.keepCount_le keep c)

/-- Drop entries from the old end until one is kept. -/
def expire (r : Ring cap α) (keep : α → Bool) : Ring cap α where
  slots := r.slots
  head := r.head
  count := r.keepCount keep r.count
  head_lt := r.head_lt
  count_le := Nat.le_trans (r.keepCount_le keep r.count) r.count_le

/-- Forget every entry. -/
def clear (r : Ring cap α) : Ring cap α where
  slots := r.slots
  head := r.head
  count := 0
  head_lt := r.head_lt
  count_le := Nat.zero_le _

/-! ## The entries as a list -/

variable (r : Ring cap α)

@[simp] theorem toList_clear : r.clear.toList = [] := rfl

theorem newest_push_zero (x : α) : (r.push x).newest 0 = x := by
  have hslot : ((r.head + 1) % cap + cap - 1 - 0) % cap = r.head := by
    have := r.head_lt
    rcases Nat.lt_or_ge (r.head + 1) cap with h | h
    · rw [Nat.mod_eq_of_lt h, show r.head + 1 + cap - 1 - 0 = r.head + cap by omega, Nat.add_mod_right,
        Nat.mod_eq_of_lt r.head_lt]
    · rw [show r.head + 1 = cap by omega, Nat.mod_self, Nat.mod_eq_of_lt (by omega)]
      omega
  rw [newest, show (r.push x).head = (r.head + 1) % cap from rfl, hslot]
  exact Function.update_self ..

/-- The entries of before are one further back, as far as the ring reaches. -/
theorem newest_push_succ (x : α) {i : ℕ} (h : i + 1 < cap) :
    (r.push x).newest (i + 1) = r.newest i := by
  have hhead := r.head_lt
  have hslot : ((r.head + 1) % cap + cap - 1 - (i + 1)) % cap = (r.head + cap - 1 - i) % cap := by
    rcases Nat.lt_or_ge (r.head + 1) cap with hlt | hge
    · rw [Nat.mod_eq_of_lt hlt]
      congr 1
      omega
    · rw [show r.head + 1 = cap by omega, Nat.mod_self, show r.head + cap - 1 - i = cap - 1 - (i + 1) + cap by omega,
        Nat.add_mod_right]
      congr 1
      omega
  have hother : (r.head + cap - 1 - i) % cap ≠ r.head := by
    rcases Nat.lt_or_ge (r.head + cap - 1 - i) cap with hlt | hge
    · rw [Nat.mod_eq_of_lt hlt]
      omega
    · rw [Nat.mod_eq_sub_mod hge, Nat.mod_eq_of_lt (by omega)]
      omega
  rw [newest, show (r.push x).head = (r.head + 1) % cap from rfl, hslot]
  exact Function.update_of_ne hother ..

/-- A push puts the entry in front; the oldest of a full ring is lost. -/
theorem toList_push (x : α) : (r.push x).toList = (x :: r.toList).take cap := by
  have hpos : 0 < cap := Nat.zero_lt_of_lt r.head_lt
  have hle := r.count_le
  have hcount : (r.push x).count = min (r.count + 1) cap := by
    show (if r.count < cap then r.count + 1 else r.count) = _
    split <;> omega
  refine List.ext_getElem ?_ ?_
  · simp [toList, hcount, Nat.min_comm]
  · intro i hi hi'
    have hlt : i < (r.push x).count := by simpa [toList] using hi
    rw [List.getElem_take]
    cases i with
    | zero => simp [toList, newest_push_zero]
    | succ i => simp [toList, r.newest_push_succ x (show i + 1 < cap by omega)]

/-- Expiring the ring makes no entry. -/
theorem mem_of_mem_expire {keep : α → Bool} {x : α} (h : x ∈ (r.expire keep).toList) : x ∈ r.toList := by
  obtain ⟨i, hi, rfl⟩ := List.mem_map.mp h
  have hlt : i < r.keepCount keep r.count := List.mem_range.mp hi
  exact List.mem_map_of_mem (List.mem_range.mpr (Nat.lt_of_lt_of_le hlt (r.keepCount_le keep r.count)))

/-- The `k`-th oldest entry, counted from the slot `head - count`. -/
def oldest (k : ℕ) : α := r.slots ((r.head + 2 * cap - r.count + k) % cap)

theorem oldest_eq {k : ℕ} (h : k < r.count) : r.oldest k = r.newest (r.count - 1 - k) := by
  have hle := r.count_le
  rw [oldest, newest]
  congr 1
  rw [show r.head + 2 * cap - r.count + k = r.head + cap - 1 - (r.count - 1 - k) + cap by omega,
    Nat.add_mod_right]

/-- The live entries, oldest first. -/
theorem map_oldest : (List.range r.count).map r.oldest = r.toList.reverse := by
  refine List.ext_getElem ?_ ?_
  · simp [toList]
  · intro k hk hk'
    have hlt : k < r.count := by simpa using hk
    simp [toList, r.oldest_eq hlt]

/-- Nothing was dropped: until the ring is full, the live slots are the first ones. -/
def Filled : Prop := r.count < cap → r.head = r.count

theorem filled_empty (h : 0 < cap) (x : α) : (empty cap h x).Filled := fun _ => rfl

variable {r}

theorem Filled.push (h : r.Filled) (x : α) : (r.push x).Filled := by
  intro hlt
  have hhead := r.head_lt
  simp only [Ring.push] at hlt ⊢
  split at hlt
  · next hroom => rw [if_pos hroom, h hroom, Nat.mod_eq_of_lt hlt]
  · next hfull => exact absurd hlt hfull

/-- The live entries are what the first `count` slots hold. -/
theorem Filled.mem_toList (h : r.Filled) {x : α} : x ∈ r.toList ↔ ∃ j < r.count, r.slots j = x := by
  have hhead := r.head_lt
  have hcount := r.count_le
  simp only [toList, List.mem_map, List.mem_range, newest]
  constructor
  · rintro ⟨i, hi, rfl⟩
    refine ⟨_, ?_, rfl⟩
    rcases Nat.lt_or_ge r.count cap with hlt | hge
    · rw [show r.head + cap - 1 - i = cap + (r.count - 1 - i) by have := h hlt; omega, Nat.add_mod_left]
      exact Nat.lt_of_le_of_lt (Nat.mod_le ..) (by omega)
    · exact Nat.lt_of_lt_of_le (Nat.mod_lt _ (by omega)) hge
  · rintro ⟨j, hj, rfl⟩
    rcases Nat.lt_or_ge j r.head with hlt | hge
    · refine ⟨r.head - 1 - j, ?_, ?_⟩
      · rcases Nat.lt_or_ge r.count cap with hroom | hfull
        · have := h hroom
          omega
        · omega
      · rw [show r.head + cap - 1 - (r.head - 1 - j) = cap + j by omega, Nat.add_mod_left, Nat.mod_eq_of_lt (by omega)]
    · have hfull : ¬ r.count < cap := fun hroom => by
        have := h hroom
        omega
      refine ⟨r.head + cap - 1 - j, by omega, ?_⟩
      rw [show r.head + cap - 1 - (r.head + cap - 1 - j) = j by omega, Nat.mod_eq_of_lt (by omega)]

variable (r)

/-- Where an entry worth keeping is followed by newer ones worth keeping only, expiring the ring
is a filter. -/
theorem toList_expire {keep : α → Bool}
    (h : r.toList.Pairwise fun a b => keep b = true → keep a = true) :
    (r.expire keep).toList = r.toList.filter keep := by
  have hprefix : ∀ c, ((List.range c).map r.newest).Pairwise (fun a b => keep b = true → keep a = true) →
      (List.range (r.keepCount keep c)).map r.newest = ((List.range c).map r.newest).filter keep := by
    intro c
    induction c with
    | zero => intro _; rfl
    | succ c ih =>
        intro hc
        rw [List.range_succ, List.map_append, List.pairwise_append] at hc
        obtain ⟨hnewer, -, hlast⟩ := hc
        have hslot : r.slots ((r.head + cap - (c + 1)) % cap) = r.newest c := by
          rw [newest, show r.head + cap - (c + 1) = r.head + cap - 1 - c by omega]
        rw [keepCount, hslot, List.range_succ, List.map_append, List.filter_append]
        cases hk : keep (r.newest c) with
        | true =>
            have hall : ((List.range c).map r.newest).filter keep = (List.range c).map r.newest := by
              rw [List.filter_eq_self]
              intro a ha
              exact hlast a ha _ (List.mem_singleton_self _) hk
            rw [if_pos rfl, hall, List.range_succ, List.map_append]
            simp [hk]
        | false =>
            rw [if_neg Bool.false_ne_true, ih hnewer]
            simp [hk]
  exact hprefix r.count h

end Ring

end Waybeam
