/-
# `Waybeam.Laps` — a ring of stamped slots, and the sum over a sliding window

A clock of `n` slots: the amounts of second `s` go to slot `s mod n`, which carries the stamp
`s`.  Nobody clears a slot when its second has passed.  The writer drops what an earlier lap
left when it finds another stamp, and the reader passes over the stamps that are too old:

    add s a        into the slot of `s`, emptied first unless its stamp is `s`
    recent now     the slots in use whose stamp is less than `n` before `now`

As long as time does not go backwards, `recent now` is what the seconds `now - n + 1 .. now`
got, no matter how many laps were skipped (`Holds.recent_eq`).  Nothing here names a program.
-/
import Mathlib.Algebra.BigOperators.Fin
import Waybeam.Tally

namespace Waybeam

/-- `n` slots; a stamp of zero is a slot that was never used. -/
structure Laps (n : ℕ) (α : Type) where
  stamp : Fin n → ℕ
  held : Fin n → α

namespace Laps

variable {n : ℕ} [NeZero n] {α : Type} [AddCommMonoid α]

def empty : Laps n α where
  stamp _ := 0
  held _ := 0

def add (r : Laps n α) (s : ℕ) (a : α) : Laps n α where
  stamp := Function.update r.stamp (Fin.ofNat n s) s
  held := Function.update r.held (Fin.ofNat n s)
    ((if r.stamp (Fin.ofNat n s) ≠ s then 0 else r.held (Fin.ofNat n s)) + a)

/-- Everything of a log, oldest first. -/
def addAll (r : Laps n α) (log : List (ℕ × α)) : Laps n α :=
  log.foldl (fun r e => r.add e.1 e.2) r

def recent (r : Laps n α) (now : ℕ) : α :=
  ∑ i, if r.stamp i = 0 ∨ n ≤ now - r.stamp i then 0 else r.held i

/-- What the log has for the last `n` seconds. -/
def windowSum (n : ℕ) (log : List (ℕ × α)) (now : ℕ) : α :=
  ((log.filter fun e => decide (now < e.1 + n)).map Prod.snd).sum

/-- What the slots hold after `log`: each the amounts of its stamp, and no second of the log is
later than the stamp of its slot. -/
structure Holds (r : Laps n α) (log : List (ℕ × α)) : Prop where
  pos : ∀ e ∈ log, 1 ≤ e.1
  latest : ∀ e ∈ log, e.1 ≤ r.stamp (Fin.ofNat n e.1)
  slot : ∀ i, r.stamp i ≠ 0 → Fin.ofNat n (r.stamp i) = i
  logged : ∀ i, r.stamp i ≠ 0 → ∃ e ∈ log, e.1 = r.stamp i
  held : ∀ i, r.held i = tally log (r.stamp i)

variable {r : Laps n α} {log : List (ℕ × α)} {now s : ℕ} {a : α}

theorem holds_empty : Holds (empty : Laps n α) [] where
  pos _ he := absurd he List.not_mem_nil
  latest _ he := absurd he List.not_mem_nil
  slot _ hi := absurd rfl hi
  logged _ hi := absurd rfl hi
  held _ := rfl

theorem tally_of_absent (h : ∀ e ∈ log, e.1 ≠ s) : tally log s = 0 := by
  have hnone : log.filter (fun e => decide (e.1 = s)) = [] := by
    refine List.filter_eq_nil_iff.mpr fun e he => ?_
    simpa using h e he
  rw [tally, hnone, List.map_nil, List.sum_nil]

/-- A slot whose stamp is not the present second holds nothing of it. -/
theorem Holds.tally_of_ne (h : Holds r log) (hlast : ∀ e ∈ log, e.1 ≤ s)
    (hne : r.stamp (Fin.ofNat n s) ≠ s) : tally log s = 0 := by
  refine tally_of_absent fun e he hes => hne ?_
  have hle : s ≤ r.stamp (Fin.ofNat n s) := hes ▸ h.latest e he
  by_cases hzero : r.stamp (Fin.ofNat n s) = 0
  · omega
  · obtain ⟨e', he', hstamp⟩ := h.logged _ hzero
    have := hlast e' he'
    omega

theorem Holds.add (h : Holds r log) (hs : 1 ≤ s) (hlast : ∀ e ∈ log, e.1 ≤ s) :
    Holds (r.add s a) (log ++ [(s, a)]) where
  pos e he := by
    rcases List.mem_append.mp he with he | he
    · exact h.pos e he
    · rw [List.mem_singleton.mp he]
      exact hs
  latest e he := by
    show e.1 ≤ Function.update r.stamp (Fin.ofNat n s) s (Fin.ofNat n e.1)
    rw [Function.update_apply]
    rcases List.mem_append.mp he with he | he
    · split
      · exact hlast e he
      · exact h.latest e he
    · rw [List.mem_singleton.mp he, if_pos rfl]
  slot i hi := by
    have hi : Function.update r.stamp (Fin.ofNat n s) s i ≠ 0 := hi
    show Fin.ofNat n (Function.update r.stamp (Fin.ofNat n s) s i) = i
    rw [Function.update_apply] at hi ⊢
    split at hi <;> rename_i hslot
    · rw [if_pos hslot, hslot]
    · rw [if_neg hslot]
      exact h.slot i hi
  logged i hi := by
    have hi : Function.update r.stamp (Fin.ofNat n s) s i ≠ 0 := hi
    show ∃ e ∈ log ++ [(s, a)], e.1 = Function.update r.stamp (Fin.ofNat n s) s i
    rw [Function.update_apply] at hi ⊢
    split at hi <;> rename_i hslot
    · rw [if_pos hslot]
      exact ⟨(s, a), List.mem_append_right _ (List.mem_singleton_self _), rfl⟩
    · rw [if_neg hslot]
      obtain ⟨e, he, hstamp⟩ := h.logged i hi
      exact ⟨e, List.mem_append_left _ he, hstamp⟩
  held i := by
    show Function.update r.held (Fin.ofNat n s) _ i =
      tally _ (Function.update r.stamp (Fin.ofNat n s) s i)
    rw [Function.update_apply, Function.update_apply, tally_append, tally_singleton]
    by_cases hslot : i = Fin.ofNat n s
    · rw [if_pos hslot, if_pos hslot, if_pos rfl]
      by_cases hstamp : r.stamp (Fin.ofNat n s) ≠ s
      · rw [if_pos hstamp, h.tally_of_ne hlast hstamp]
      · rw [if_neg hstamp, h.held, not_not.mp hstamp]
    · rw [if_neg hslot, if_neg hslot, h.held]
      have hother : s ≠ r.stamp i := by
        intro heq
        refine hslot ?_
        rw [heq, h.slot i (by omega)]
      rw [if_neg hother, add_zero]

/-- A whole log, from any ring that holds what came before. -/
theorem Holds.addAll {later : List (ℕ × α)} (h : Holds r log) (hpos : ∀ e ∈ later, 1 ≤ e.1)
    (hsorted : (log ++ later).Pairwise (·.1 ≤ ·.1)) :
    Holds (r.addAll later) (log ++ later) := by
  induction later generalizing r log with
  | nil =>
      rw [List.append_nil]
      exact h
  | cons e later ih =>
      obtain ⟨-, -, hcross⟩ := List.pairwise_append.mp hsorted
      have hnext : Holds (r.add e.1 e.2) (log ++ [e]) :=
        h.add (hpos e List.mem_cons_self) fun e' he' => hcross e' he' e List.mem_cons_self
      have := ih hnext (fun e' he' => hpos e' (List.mem_cons_of_mem _ he')) (by simpa using hsorted)
      simpa [Laps.addAll] using this

/-- A log is the logs of its slots. -/
theorem sum_slots (p : ℕ × α → Bool) (log : List (ℕ × α)) :
    ∑ i : Fin n, ((log.filter fun e => decide (Fin.ofNat n e.1 = i) && p e).map Prod.snd).sum =
      ((log.filter p).map Prod.snd).sum := by
  induction log with
  | nil => simp
  | cons e log ih =>
      by_cases hp : p e
      · have hslot : ∀ i : Fin n,
            (((e :: log).filter fun e => decide (Fin.ofNat n e.1 = i) && p e).map Prod.snd).sum =
              (if Fin.ofNat n e.1 = i then e.2 else 0) +
                ((log.filter fun e => decide (Fin.ofNat n e.1 = i) && p e).map Prod.snd).sum := by
          intro i
          by_cases hi : Fin.ofNat n e.1 = i
          · rw [List.filter_cons_of_pos (by rw [decide_eq_true hi, hp]; rfl), if_pos hi,
              List.map_cons, List.sum_cons]
          · rw [List.filter_cons_of_neg (by rw [decide_eq_false hi]; exact Bool.false_ne_true),
              if_neg hi, zero_add]
        rw [Finset.sum_congr rfl fun i _ => hslot i, Finset.sum_add_distrib, ih,
          Finset.sum_ite_eq, if_pos (Finset.mem_univ _)]
        rw [List.filter_cons_of_pos hp, List.map_cons, List.sum_cons]
      · simp only [List.filter_cons, hp, Bool.and_false, Bool.false_eq_true, if_false]
        exact ih

/-- In its own window a slot is all there is of its seconds. -/
theorem Holds.inWindow_iff (h : Holds r log) (hlast : ∀ e ∈ log, e.1 ≤ now) {i : Fin n}
    (hused : r.stamp i ≠ 0) (hnear : now - r.stamp i < n) {e : ℕ × α} (he : e ∈ log) :
    e.1 = r.stamp i ↔ Fin.ofNat n e.1 = i ∧ now < e.1 + n := by
  obtain ⟨e', he', hstamp⟩ := h.logged i hused
  have hpast : r.stamp i ≤ now := hstamp ▸ hlast e' he'
  constructor
  · intro heq
    rw [heq]
    exact ⟨h.slot i hused, by omega⟩
  · rintro ⟨hslot, hwin⟩
    have hle : e.1 ≤ r.stamp i := hslot ▸ h.latest e he
    have hmod : e.1 % n = r.stamp i % n := by
      have := congrArg Fin.val (hslot.trans (h.slot i hused).symm)
      simpa using this
    -- two seconds of one slot, less than a lap apart
    obtain ⟨k, hk⟩ := Nat.dvd_of_mod_eq_zero (Nat.sub_mod_eq_zero_of_mod_eq hmod.symm)
    rcases k with - | k
    · omega
    · have : n ≤ n * (k + 1) := Nat.le_mul_of_pos_right n (Nat.succ_pos k)
      omega

/-- What is read is what the last `n` seconds got. -/
theorem Holds.recent_eq (h : Holds r log) (hlast : ∀ e ∈ log, e.1 ≤ now) :
    r.recent now = windowSum n log now := by
  rw [windowSum, ← sum_slots (n := n)]
  refine Finset.sum_congr rfl fun i _ => ?_
  by_cases hold : r.stamp i = 0 ∨ n ≤ now - r.stamp i
  · rw [if_pos hold, List.filter_eq_nil_iff.mpr, List.map_nil, List.sum_nil]
    intro e he
    rw [Bool.and_eq_true, decide_eq_true_eq, decide_eq_true_eq]
    rintro ⟨hslot, hwin⟩
    have hle : e.1 ≤ r.stamp i := hslot ▸ h.latest e he
    have hpos := h.pos e he
    omega
  · rw [if_neg hold, h.held i, tally]
    rw [not_or, not_le] at hold
    congr 2
    refine List.filter_congr fun e he => ?_
    rw [Bool.eq_iff_iff, Bool.and_eq_true, decide_eq_true_eq, decide_eq_true_eq, decide_eq_true_eq]
    exact h.inWindow_iff hlast hold.1 hold.2 he

end Laps

end Waybeam
