/-
# `Waybeam.Scrape` — fields picked out of a text

Neither daemon parses a datagram it wants a few numbers of: it looks for the key and reads
the number that follows.

    strstr          what stands behind the first occurrence      `behind`
    strtol(p,&e)    spaces, a sign, digits; clamps to `long`     `strtol`

`long` has 32 bits on some of the vehicles and 64 elsewhere, so its width is a parameter.
-/
import Waybeam.Text

namespace Waybeam.Text

/-- What stands behind the first occurrence of `pat`. -/
def behind (pat : Bytes) : Bytes → Option Bytes
  | [] => if pat = [] then some [] else none
  | c :: s => if pat.isPrefixOf (c :: s) then some ((c :: s).drop pat.length) else behind pat s

/-- `strstr(s, pat) != NULL` -/
def contains (pat s : Bytes) : Bool := (behind pat s).isSome

/-- The number at the start of a string, and what follows. -/
def readInt (s : Bytes) : Option (ℤ × Bytes) :=
  match s.dropWhile isSpace with
  | '-' :: s => (magnitude s).map fun r => (-r.1, r.2)
  | '+' :: s => (magnitude s).map fun r => (r.1, r.2)
  | s => (magnitude s).map fun r => (r.1, r.2)

/-- What a `long` of so many bits keeps of a number that is read into it. -/
def clampLong (bits : ℕ) (l : ℤ) : ℤ := max (-2 ^ (bits - 1)) (min l (2 ^ (bits - 1) - 1))

/-- `strtol(p, &end, 10)`; `none` where it leaves `end == p`. -/
def strtol (bits : ℕ) (s : Bytes) : Option ℤ := (readInt s).map fun r => clampLong bits r.1

theorem behind_self (pat s : Bytes) : behind pat (pat ++ s) = some s := by
  cases hx : pat ++ s with
  | nil =>
      obtain ⟨rfl, rfl⟩ := List.append_eq_nil_iff.mp hx
      rfl
  | cons c t =>
      rw [behind, ← hx, if_pos (List.isPrefixOf_iff_prefix.mpr (List.prefix_append _ _)),
        List.drop_left]

/-- The first occurrence stays the first whatever follows it. -/
theorem behind_append {pat s rest : Bytes} (h : behind pat s = some rest) :
    ∃ before, s = before ++ pat ++ rest ∧ ∀ x, behind pat (before ++ pat ++ x) = some x := by
  induction s with
  | nil =>
    rw [behind] at h
    split at h
    · rename_i hpat
      cases h
      exact ⟨[], by rw [hpat]; rfl, fun x => behind_self pat x⟩
    · cases h
  | cons c s ih =>
    rw [behind] at h
    split at h
    · rename_i hpre
      obtain ⟨t, ht⟩ := List.isPrefixOf_iff_prefix.mp hpre
      rw [← ht, List.drop_left] at h
      cases h
      exact ⟨[], ht.symm, fun x => behind_self pat x⟩
    · rename_i hpre
      obtain ⟨before, hs, hx⟩ := ih h
      refine ⟨c :: before, by rw [hs]; rfl, fun x => ?_⟩
      -- whether the pattern stands here is decided before its own end
      have hno : pat.isPrefixOf (c :: (before ++ pat ++ x)) = false := by
        rw [Bool.eq_false_iff, ne_eq, List.isPrefixOf_iff_prefix]
        intro hp
        refine hpre (List.isPrefixOf_iff_prefix.mpr ?_)
        have hshort : pat <+: c :: (before ++ pat) :=
          List.prefix_of_prefix_length_le hp (List.prefix_append (c :: (before ++ pat)) x) (by simp; omega)
        rw [hs]
        exact hshort.trans (List.prefix_append (c :: (before ++ pat)) rest)
      show behind pat (c :: (before ++ pat ++ x)) = some x
      rw [behind, hno, if_neg Bool.false_ne_true]
      exact hx x

theorem behind_length {pat s rest : Bytes} (h : behind pat s = some rest) :
    pat.length + rest.length ≤ s.length := by
  obtain ⟨before, rfl, -⟩ := behind_append h
  simp only [List.length_append]
  omega

theorem clampLong_of_lt {bits : ℕ} {l : ℤ} (hlo : -2 ^ (bits - 1) ≤ l) (hhi : l < 2 ^ (bits - 1)) :
    clampLong bits l = l := by
  rw [clampLong, min_eq_left (Int.le_sub_one_of_lt hhi), max_eq_right hlo]

/-- A number that starts with a digit is read as it stands. -/
theorem readInt_digit {c : Char} (hc : c.isDigit) (s : Bytes) :
    readInt (c :: s) = (magnitude (c :: s)).map fun r => ((r.1 : ℤ), r.2) := by
  have hs : (c :: s).dropWhile isSpace = c :: s := by simp [isSpace_of_isDigit hc]
  rw [readInt, hs]
  split
  · next h => cases h; exact absurd hc (by decide)
  · next h => cases h; exact absurd hc (by decide)
  · rfl

theorem readInt_decimal (n : ℕ) {rest : Bytes} (h : Ends rest) :
    readInt (decimal n ++ rest) = some ((n : ℤ), rest) := by
  have hm := magnitude_decimal n h
  cases hd : decimal n with
  | nil => exact absurd hd (decimal_ne_nil n)
  | cons d ds =>
      have hdig : d.isDigit := isDigit_of_mem_decimal (hd ▸ List.mem_cons_self)
      rw [hd, List.cons_append] at hm
      rw [List.cons_append, readInt_digit hdig, hm, Option.map_some]

theorem readInt_signed (l : ℤ) {rest : Bytes} (h : Ends rest) : readInt (signed l ++ rest) = some (l, rest) := by
  cases l with
  | ofNat n => exact readInt_decimal n h
  | negSucc n =>
      have hspace : ('-' :: (decimal (n + 1) ++ rest)).dropWhile isSpace = '-' :: (decimal (n + 1) ++ rest) := by
        simp [isSpace]
      show readInt ('-' :: (decimal (n + 1) ++ rest)) = _
      rw [readInt, hspace]
      show (magnitude _).map _ = _
      rw [magnitude_decimal (n + 1) h, Option.map_some]
      rfl

/-- A number that fits is read back as it was printed. -/
theorem strtol_decimal {bits n : ℕ} (hn : n < 2 ^ (bits - 1)) {rest : Bytes} (h : Ends rest) :
    strtol bits (decimal n ++ rest) = some (n : ℤ) := by
  have hhi : (n : ℤ) < 2 ^ (bits - 1) := by exact_mod_cast hn
  have hlo : -2 ^ (bits - 1) ≤ (n : ℤ) :=
    (Int.neg_nonpos_of_nonneg (by positivity)).trans (Int.natCast_nonneg n)
  rw [strtol, readInt_decimal n h, Option.map_some, clampLong_of_lt hlo hhi]

/-! ## Printed pieces the search runs over -/

/-- Nothing in `s` is the start of an occurrence of `pat`, whatever follows `s`. -/
def Avoids (pat s : Bytes) : Prop := ∀ t ∈ s.tails, t = [] ∨ ¬pat <+: t ∧ ¬t <+: pat

instance (pat s : Bytes) : Decidable (Avoids pat s) :=
  inferInstanceAs (Decidable (∀ t ∈ s.tails, _))

theorem behind_avoids {pat s : Bytes} (h : Avoids pat s) (rest : Bytes) :
    behind pat (s ++ rest) = behind pat rest := by
  induction s with
  | nil => rfl
  | cons c s ih =>
      obtain ⟨hhere, hs⟩ := List.forall_mem_cons.mp h
      obtain ⟨hpat, hshort⟩ := hhere.resolve_left (List.cons_ne_nil c s)
      have hno : pat.isPrefixOf (c :: (s ++ rest)) = false := by
        rw [Bool.eq_false_iff, ne_eq, List.isPrefixOf_iff_prefix]
        intro hpre
        have hself : c :: s <+: c :: (s ++ rest) := ⟨rest, rfl⟩
        exact (List.prefix_or_prefix_of_prefix hpre hself).elim hpat hshort
      rw [List.cons_append, behind, hno, if_neg Bool.false_ne_true]
      exact ih hs

/-- A value without the first character of the pattern. -/
theorem avoids_of_notMem {c : Char} (pat : Bytes) {s : Bytes} (h : c ∉ s) : Avoids (c :: pat) s := by
  induction s with
  | nil =>
      intro t ht
      exact .inl (List.mem_singleton.mp ht)
  | cons d s ih =>
      rw [List.mem_cons, not_or] at h
      refine List.forall_mem_cons.mpr ⟨.inr ⟨?_, ?_⟩, ih h.2⟩
      · exact fun hpre => h.1 (List.cons_prefix_cons.mp hpre).1
      · exact fun hpre => h.1 (List.cons_prefix_cons.mp hpre).1.symm

/-- The search runs over any number of printed fields. -/
theorem behind_printf {pat : Bytes} {args : List (Bytes × Bytes)}
    (h : ∀ a ∈ args, Avoids pat a.1 ∧ Avoids pat a.2) (tail : Bytes) :
    behind pat (printf args tail) = behind pat tail := by
  induction args with
  | nil => rfl
  | cons a args ih =>
      obtain ⟨⟨hpiece, hvalue⟩, hargs⟩ := List.forall_mem_cons.mp h
      rw [printf, behind_avoids hpiece, behind_avoids hvalue, ih hargs]

end Waybeam.Text
