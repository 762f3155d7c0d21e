/-
# `Waybeam.Strtod` — the number at the start of a text

`strtod` in the C locale: spaces, a sign, and then one of

    1.5e3                       decimal digits, a power of ten
    0x1.8p3                     hexadecimal digits, a power of two
    inf  infinity  nan  nan(..) in any case

A `double` is an exact rational here, or what is no number.
-/
import Mathlib.Data.Rat.Cast.Defs
import Mathlib.Tactic.NormNum
import Waybeam.Text

namespace Waybeam.Text

/-- A `double`. -/
inductive Dbl where
  | fin (q : ℚ)
  | inf (negative : Bool)
  | nan
  deriving DecidableEq

namespace Dbl

/-- `a < b`; nothing is less or greater than a NaN. -/
def lt : Dbl → Dbl → Bool
  | .fin a, .fin b => a < b
  | .fin _, .inf negative => !negative
  | .inf negative, .fin _ => negative
  | .inf negative, .inf negative' => negative && !negative'
  | _, _ => false

def neg : Dbl → Dbl
  | .fin q => .fin (-q)
  | .inf negative => .inf !negative
  | .nan => .nan

def add : Dbl → Dbl → Dbl
  | .fin a, .fin b => .fin (a + b)
  | .fin _, .inf negative => .inf negative
  | .inf negative, .fin _ => .inf negative
  | .inf negative, .inf negative' => if negative = negative' then .inf negative else .nan
  | _, _ => .nan

def sub (a b : Dbl) : Dbl := a.add b.neg

/-- The quotient by a count that is not zero. -/
def divCount : Dbl → ℕ → Dbl
  | .fin q, n => .fin (q / n)
  | d, _ => d

end Dbl

/-! ## Parts of a number -/

/-- A hexadecimal digit. -/
def hexValue (c : Char) : Option ℕ :=
  if c.isDigit then some (c.toNat - '0'.toNat)
  else if 'a' ≤ c ∧ c ≤ 'f' then some (c.toNat - 'a'.toNat + 10)
  else if 'A' ≤ c ∧ c ≤ 'F' then some (c.toNat - 'A'.toNat + 10)
  else none

/-- The hexadecimal digits at the start, read as a number, and what follows. -/
def hexMagnitude (s : Bytes) : Option (ℕ × Bytes) :=
  match s.takeWhile fun c => (hexValue c).isSome with
  | [] => none
  | ds => some (ds.foldl (fun n c => 16 * n + (hexValue c).getD 0) 0, s.drop ds.length)

/-- Digits with a point among them, before them or behind them. -/
def mantissa (read : Bytes → Option (ℕ × Bytes)) (base : ℚ) (s : Bytes) : Option (ℚ × Bytes) :=
  match read s with
  | some (n, '.' :: s) =>
      match read s with
      | some (f, rest) => some (n + f / base ^ (s.length - rest.length), rest)
      | none => some (n, s)
  | some (n, rest) => some (n, rest)
  | none =>
      match s with
      | '.' :: s => (read s).map fun r => (r.1 / base ^ (s.length - r.2.length), r.2)
      | _ => none

/-- An exponent, if there is a whole one. -/
def power (mark : Char) (s : Bytes) : ℤ × Bytes :=
  match s with
  | c :: t =>
      if c.toLower = mark then
        let signed : Option (ℤ × Bytes) := match t with
          | '-' :: t => (magnitude t).map fun r => (-r.1, r.2)
          | '+' :: t => (magnitude t).map fun r => (r.1, r.2)
          | t => (magnitude t).map fun r => (r.1, r.2)
        signed.getD (0, s)
      else (0, s)
  | [] => (0, [])

/-- `inf`, `infinity`, `nan` and `nan(..)`. -/
def special (s : Bytes) : Option (Dbl × Bytes) :=
  let lower := s.map Char.toLower
  if "infinity".toList.isPrefixOf lower then some (.inf false, s.drop 8)
  else if "inf".toList.isPrefixOf lower then some (.inf false, s.drop 3)
  else if "nan".toList.isPrefixOf lower then
    match s.drop 3 with
    | '(' :: t =>
        match t.dropWhile fun c => c.isAlphanum || c = '_' with
        | ')' :: rest => some (.nan, rest)
        | _ => some (.nan, s.drop 3)
    | rest => some (.nan, rest)
  else none

/-- A number without its sign. -/
def unsignedDbl (s : Bytes) : Option (Dbl × Bytes) :=
  let decimals := (mantissa magnitude 10 s).map fun r =>
    (.fin (r.1 * 10 ^ (power 'e' r.2).1), (power 'e' r.2).2)
  match special s with
  | some r => some r
  | none =>
      match s with
      | '0' :: x :: t =>
          if x.toLower = 'x' then
            match mantissa hexMagnitude 16 t with
            | some r => some (.fin (r.1 * 2 ^ (power 'p' r.2).1), (power 'p' r.2).2)
            | none => some (.fin 0, x :: t)
          else decimals
      | _ => decimals

/-- `strtod(p, &end)`; `none` where it leaves `end == p`. -/
def strtod (s : Bytes) : Option (Dbl × Bytes) :=
  match s.dropWhile isSpace with
  | '-' :: s => (unsignedDbl s).map fun r => (r.1.neg, r.2)
  | '+' :: s => unsignedDbl s
  | s => unsignedDbl s

/-! ## Whole numbers -/

theorem toLower_of_isDigit {c : Char} (h : c.isDigit) : c.toLower = c := by
  have hupper : ¬(c.val ≥ 'A'.val ∧ c.val ≤ 'Z'.val) := by
    intro hup
    simp only [Char.isDigit, Bool.and_eq_true, decide_eq_true_eq, UInt32.le_iff_toNat_le, ge_iff_le] at h hup
    exact absurd (hup.1.trans h.2) (by decide)
  exact dif_neg hupper

/-- No digit starts a word. -/
theorem special_digit {c : Char} (hc : c.isDigit) (s : Bytes) : special (c :: s) = none := by
  have hhead : ∀ {w : Char} (ws : Bytes), w.isDigit = false →
      (w :: ws).isPrefixOf ((c :: s).map Char.toLower) = false := by
    intro w ws hw
    have hne : (w == c) = false := by
      rw [beq_eq_false_iff_ne]
      rintro rfl
      exact Bool.false_ne_true (hw.symm.trans hc)
    rw [List.map_cons, toLower_of_isDigit hc, List.isPrefixOf_cons_cons, hne, Bool.false_and]
  have hinfinity : "infinity".toList = 'i' :: "nfinity".toList := rfl
  have hinf : "inf".toList = 'i' :: "nf".toList := rfl
  have hnan : "nan".toList = 'n' :: "an".toList := rfl
  rw [special, hinfinity, hinf, hnan]
  simp only [hhead _ (by decide : 'i'.isDigit = false), hhead _ (by decide : 'n'.isDigit = false),
    Bool.false_eq_true, if_false]

theorem unsignedDbl_decimal (n : ℕ) : unsignedDbl (decimal n) = some (.fin n, []) := by
  have hmag : magnitude (decimal n ++ []) = some (n, []) := magnitude_decimal n (by intro c hc; cases hc)
  rw [List.append_nil] at hmag
  have hmant : (mantissa magnitude 10 (decimal n)).map
      (fun r => (Dbl.fin (r.1 * 10 ^ (power 'e' r.2).1), (power 'e' r.2).2)) = some (.fin n, []) := by
    unfold mantissa
    rw [hmag]
    show some (Dbl.fin (n * 10 ^ (0 : ℤ)), []) = _
    rw [zpow_zero, mul_one]
  cases hd : decimal n with
  | nil => exact absurd hd (decimal_ne_nil n)
  | cons c s =>
      have hdigit : ∀ d ∈ c :: s, d.isDigit = true := fun d hmem =>
        isDigit_of_mem_decimal (hd.symm ▸ hmem : d ∈ decimal n)
      rw [hd] at hmant
      unfold unsignedDbl
      rw [special_digit (hdigit c List.mem_cons_self)]
      dsimp only
      split
      · next x t heq =>
          have hx : x.isDigit := hdigit x (heq ▸ List.mem_cons_of_mem _ List.mem_cons_self)
          have hno : ¬x.toLower = 'x' := by
            rw [toLower_of_isDigit hx]
            rintro rfl
            exact absurd hx (by decide)
          rw [if_neg hno]
          exact hmant
      · exact hmant

/-- A whole number is read back as it was printed. -/
theorem strtod_signed (l : ℤ) : strtod (signed l) = some (.fin l, []) := by
  cases l with
  | ofNat n =>
      have hread := unsignedDbl_decimal n
      show strtod (decimal n) = _
      cases hd : decimal n with
      | nil => exact absurd hd (decimal_ne_nil n)
      | cons c s =>
          have hdig : c.isDigit := isDigit_of_mem_decimal (hd ▸ List.mem_cons_self)
          have hspace : (c :: s).dropWhile isSpace = c :: s := by simp [isSpace_of_isDigit hdig]
          rw [hd] at hread
          rw [strtod, hspace]
          split
          · next h => cases h; exact absurd hdig (by decide)
          · next h => cases h; exact absurd hdig (by decide)
          · rw [hread]
            rfl
  | negSucc n =>
      have hspace : ('-' :: decimal (n + 1)).dropWhile isSpace = '-' :: decimal (n + 1) := by simp [isSpace]
      show strtod ('-' :: decimal (n + 1)) = _
      rw [strtod, hspace]
      show (unsignedDbl (decimal (n + 1))).map _ = _
      rw [unsignedDbl_decimal, Option.map_some]
      have hneg : (Dbl.fin ((n + 1 : ℕ) : ℚ)).neg = .fin (Int.negSucc n : ℤ) := by
        rw [Dbl.neg, Int.cast_negSucc]
      rw [hneg]

example : strtod " -1.5e2x".toList = some (.fin (-150), ['x']) := by decide +kernel

end Waybeam.Text
