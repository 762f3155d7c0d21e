/-
# `Waybeam.Text` — C strings and decimal numbers

Both daemons print with `snprintf` and read back with `strtol` and `strstr`.  A byte string
is a list of characters below 256; a C string ends at its first NUL:

    "%s"            up to the NUL                            `cstr`
    "%u"            decimal digits                           `decimal`
    "%d"            the same with a sign                     `signed`
    snprintf        pieces and what stands between them      `printf`
    strtoll(p,&e)   spaces, a sign, digits; clamps           `strtoll`

Reading back what was printed gives the number, whatever follows it that is no digit
(`strtoll_signed`).
-/
import Mathlib.Data.List.TakeWhile
import Mathlib.Tactic.Linarith

namespace Waybeam

/-- A string of bytes. -/
abbrev Bytes := List Char

namespace Text

/-- Of a text only the characters that are in it are looked at, never all that there are. -/
instance (priority := high) (s : Bytes) (p : Char → Prop) [DecidablePred p] :
    Decidable (∀ c ∈ s, p c) :=
  List.decidableBAll p s

instance (priority := high) : LawfulBEq Bytes := inferInstanceAs (LawfulBEq (List Char))

/-- What a C string function sees of a buffer. -/
def cstr (s : Bytes) : Bytes := s.takeWhile (· ≠ '\x00')

/-- `snprintf` into a buffer with room for `n` characters. -/
def fit (n : ℕ) (s : Bytes) : Bytes := (cstr s).take n

/-- `isspace`. -/
def isSpace (c : Char) : Bool :=
  c = ' ' || c = '\t' || c = '\n' || c = '\x0b' || c = '\x0c' || c = '\r'

/-- `"%u"` -/
def decimal (n : ℕ) : Bytes := Nat.toDigits 10 n

/-- `"%d"` -/
def signed : ℤ → Bytes
  | .ofNat n => decimal n
  | .negSucc n => '-' :: decimal (n + 1)

/-- A format string cut at its arguments: each piece with what is printed behind it, and the
last piece. -/
def printf : List (Bytes × Bytes) → Bytes → Bytes
  | [], last => last
  | (piece, value) :: args, last => piece ++ (value ++ printf args last)

/-- The range of `long long`. -/
def InI64 (l : ℤ) : Prop := -2 ^ 63 ≤ l ∧ l < 2 ^ 63

instance (l : ℤ) : Decidable (InI64 l) := inferInstanceAs (Decidable (_ ∧ _))

/-- What `strtoll` makes of a number out of range. -/
def saturate (l : ℤ) : ℤ := max (-2 ^ 63) (min l (2 ^ 63 - 1))

/-- The digits at the start of a string, read as a number, and what follows. -/
def magnitude (s : Bytes) : Option (ℕ × Bytes) :=
  match s.takeWhile Char.isDigit with
  | [] => none
  | d :: ds => some (Nat.ofDigitChars 10 (d :: ds) 0, s.dropWhile Char.isDigit)

/-- `strtoll(p, &end, 10)`; `none` where it leaves `end == p`. -/
def strtoll (s : Bytes) : Option (ℤ × Bytes) :=
  match s.dropWhile isSpace with
  | '-' :: s => (magnitude s).map fun r => (saturate (-r.1), r.2)
  | '+' :: s => (magnitude s).map fun r => (saturate r.1, r.2)
  | s => (magnitude s).map fun r => (saturate r.1, r.2)

theorem printf_append (args args' : List (Bytes × Bytes)) (last : Bytes) :
    printf (args ++ args') last = printf args (printf args' last) := by
  induction args with
  | nil => rfl
  | cons a args ih => simp only [List.cons_append, printf, ih]

theorem notMem_printf {c : Char} {args : List (Bytes × Bytes)} {last : Bytes}
    (h : ∀ a ∈ args, c ∉ a.1 ∧ c ∉ a.2) (hlast : c ∉ last) : c ∉ printf args last := by
  induction args with
  | nil => exact hlast
  | cons a args ih =>
      obtain ⟨⟨hpiece, hvalue⟩, hrest⟩ := List.forall_mem_cons.mp h
      simp only [printf, List.mem_append, not_or]
      exact ⟨hpiece, hvalue, ih hrest⟩

/-! ## Runs of characters -/

section Runs

variable {p : Char → Bool} {s rest : Bytes}

/-- A run of characters of one class ends where the class does. -/
theorem takeWhile_run (h : ∀ c ∈ s, p c) (hr : ∀ c ∈ rest.head?, p c = false) :
    (s ++ rest).takeWhile p = s := by
  rw [List.takeWhile_append_of_pos h]
  cases rest with
  | nil => simp
  | cons c rest => simp [hr c rfl]

theorem dropWhile_run (h : ∀ c ∈ s, p c) (hr : ∀ c ∈ rest.head?, p c = false) :
    (s ++ rest).dropWhile p = rest := by
  rw [List.dropWhile_append_of_pos h]
  cases rest with
  | nil => rfl
  | cons c rest => simp [hr c rfl]

/-- A run that may end on its own ends at the stop at the latest. -/
theorem takeWhile_stop {c : Char} (h : p c = false) :
    (s ++ c :: rest).takeWhile p = s.takeWhile p := by
  induction s with
  | nil => simp [h]
  | cons d s ih => rw [List.cons_append, List.takeWhile_cons, List.takeWhile_cons, ih]

end Runs

/-! ## Reading back what was printed -/

theorem saturate_of_inI64 {l : ℤ} (h : InI64 l) : saturate l = l := by
  obtain ⟨h0, h1⟩ := h
  simp only [saturate]
  omega

theorem cstr_of_free {s : Bytes} (h : '\x00' ∉ s) : cstr s = s :=
  List.takeWhile_eq_self_iff.mpr fun c hc => by
    have : c ≠ '\x00' := fun h0 => h (h0 ▸ hc)
    simpa using this

theorem nul_notMem_cstr (s : Bytes) : '\x00' ∉ cstr s := by
  intro h
  have hne := List.mem_takeWhile_imp h
  simp at hne

theorem isDigit_of_mem_decimal {n : ℕ} {c : Char} (h : c ∈ decimal n) : c.isDigit :=
  Nat.isDigit_of_mem_toDigits (by decide) (by decide) h

theorem decimal_ne_nil (n : ℕ) : decimal n ≠ [] := Nat.toDigits_ne_nil

/-- The rest of a string does not go on with a digit. -/
def Ends (rest : Bytes) : Prop := ∀ c ∈ rest.head?, c.isDigit = false

theorem ends_cons {c : Char} {rest : Bytes} (h : c.isDigit = false) : Ends (c :: rest) := by
  intro d hd
  cases hd
  exact h

theorem magnitude_decimal (n : ℕ) {rest : Bytes} (h : Ends rest) :
    magnitude (decimal n ++ rest) = some (n, rest) := by
  have hall : ∀ c ∈ decimal n, c.isDigit = true := fun c hc => isDigit_of_mem_decimal hc
  rw [magnitude, takeWhile_run hall h, dropWhile_run hall h]
  have hval : Nat.ofDigitChars 10 (decimal n) 0 = n := Nat.ofDigitChars_ten_toDigits
  cases hd : decimal n with
  | nil => exact absurd hd (decimal_ne_nil n)
  | cons d ds =>
      rw [hd] at hval
      show some (Nat.ofDigitChars 10 (d :: ds) 0, rest) = _
      rw [hval]

theorem isSpace_of_isDigit {c : Char} (h : c.isDigit) : isSpace c = false := by
  rw [Bool.eq_false_iff]
  intro hs
  simp only [isSpace, Bool.or_eq_true, decide_eq_true_eq] at hs
  rcases hs with ((((rfl | rfl) | rfl) | rfl) | rfl) | rfl <;> exact absurd h (by decide)

/-- A number that starts with a digit is read as it stands. -/
theorem strtoll_digit {c : Char} (hc : c.isDigit) (s : Bytes) :
    strtoll (c :: s) = (magnitude (c :: s)).map fun r => (saturate r.1, r.2) := by
  have hs : (c :: s).dropWhile isSpace = c :: s := by simp [isSpace_of_isDigit hc]
  rw [strtoll, hs]
  split
  · next h => cases h; exact absurd hc (by decide)
  · next h => cases h; exact absurd hc (by decide)
  · rfl

/-- Spaces in front make no difference. -/
theorem strtoll_dropSpaces (s : Bytes) : strtoll (s.dropWhile (· = ' ')) = strtoll s := by
  have h : (s.dropWhile (· = ' ')).dropWhile isSpace = s.dropWhile isSpace := by
    induction s with
    | nil => rfl
    | cons c s ih =>
        by_cases hc : c = ' '
        · simpa [hc, isSpace] using ih
        · simp [hc]
  simp only [strtoll, h]

theorem strtoll_decimal (n : ℕ) {rest : Bytes} (hn : InI64 n) (h : Ends rest) :
    strtoll (decimal n ++ rest) = some ((n : ℤ), rest) := by
  have hm := magnitude_decimal n h
  cases hd : decimal n with
  | nil => exact absurd hd (decimal_ne_nil n)
  | cons d ds =>
      have hdig : d.isDigit := isDigit_of_mem_decimal (hd ▸ List.mem_cons_self)
      rw [hd, List.cons_append] at hm
      rw [List.cons_append, strtoll_digit hdig, hm, Option.map_some, saturate_of_inI64 hn]

theorem strtoll_signed (l : ℤ) {rest : Bytes} (hl : InI64 l) (h : Ends rest) :
    strtoll (signed l ++ rest) = some (l, rest) := by
  cases l with
  | ofNat n => exact strtoll_decimal n hl h
  | negSucc n =>
      show strtoll ('-' :: (decimal (n + 1) ++ rest)) = _
      have hs : ('-' :: (decimal (n + 1) ++ rest)).dropWhile isSpace
          = '-' :: (decimal (n + 1) ++ rest) := by simp [isSpace]
      rw [strtoll, hs]
      show (magnitude _).map _ = _
      have hneg : -((n + 1 : ℕ) : ℤ) = Int.negSucc n := rfl
      rw [magnitude_decimal (n + 1) h, Option.map_some, hneg, saturate_of_inI64 hl]

end Text

end Waybeam
