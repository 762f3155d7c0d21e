/-
# `Waybeam.Multicall.Keyseed` — a key that is typed in

A key is 64 bytes, entered as 128 hexadecimal digits with blanks around them.  The reader hands two
characters at a time to `strtol`, which has a grammar of its own: in front of the digits it takes
blanks and a sign, so that one digit is enough.

    "a7"    0xa7
    " 7"    7         and no hexadecimal digit in the first place
    "+7"    7
    "-0"    0
    "0x"    ends before the x
-/
import Mathlib.Data.List.DropRight
import Mathlib.Tactic.IntervalCases
import Waybeam.Text

namespace Waybeam

namespace Text

/-! ## Base 16 -/

/-- The value of a hexadecimal digit. -/
def xdigit (c : Char) : Option ℕ :=
  if c.isDigit then some (c.toNat - '0'.toNat)
  else if 'a' ≤ c ∧ c ≤ 'f' then some (c.toNat - 'a'.toNat + 10)
  else if 'A' ≤ c ∧ c ≤ 'F' then some (c.toNat - 'A'.toNat + 10)
  else none

/-- `isxdigit` -/
def isXdigit (c : Char) : Bool := (xdigit c).isSome

/-- The number a text of digits stands for. -/
def ofXdigits (s : Bytes) : ℕ := s.foldl (fun v c => 16 * v + (xdigit c).getD 0) 0

/-- A `0x` is passed over where a digit comes behind it. -/
def dropPrefix16 : Bytes → Bytes
  | '0' :: x :: c :: s => if (x = 'x' ∨ x = 'X') ∧ isXdigit c then c :: s else '0' :: x :: c :: s
  | s => s

/-- The digits at the start of a string, read as a number, and what follows. -/
def magnitude16 (s : Bytes) : Option (ℕ × Bytes) :=
  match (dropPrefix16 s).takeWhile isXdigit with
  | [] => none
  | d :: ds => some (ofXdigits (d :: ds), (dropPrefix16 s).dropWhile isXdigit)

/-- `strtol(p, &end, 16)` of a short string; `none` where it leaves `end == p`. -/
def readInt16 (s : Bytes) : Option (ℤ × Bytes) :=
  match s.dropWhile isSpace with
  | '-' :: s => (magnitude16 s).map fun r => (-r.1, r.2)
  | '+' :: s => (magnitude16 s).map fun r => (r.1, r.2)
  | s => (magnitude16 s).map fun r => (r.1, r.2)

/-- `"%02x"` of each byte. -/
def hexBytes (bs : List UInt8) : Bytes :=
  bs.flatMap fun b => [Nat.digitChar (b.toNat / 16), Nat.digitChar (b.toNat % 16)]

/-- The hexadecimal digits are these. -/
theorem mem_of_isXdigit {c : Char} (h : isXdigit c) : c ∈ "0123456789abcdefABCDEF".toList := by
  have hrange : (48 ≤ c.toNat ∧ c.toNat ≤ 57) ∨ (97 ≤ c.toNat ∧ c.toNat ≤ 102) ∨
      (65 ≤ c.toNat ∧ c.toNat ≤ 70) := by
    rw [isXdigit, xdigit] at h
    split_ifs at h with hdec hlow hup
    · simp only [Char.isDigit, Bool.and_eq_true, decide_eq_true_eq] at hdec
      exact .inl hdec
    · exact .inr (.inl hlow)
    · exact .inr (.inr hup)
    · cases h
  rw [← Char.ofNat_toNat c]
  generalize c.toNat = n at hrange
  rcases hrange with h | h | h
  all_goals
    obtain ⟨hlo, hhi⟩ := h
    interval_cases n <;> decide

/-- A digit is printed back in lower case. -/
theorem xdigit_spec {c : Char} (h : isXdigit c) :
    ∃ x < 16, xdigit c = some x ∧ Nat.digitChar x = c.toLower := by
  have hall : ∀ c ∈ "0123456789abcdefABCDEF".toList,
      ∃ x < 16, xdigit c = some x ∧ Nat.digitChar x = c.toLower := by decide
  exact hall c (mem_of_isXdigit h)

theorem not_space_of_isXdigit {c : Char} (h : isXdigit c) : isSpace c = false ∧ c ≠ '-' ∧ c ≠ '+' := by
  have hall : ∀ c ∈ "0123456789abcdefABCDEF".toList, isSpace c = false ∧ c ≠ '-' ∧ c ≠ '+' := by decide
  exact hall c (mem_of_isXdigit h)

/-! ### Two characters -/

theorem magnitude16_one (b : Char) :
    magnitude16 [b] = (xdigit b).map fun y => (y, []) := by
  have hsame : dropPrefix16 [b] = [b] := by
    unfold dropPrefix16
    split
    · next h => cases h
    · rfl
  rw [magnitude16, hsame]
  cases hb : xdigit b with
  | none =>
      have hno : isXdigit b = false := by rw [isXdigit, hb]; rfl
      simp [hno]
  | some y =>
      have hyes : isXdigit b = true := by rw [isXdigit, hb]; rfl
      simp [hyes, ofXdigits, hb]

theorem magnitude16_two (a b : Char) :
    magnitude16 [a, b] = (xdigit a).map fun x =>
      match xdigit b with
      | some y => (16 * x + y, [])
      | none => (x, [b]) := by
  have hsame : dropPrefix16 [a, b] = [a, b] := by
    unfold dropPrefix16
    split
    · next h => cases h
    · rfl
  rw [magnitude16, hsame]
  cases ha : xdigit a with
  | none =>
      have hno : isXdigit a = false := by rw [isXdigit, ha]; rfl
      simp [hno]
  | some x =>
      have hyes : isXdigit a = true := by rw [isXdigit, ha]; rfl
      cases hb : xdigit b with
      | none =>
          have hno : isXdigit b = false := by rw [isXdigit, hb]; rfl
          simp [hyes, hno, ofXdigits, ha]
      | some y =>
          have hyes' : isXdigit b = true := by rw [isXdigit, hb]; rfl
          simp [hyes, hyes', ofXdigits, ha, hb]

end Text

namespace Multicall

open Text

/-! ## The reader -/

/-- What is passed over around a key. -/
def isBlank (c : Char) : Bool := c = ' ' || c = '\t' || c = '\n' || c = '\r'

/-- The loop over pairs of characters, for so many bytes: what it stored, and what is left. -/
def keyLoop : ℕ → Bytes → Option (List UInt8 × Bytes)
  | room + 1, a :: b :: hex =>
      match readInt16 [a, b] with
      | some (v, []) =>
          if v < 0 ∨ 255 < v then none
          else (keyLoop room hex).map fun r => (UInt8.ofNat v.toNat :: r.1, r.2)
      | _ => none
  | _, hex => some ([], hex)

/-- `wfb_hex_to_key`; `none` where it returns -1. -/
def wfbHexToKey (hex : Bytes) : Option (List UInt8) :=
  match keyLoop 64 ((cstr hex).dropWhile isBlank) with
  | none => none
  | some (out, hex) => if out.length ≠ 64 ∨ hex.dropWhile isBlank ≠ [] then none else some out

/-! ## What a key is -/

/-- A text without the blanks around it. -/
def trim (s : Bytes) : Bytes := (s.dropWhile isBlank).rdropWhile isBlank

/-- 128 hexadecimal digits. -/
def IsKey (s : Bytes) : Prop := s.length = 128 ∧ ∀ c ∈ s, isXdigit c

instance (s : Bytes) : Decidable (IsKey s) := inferInstanceAs (Decidable (_ ∧ _))

/-- Exactly the keys are accepted, and read for what they are. -/
structure KeyRead (hex : Bytes) : Prop where
  accepted : (wfbHexToKey hex).isSome ↔ IsKey (trim (cstr hex))
  bytes : ∀ out ∈ wfbHexToKey hex,
    out.length = 64 ∧ hexBytes out = (trim (cstr hex)).map Char.toLower

/-! ## Pairs of characters -/

/-- The byte that is read from two characters. -/
def pairByte (a b : Char) : Option UInt8 :=
  match readInt16 [a, b] with
  | some (v, []) => if v < 0 ∨ 255 < v then none else some (UInt8.ofNat v.toNat)
  | _ => none

theorem pairByte_def (a b : Char) : pairByte a b = match readInt16 [a, b] with
    | some (v, []) => if v < 0 ∨ 255 < v then none else some (UInt8.ofNat v.toNat)
    | _ => none := rfl

theorem keyLoop_pair (room : ℕ) (a b : Char) (hex : Bytes) :
    keyLoop (room + 1) (a :: b :: hex) =
      (pairByte a b).bind fun v => (keyLoop room hex).map fun r => (v :: r.1, r.2) := by
  have hstep : keyLoop (room + 1) (a :: b :: hex) = match readInt16 [a, b] with
      | some (v, []) =>
          if v < 0 ∨ 255 < v then none
          else (keyLoop room hex).map fun r => (UInt8.ofNat v.toNat :: r.1, r.2)
      | _ => none := rfl
  rw [hstep, pairByte_def]
  split
  · split_ifs <;> rfl
  · rfl

theorem keyLoop_zero (hex : Bytes) : keyLoop 0 hex = some ([], hex) := rfl

/-- One digit behind a blank or a plus sign, or a zero behind a minus sign. -/
def loose (a b : Char) : Bool := isXdigit b && (isSpace a || a = '+') || (a = '-' && b = '0')

/-- Two digits are the byte whose digits they are. -/
theorem pairByte_digits {a b : Char} (ha : isXdigit a) (hb : isXdigit b) :
    ∃ v : UInt8, pairByte a b = some v ∧ hexBytes [v] = [a.toLower, b.toLower] := by
  obtain ⟨x, hx, hxa, hlowa⟩ := xdigit_spec ha
  obtain ⟨y, hy, hyb, hlowb⟩ := xdigit_spec hb
  obtain ⟨hspace, hminus, hplus⟩ := not_space_of_isXdigit ha
  have hread : readInt16 [a, b] = some (((16 * x + y : ℕ) : ℤ), []) := by
    have hs : [a, b].dropWhile isSpace = [a, b] := by rw [List.dropWhile_cons_of_neg (by simp [hspace])]
    rw [readInt16, hs]
    split
    · next h => cases h; exact absurd rfl hminus
    · next h => cases h; exact absurd rfl hplus
    · rw [magnitude16_two, hxa, hyb]
      rfl
  refine ⟨UInt8.ofNat (16 * x + y), ?_, ?_⟩
  · rw [pairByte_def, hread]
    exact if_neg (by omega)
  · have hval : (UInt8.ofNat (16 * x + y)).toNat = 16 * x + y :=
      UInt8.toNat_ofNat_of_lt' (by show 16 * x + y < 256; omega)
    have hhi : (16 * x + y) / 16 = x := by omega
    have hlo : (16 * x + y) % 16 = y := by omega
    rw [hexBytes, List.flatMap_cons, List.flatMap_nil, List.append_nil, hval, hhi, hlo, hlowa, hlowb]

theorem xdigit_eq_none {c : Char} (h : isXdigit c = false) : xdigit c = none :=
  Option.not_isSome_iff_eq_none.mp (Bool.eq_false_iff.mp h)

/-- A text of one character is a number if it is a digit. -/
theorem readInt16_one (b : Char) : readInt16 [b] = (xdigit b).map fun y : ℕ => ((y : ℤ), []) := by
  by_cases hdig : isXdigit b = true
  · obtain ⟨hspace, hminus, hplus⟩ := not_space_of_isXdigit hdig
    have hs : [b].dropWhile isSpace = [b] := by rw [List.dropWhile_cons_of_neg (by simp [hspace])]
    rw [readInt16, hs]
    split
    · next h => cases h; exact absurd rfl hminus
    · next h => cases h; exact absurd rfl hplus
    · rw [magnitude16_one, Option.map_map]
      rfl
  · rw [xdigit_eq_none (Bool.eq_false_iff.mpr hdig), readInt16]
    by_cases hspace : isSpace b = true
    · rw [List.dropWhile_cons_of_pos hspace]
      rfl
    · rw [List.dropWhile_cons_of_neg hspace]
      split
      · next h => cases h; rfl
      · next h => cases h; rfl
      · rw [magnitude16_one, xdigit_eq_none (Bool.eq_false_iff.mpr hdig)]
        rfl

theorem pairByte_isSome {a b : Char} {v : Option ℕ} (h : readInt16 [a, b] = v.map fun y : ℕ => ((y : ℤ), []))
    (hv : ∀ y ∈ v, y < 256) : (pairByte a b).isSome = v.isSome := by
  rw [pairByte_def, h]
  cases v with
  | none => rfl
  | some y =>
      have hlt := hv y rfl
      show (if _ then none else some _ : Option UInt8).isSome = true
      rw [if_neg (by omega)]
      rfl

theorem xdigit_lt {c : Char} {y : ℕ} (h : xdigit c = some y) : y < 16 := by
  obtain ⟨y', hlt, hy', -⟩ := xdigit_spec (c := c) (by rw [isXdigit, h]; rfl)
  cases h.symm.trans hy'
  exact hlt

theorem xdigit_eq_zero {c : Char} : xdigit c = some 0 ↔ c = '0' := by
  have hall : ∀ c ∈ "0123456789abcdefABCDEF".toList, xdigit c = some 0 → c = '0' := by decide
  constructor
  · intro h
    exact hall c (mem_of_isXdigit (by rw [isXdigit, h]; rfl)) h
  · rintro rfl
    rfl

/-- Without a digit in front, one digit is enough behind a blank or a sign. -/
theorem xdigit_small {b : Char} : ∀ y ∈ xdigit b, y < 256 :=
  fun _ hy => (xdigit_lt hy).trans (by decide)

theorem pairByte_blank {a b : Char} (ha : isSpace a = true) :
    (pairByte a b).isSome = (xdigit b).isSome := by
  have hread : readInt16 [a, b] = (xdigit b).map fun y : ℕ => ((y : ℤ), []) := by
    rw [← readInt16_one, readInt16, List.dropWhile_cons_of_pos ha]
    rfl
  exact pairByte_isSome hread xdigit_small

theorem pairByte_plus (b : Char) : (pairByte '+' b).isSome = (xdigit b).isSome := by
  have hread : readInt16 ['+', b] = (xdigit b).map fun y : ℕ => ((y : ℤ), []) := by
    show (magnitude16 [b]).map _ = _
    rw [magnitude16_one, Option.map_map]
    rfl
  exact pairByte_isSome hread xdigit_small

/-- Behind a minus only a zero is no negative number. -/
theorem pairByte_minus (b : Char) : (pairByte '-' b).isSome = decide (b = '0') := by
  have hread : readInt16 ['-', b] = (xdigit b).map fun y : ℕ => (-(y : ℤ), []) := by
    show (magnitude16 [b]).map _ = _
    rw [magnitude16_one, Option.map_map]
    rfl
  rw [pairByte_def, hread]
  cases hb : xdigit b with
  | none =>
      have hne : b ≠ '0' := by
        rintro rfl
        cases hb
      rw [decide_eq_false hne]
      rfl
  | some y =>
      have hlt := xdigit_lt hb
      show (if _ then none else some _ : Option UInt8).isSome = _
      by_cases hzero : y = 0
      · subst hzero
        rw [if_neg (by omega), decide_eq_true (xdigit_eq_zero.mp hb)]
        rfl
      · have hne : b ≠ '0' := fun h => hzero (Option.some.inj (hb.symm.trans (xdigit_eq_zero.mpr h)))
        rw [if_pos (by omega), decide_eq_false hne]
        rfl

theorem pairByte_other {a b : Char} (ha : isXdigit a = false) (hspace : isSpace a = false)
    (hplus : a ≠ '+') (hminus : a ≠ '-') : pairByte a b = none := by
  have hs : [a, b].dropWhile isSpace = [a, b] := List.dropWhile_cons_of_neg (by simp [hspace])
  have hread : readInt16 [a, b] = none := by
    rw [readInt16, hs]
    split
    · next h => cases h; exact absurd rfl hminus
    · next h => cases h; exact absurd rfl hplus
    · rw [magnitude16_two, xdigit_eq_none ha]
      rfl
  rw [pairByte_def, hread]

theorem pairByte_loose {a b : Char} (ha : isXdigit a = false) : (pairByte a b).isSome = loose a b := by
  by_cases hspace : isSpace a = true
  · have hminus : a ≠ '-' := by
      rintro rfl
      exact absurd hspace (by decide)
    rw [pairByte_blank hspace, loose, hspace, decide_eq_false hminus]
    simp [isXdigit]
  · rw [Bool.not_eq_true] at hspace
    by_cases hplus : a = '+'
    · subst hplus
      rw [pairByte_plus]
      simp [loose, isXdigit]
    · by_cases hminus : a = '-'
      · subst hminus
        rw [pairByte_minus]
        simp [loose, hspace]
      · rw [pairByte_other ha hspace hplus hminus, loose, hspace, decide_eq_false hplus,
          decide_eq_false hminus]
        simp

/-- What the reader takes for a pair of digits. -/
theorem pairByte_isSome_eq (a b : Char) :
    (pairByte a b).isSome = (isXdigit a && isXdigit b || loose a b) := by
  cases ha : isXdigit a with
  | false =>
      rw [pairByte_loose ha]
      rfl
  | true =>
      obtain ⟨hspace, hminus, hplus⟩ := not_space_of_isXdigit ha
      have hloose : loose a b = false := by
        rw [loose, hspace, decide_eq_false hminus, decide_eq_false hplus]
        simp
      rw [hloose, Bool.true_and, Bool.or_false]
      cases hb : isXdigit b with
      | true =>
          obtain ⟨v, hv, -⟩ := pairByte_digits ha hb
          rw [hv]
          rfl
      | false =>
          obtain ⟨x, -, hx, -⟩ := xdigit_spec ha
          have hs : [a, b].dropWhile isSpace = [a, b] := by rw [List.dropWhile_cons_of_neg (by simp [hspace])]
          have hread : readInt16 [a, b] = some ((x : ℤ), [b]) := by
            rw [readInt16, hs]
            split
            · next h => cases h; exact absurd rfl hminus
            · next h => cases h; exact absurd rfl hplus
            · rw [magnitude16_two, hx, xdigit_eq_none hb]
              rfl
          rw [pairByte_def, hread]
          rfl

/-- Not a pair of digits, for all that. -/
theorem not_digits_of_loose {a b : Char} (h : loose a b = true) : isXdigit a = false := by
  rw [Bool.eq_false_iff]
  intro ha
  obtain ⟨hspace, hminus, hplus⟩ := not_space_of_isXdigit ha
  rw [loose, hspace, decide_eq_false hminus, decide_eq_false hplus] at h
  simp at h

/-! ## Texts of pairs -/

/-- The characters of pairs. -/
def flat (ps : List (Char × Char)) : Bytes := ps.flatMap fun p => [p.1, p.2]

theorem length_flat (ps : List (Char × Char)) : (flat ps).length = 2 * ps.length := by
  induction ps with
  | nil => rfl
  | cons p ps ih =>
      rw [flat, List.flatMap_cons, List.length_append, List.length_cons]
      rw [flat] at ih
      rw [ih]
      show 2 + 2 * ps.length = 2 * (ps.length + 1)
      omega

theorem exists_flat {n : ℕ} : ∀ {s : Bytes}, s.length = 2 * n → ∃ ps, ps.length = n ∧ s = flat ps := by
  induction n with
  | zero =>
      intro s hs
      exact ⟨[], rfl, List.length_eq_zero_iff.mp hs⟩
  | succ n ih =>
      intro s hs
      match s with
      | [] => cases hs
      | [a] => simp only [List.length_singleton] at hs; omega
      | a :: b :: s =>
          obtain ⟨ps, hlen, rfl⟩ := ih (s := s) (by simp only [List.length_cons] at hs; omega)
          exact ⟨(a, b) :: ps, congrArg (· + 1) hlen, rfl⟩

/-- A loop over all its bytes has read that many pairs. -/
theorem keyLoop_pairs {n : ℕ} : ∀ {hex rest : Bytes} {out : List UInt8},
    keyLoop n hex = some (out, rest) → out.length = n →
      ∃ ps, ps.length = n ∧ hex = flat ps ++ rest ∧ ∀ p ∈ ps, (pairByte p.1 p.2).isSome := by
  induction n with
  | zero =>
      intro hex rest out h _
      rw [keyLoop_zero] at h
      cases h
      exact ⟨[], rfl, rfl, by simp⟩
  | succ n ih =>
      intro hex rest out h hlen
      match hex with
      | [] =>
          cases h
          cases hlen
      | [a] =>
          cases h
          cases hlen
      | a :: b :: hex =>
          rw [keyLoop_pair] at h
          obtain ⟨v, hv, h⟩ := Option.bind_eq_some_iff.mp h
          obtain ⟨⟨out', rest'⟩, hloop, hout⟩ := Option.map_eq_some_iff.mp h
          cases hout
          obtain ⟨ps, hps, rfl, hall⟩ := ih hloop (Nat.succ.inj hlen)
          refine ⟨(a, b) :: ps, congrArg (· + 1) hps, rfl, ?_⟩
          exact List.forall_mem_cons.mpr ⟨Option.isSome_of_mem hv, hall⟩

/-- The loop reads any pairs that are taken. -/
theorem keyLoop_flat (rest : Bytes) {ps : List (Char × Char)} (h : ∀ p ∈ ps, (pairByte p.1 p.2).isSome) :
    ∃ out, out.length = ps.length ∧ keyLoop ps.length (flat ps ++ rest) = some (out, rest) := by
  induction ps with
  | nil => exact ⟨[], rfl, keyLoop_zero _⟩
  | cons p ps ih =>
      obtain ⟨hp, hps⟩ := List.forall_mem_cons.mp h
      obtain ⟨out, hlen, hloop⟩ := ih hps
      obtain ⟨v, hv⟩ := Option.isSome_iff_exists.mp hp
      refine ⟨v :: out, congrArg (· + 1) hlen, ?_⟩
      show keyLoop (ps.length + 1) (p.1 :: p.2 :: (flat ps ++ rest)) = _
      rw [keyLoop_pair, hv, Option.bind_some, hloop]
      rfl

/-- Digits are read as the bytes they write. -/
theorem keyLoop_digits {ps : List (Char × Char)} (h : ∀ c ∈ flat ps, isXdigit c) {rest rest' : Bytes}
    {out : List UInt8} (hloop : keyLoop ps.length (flat ps ++ rest) = some (out, rest')) :
    hexBytes out = (flat ps).map Char.toLower := by
  induction ps generalizing out with
  | nil =>
      rw [List.length_nil, keyLoop_zero] at hloop
      cases hloop
      rfl
  | cons p ps ih =>
      obtain ⟨ha, h⟩ := List.forall_mem_cons.mp h
      obtain ⟨hb, h⟩ := List.forall_mem_cons.mp h
      obtain ⟨v, hv, hbytes⟩ := pairByte_digits ha hb
      have hstep := keyLoop_pair ps.length p.1 p.2 (flat ps ++ rest)
      rw [hv, Option.bind_some] at hstep
      obtain ⟨⟨out', rest''⟩, hloop', hout⟩ := Option.map_eq_some_iff.mp (hstep.symm.trans hloop)
      cases hout
      have htail := ih h hloop'
      show [Nat.digitChar (v.toNat / 16), Nat.digitChar (v.toNat % 16)] ++ hexBytes out' =
        [p.1.toLower, p.2.toLower] ++ (flat ps).map Char.toLower
      rw [htail]
      exact congrArg (· ++ _) hbytes

/-! ## The language of the reader -/

/-- 64 pairs the reader takes, blanks around them, and one of them is not of two digits. -/
def Sloppy (hex : Bytes) : Prop :=
  ∃ ps rest, ps.length = 64 ∧ (cstr hex).dropWhile isBlank = flat ps ++ rest ∧ (∀ c ∈ rest, isBlank c) ∧
    (∀ p ∈ ps, (isXdigit p.1 && isXdigit p.2 || loose p.1 p.2) = true) ∧ ∃ p ∈ ps, loose p.1 p.2

/-- Blanks behind a text that ends with none are all that is cut off. -/
theorem rdropWhile_run {s rest : Bytes} (hrest : ∀ c ∈ rest, isBlank c)
    (hs : ∀ c ∈ s.getLast?, isBlank c = false) : (s ++ rest).rdropWhile isBlank = s := by
  have hrun : (rest.reverse ++ s.reverse).dropWhile isBlank = s.reverse := by
    refine dropWhile_run (fun c hc => hrest c (List.mem_reverse.mp hc)) fun c hc => hs c ?_
    rwa [List.head?_reverse] at hc
  rw [List.rdropWhile, List.reverse_append, hrun, List.reverse_reverse]

theorem not_blank_of_isXdigit {c : Char} (h : isXdigit c) : isBlank c = false := by
  have hall : ∀ c ∈ "0123456789abcdefABCDEF".toList, isBlank c = false := by decide
  exact hall c (mem_of_isXdigit h)

/-- What the reader accepts is what it has read, without the blanks. -/
theorem trim_pairs {hex rest : Bytes} {ps : List (Char × Char)}
    (h : (cstr hex).dropWhile isBlank = flat ps ++ rest) (hrest : ∀ c ∈ rest, isBlank c)
    (hps : ∀ p ∈ ps, (isXdigit p.1 && isXdigit p.2 || loose p.1 p.2) = true) :
    trim (cstr hex) = flat ps := by
  rw [trim, h]
  refine rdropWhile_run hrest fun c hc => ?_
  rcases List.eq_nil_or_concat ps with rfl | ⟨ps, p, rfl⟩
  · cases hc
  · have hsplit : flat (ps.concat p) = (flat ps ++ [p.1]) ++ [p.2] := by
      simp [flat]
    rw [hsplit, List.getLast?_concat] at hc
    cases hc
    have hp := hps p (by simp)
    simp only [loose, Bool.or_eq_true, Bool.and_eq_true, decide_eq_true_eq] at hp
    rcases hp with h | ⟨h, -⟩ | ⟨-, h⟩
    · exact not_blank_of_isXdigit h.2
    · exact not_blank_of_isXdigit h
    · rw [h]
      rfl

theorem wfbHexToKey_isSome (hex : Bytes) : (wfbHexToKey hex).isSome ↔
    ∃ ps rest, ps.length = 64 ∧ (cstr hex).dropWhile isBlank = flat ps ++ rest ∧ (∀ c ∈ rest, isBlank c) ∧
      ∀ p ∈ ps, (isXdigit p.1 && isXdigit p.2 || loose p.1 p.2) = true := by
  constructor
  · intro h
    unfold wfbHexToKey at h
    split at h
    · cases h
    · next out rest hloop =>
        split_ifs at h with hbad
        · cases h
        · rw [not_or, not_not, not_not] at hbad
          obtain ⟨ps, hlen, hsplit, hall⟩ := keyLoop_pairs hloop hbad.1
          refine ⟨ps, rest, hlen, hsplit, List.dropWhile_eq_nil_iff.mp hbad.2, fun p hp => ?_⟩
          rw [← pairByte_isSome_eq]
          exact hall p hp
  · rintro ⟨ps, rest, hlen, hsplit, hrest, hall⟩
    obtain ⟨out, hout, hloop⟩ := keyLoop_flat rest fun p hp => (pairByte_isSome_eq p.1 p.2).trans (hall p hp)
    rw [hlen] at hout hloop
    have hend : ¬(out.length ≠ 64 ∨ rest.dropWhile isBlank ≠ []) := by
      rw [not_or, not_not, not_not]
      exact ⟨hout, List.dropWhile_eq_nil_iff.mpr hrest⟩
    rw [wfbHexToKey, hsplit, hloop]
    show (if _ then none else some out : Option (List UInt8)).isSome = true
    rw [if_neg hend]
    rfl

/-- The pairs of a key. -/
theorem exists_pairs_of_isKey {hex : Bytes} (h : IsKey (trim (cstr hex))) :
    ∃ ps rest, ps.length = 64 ∧ (cstr hex).dropWhile isBlank = flat ps ++ rest ∧ (∀ c ∈ rest, isBlank c) ∧
      ∀ c ∈ flat ps, isXdigit c := by
  obtain ⟨ps, hlen, hps⟩ := exists_flat (n := 64) h.1
  refine ⟨ps, ((cstr hex).dropWhile isBlank).rtakeWhile isBlank, hlen, ?_, ?_, ?_⟩
  · rw [← hps]
    exact (List.rdropWhile_append_rtakeWhile ..).symm
  · exact fun c hc => List.mem_rtakeWhile_imp hc
  · rw [← hps]
    exact h.2

theorem all_digits_iff {ps : List (Char × Char)} :
    (∀ c ∈ flat ps, isXdigit c) ↔ ∀ p ∈ ps, (isXdigit p.1 && isXdigit p.2) = true := by
  simp only [flat, List.forall_mem_flatMap, List.forall_mem_cons, Bool.and_eq_true]
  exact forall₂_congr fun p hp => by simp

/-- The reader accepts exactly the keys, and reads them for what they are, except on 64 pairs of
which one is no pair of digits. -/
theorem keyRead_iff (hex : Bytes) : KeyRead hex ↔ ¬Sloppy hex := by
  constructor
  · rintro ⟨haccepted, -⟩ ⟨ps, rest, hlen, hsplit, hrest, hall, p, hp, hloose⟩
    have hkey := haccepted.mp ((wfbHexToKey_isSome hex).mpr ⟨ps, rest, hlen, hsplit, hrest, hall⟩)
    rw [trim_pairs hsplit hrest hall] at hkey
    have hdigits := all_digits_iff.mp hkey.2 p hp
    rw [not_digits_of_loose hloose] at hdigits
    cases hdigits
  · intro hno
    have hsplit : ∀ {ps rest}, ps.length = 64 → (cstr hex).dropWhile isBlank = flat ps ++ rest →
        (∀ c ∈ rest, isBlank c) →
        (∀ p ∈ ps, (isXdigit p.1 && isXdigit p.2 || loose p.1 p.2) = true) →
        trim (cstr hex) = flat ps ∧ ∀ c ∈ flat ps, isXdigit c := by
      intro ps rest hlen hsplit hrest hall
      refine ⟨trim_pairs hsplit hrest hall, all_digits_iff.mpr fun p hp => ?_⟩
      rcases Bool.or_eq_true_iff.mp (hall p hp) with h | h
      · exact h
      · exact absurd ⟨ps, rest, hlen, hsplit, hrest, hall, p, hp, h⟩ hno
    constructor
    · rw [wfbHexToKey_isSome]
      constructor
      · rintro ⟨ps, rest, hlen, hdrop, hrest, hall⟩
        obtain ⟨htrim, hdigits⟩ := hsplit hlen hdrop hrest hall
        rw [htrim]
        exact ⟨by rw [length_flat, hlen], hdigits⟩
      · intro hkey
        obtain ⟨ps, rest, hlen, hdrop, hrest, hdigits⟩ := exists_pairs_of_isKey hkey
        refine ⟨ps, rest, hlen, hdrop, hrest, fun p hp => ?_⟩
        rw [all_digits_iff.mp hdigits p hp]
        rfl
    · intro out hout
      have hsome : (wfbHexToKey hex).isSome := Option.isSome_of_mem hout
      obtain ⟨ps, rest, hlen, hdrop, hrest, hall⟩ := (wfbHexToKey_isSome hex).mp hsome
      obtain ⟨htrim, hdigits⟩ := hsplit hlen hdrop hrest hall
      have hout : wfbHexToKey hex = some out := hout
      unfold wfbHexToKey at hout
      split at hout
      · cases hout
      · next out' rest' hloop =>
          split_ifs at hout with hbad
          rw [not_or, not_not, not_not] at hbad
          cases hout
          rw [hdrop, ← hlen] at hloop
          exact ⟨hbad.1, (keyLoop_digits hdigits hloop).trans (by rw [htrim])⟩

/-- One digit too few, and a blank in its place. -/
def blankKey : Bytes := List.replicate 126 'a' ++ " 7".toList

theorem not_keyRead : ¬KeyRead blankKey ∧ (wfbHexToKey blankKey).isSome ∧ ¬IsKey (trim (cstr blankKey)) := by
  have htaken : (wfbHexToKey blankKey).isSome := by decide +kernel
  have hno : ¬IsKey (trim (cstr blankKey)) := by decide +kernel
  exact ⟨fun h => hno (h.accepted.mp htaken), htaken, hno⟩

end Multicall

end Waybeam
