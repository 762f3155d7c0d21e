/-
# `Waybeam.Ground.Query` — query strings of the HTTP API

    qs_get          the raw value of a key: `&key=value&`
    qs_get_int      the whole value as a decimal number, at most ten characters
    qs_pct_decode   `%XX` into a byte, everything else (a `+` too) as it is

A value that is used as a string has to be decoded first; it is then a C string, so what
follows a decoded NUL is lost.
-/
import Waybeam.Numeric
import Waybeam.Text

namespace Waybeam.Ground

open Text

/-- `qs_get` -/
def qsGet (qs key : Bytes) : Option Bytes :=
  (qs.splitOn '&').findSome? fun pair =>
    if (key ++ ['=']).isPrefixOf pair then some (pair.drop (key.length + 1)) else none

/-- `qs_get_int`; `none` where it returns -1. -/
def qsGetInt (qs key : Bytes) : Option ℤ :=
  match qsGet qs key with
  | none => none
  | some v =>
      if v = [] ∨ 10 < v.length then none
      else
        match strtoll v with
        | some (iv, []) => some (i32 iv)
        | _ => none

/-- `hexnib` -/
def hexnib (c : Char) : Option ℕ :=
  if c.isDigit then some (c.toNat - '0'.toNat)
  else if 'a' ≤ c ∧ c ≤ 'f' then some (c.toNat - 'a'.toNat + 10)
  else if 'A' ≤ c ∧ c ≤ 'F' then some (c.toNat - 'A'.toNat + 10)
  else none

/-- The byte a `%` and two more characters stand for. -/
def pctByte (h l : Char) : Option Char :=
  match hexnib h, hexnib l with
  | some h, some l => some (Char.ofNat (16 * h + l))
  | _, _ => none

/-- `qs_pct_decode` with room for that many bytes. -/
def qsPctDecode : ℕ → Bytes → Bytes
  | 0, _ => []
  | _, [] => []
  | room + 1, '%' :: h :: l :: s =>
      match pctByte h l with
      | some c => c :: qsPctDecode room s
      | none => '%' :: qsPctDecode room (h :: l :: s)
  | room + 1, c :: s => c :: qsPctDecode room s

example : qsPctDecode 7 "HT40%2B".toList = "HT40+".toList := by decide +kernel

theorem qsPctDecode_length_le (room : ℕ) (s : Bytes) : (qsPctDecode room s).length ≤ room := by
  fun_induction qsPctDecode room s with
  | case1 => exact le_rfl
  | case2 => exact Nat.zero_le _
  | case3 _ _ _ _ _ _ ih => exact Nat.succ_le_succ ih
  | case4 _ _ _ _ _ ih => exact Nat.succ_le_succ ih
  | case5 _ _ _ _ ih => exact Nat.succ_le_succ ih

/-- A number from a query is an `int`. -/
theorem qsGetInt_range {qs key : Bytes} {iv : ℤ} (h : qsGetInt qs key = some iv) :
    -2 ^ 31 ≤ iv ∧ iv < 2 ^ 31 := by
  rw [qsGetInt] at h
  split at h
  · cases h
  · split at h
    · cases h
    · split at h
      · cases h
        exact i32_range _
      · cases h

/-- A piece of what is split is made of its characters, the separator apart. -/
theorem mem_splitOn {c : Char} {s l : Bytes} (h : l ∈ s.splitOn c) : ∀ d ∈ l, d ∈ s ∧ d ≠ c := by
  induction s generalizing l with
  | nil =>
      rw [List.splitOn_nil, List.mem_singleton] at h
      rw [h]
      intro d hd
      cases hd
  | cons e s ih =>
      rw [List.splitOn_cons_eq_if_modifyHead] at h
      split at h
      · rcases List.mem_cons.mp h with rfl | h
        · intro d hd
          cases hd
        · intro d hd
          exact ⟨List.mem_cons_of_mem _ (ih h d hd).1, (ih h d hd).2⟩
      · next he =>
          obtain ⟨l₀, ls, hls⟩ := List.exists_cons_of_ne_nil (List.splitOn_ne_nil c s)
          rw [hls, List.modifyHead_cons] at h
          rw [hls] at ih
          rcases List.mem_cons.mp h with rfl | h
          · intro d hd
            rcases List.mem_cons.mp hd with rfl | hd
            · exact ⟨List.mem_cons_self, fun hdc => he (beq_iff_eq.mpr hdc)⟩
            · have hd := ih List.mem_cons_self d hd
              exact ⟨List.mem_cons_of_mem _ hd.1, hd.2⟩
          · intro d hd
            have hd := ih (List.mem_cons_of_mem _ h) d hd
            exact ⟨List.mem_cons_of_mem _ hd.1, hd.2⟩

/-- A value has no `&` in it. -/
theorem qsGet_chars {qs key v : Bytes} (h : qsGet qs key = some v) : ∀ c ∈ v, c ∈ qs ∧ c ≠ '&' := by
  obtain ⟨pair, hpair, hv⟩ := List.exists_of_findSome?_eq_some h
  split at hv
  · cases hv
    intro c hc
    exact mem_splitOn hpair c (List.mem_of_mem_drop hc)
  · cases hv

end Waybeam.Ground
