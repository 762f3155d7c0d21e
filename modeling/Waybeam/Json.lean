/-
# `Waybeam.Json` — JSON documents, as Python's `json` reads them

A document is bytes; `loads` decodes them as UTF-8, strictly, and reads one value with
nothing but white space around it.  Strings are lists of code points, since `\ud800` by
itself is one that no character has; an object keeps its members in order, and of two with
one name the last one counts (`member`).  Besides RFC 8259 the reader takes `NaN`,
`Infinity` and `-Infinity`.

    value     "…"  {…}  […]  null  true  false  number
    number    -? (0 | [1-9][0-9]*) (. [0-9]+)? ([eE] [+-]? [0-9]+)?       an `int` without the last two

The readers recurse on a fuel that their text's length provides (`value_stable`).
-/
import Mathlib.Data.Rat.Defs
import Waybeam.Text

namespace Waybeam

open Text

/-- A JSON value; a `float` without a number is a NaN or an infinity. -/
inductive Json where
  | null
  | bool (b : Bool)
  | int (n : ℤ)
  | float (q : Option ℚ)
  | str (s : List ℕ)
  | arr (items : List Json)
  | obj (members : List (List ℕ × Json))

namespace Json

/-- The code points of a text. -/
def points (s : List Char) : List ℕ := s.map Char.toNat

/-- The value of a name in an object. -/
def member (members : List (List ℕ × Json)) (name : List Char) : Option Json :=
  (members.reverse.find? fun m => decide (m.1 = points name)).map Prod.snd

/-! ## UTF-8 -/

/-- The six bits of a continuation byte. -/
def tailBits (c : Char) : Option ℕ :=
  if 0x80 ≤ c.toNat ∧ c.toNat < 0xC0 then some (c.toNat - 0x80) else none

/-- The characters of a byte string; `none` where it is not UTF-8. -/
def utf8 : Bytes → Option (List Char)
  | [] => some []
  | a :: s =>
      let x := a.toNat
      if x < 0x80 then (utf8 s).map (a :: ·)
      else
        match s with
        | [] => none
        | b :: s =>
            (tailBits b).bind fun b =>
              if 0xC2 ≤ x ∧ x < 0xE0 then (utf8 s).map (Char.ofNat ((x - 0xC0) * 64 + b) :: ·)
              else
                match s with
                | [] => none
                | c :: s =>
                    (tailBits c).bind fun c =>
                      let v := (x - 0xE0) * 4096 + b * 64 + c
                      if 0xE0 ≤ x ∧ x < 0xF0 then
                        if 0x800 ≤ v ∧ ¬(0xD800 ≤ v ∧ v < 0xE000) then
                          (utf8 s).map (Char.ofNat v :: ·)
                        else none
                      else
                        match s with
                        | [] => none
                        | d :: s =>
                            (tailBits d).bind fun d =>
                              let v := (x - 0xF0) * 262144 + b * 4096 + c * 64 + d
                              if 0xF0 ≤ x ∧ 0x10000 ≤ v ∧ v < 0x110000 then
                                (utf8 s).map (Char.ofNat v :: ·)
                              else none

/-! ## Strings and numbers -/

/-- White space between tokens. -/
def isWs (c : Char) : Bool := c = ' ' || c = '\t' || c = '\n' || c = '\r'

/-- Skip white space. -/
def skipWs (s : List Char) : List Char := s.dropWhile isWs

/-- A hexadecimal digit. -/
def hexDigit (c : Char) : Option ℕ :=
  if c.isDigit then some (c.toNat - '0'.toNat)
  else if 'a' ≤ c ∧ c ≤ 'f' then some (c.toNat - 'a'.toNat + 10)
  else if 'A' ≤ c ∧ c ≤ 'F' then some (c.toNat - 'A'.toNat + 10)
  else none

/-- The code point of `\uXXXX`. -/
def hex4 (a b c d : Char) : Option ℕ := do
  let a ← hexDigit a
  let b ← hexDigit b
  let c ← hexDigit c
  let d ← hexDigit d
  return ((a * 16 + b) * 16 + c) * 16 + d

/-- The code point of a short escape. -/
def escape : Char → Option ℕ
  | '"' => some '"'.toNat
  | '\\' => some '\\'.toNat
  | '/' => some '/'.toNat
  | 'b' => some 8
  | 'f' => some 12
  | 'n' => some 10
  | 'r' => some 13
  | 't' => some 9
  | _ => none

/-- A string behind its opening quote: the code points, and what follows the closing one. -/
def string : List Char → Option (List ℕ × List Char)
  | [] => none
  | '"' :: s => some ([], s)
  | '\\' :: 'u' :: a :: b :: c :: d :: s =>
      (hex4 a b c d).bind fun v => (string s).map fun r => (v :: r.1, r.2)
  | '\\' :: c :: s => (escape c).bind fun v => (string s).map fun r => (v :: r.1, r.2)
  | c :: s => if c.toNat < 0x20 then none else (string s).map fun r => (c.toNat :: r.1, r.2)

/-- A high and a low surrogate in a row are one code point. -/
def joinSurrogates : List ℕ → List ℕ
  | hi :: lo :: s =>
      if 0xD800 ≤ hi ∧ hi < 0xDC00 ∧ 0xDC00 ≤ lo ∧ lo < 0xE000 then
        ((hi - 0xD800) * 1024 + (lo - 0xDC00) + 0x10000) :: joinSurrogates s
      else hi :: joinSurrogates (lo :: s)
  | s => s

/-- The digits at the start of a text. -/
def digits (s : List Char) : List Char := s.takeWhile Char.isDigit

/-- The integer part of a number: no leading zeros. -/
def integer : List Char → Option (List Char × List Char)
  | '0' :: s => some (['0'], s)
  | s => if digits s = [] then none else some (digits s, s.dropWhile Char.isDigit)

/-- The fraction of a number, if it has one. -/
def fraction : List Char → List Char × List Char
  | '.' :: s => if digits s = [] then ([], '.' :: s) else (digits s, s.dropWhile Char.isDigit)
  | s => ([], s)

/-- The sign of an exponent. -/
def expSign : List Char → ℤ × List Char
  | '-' :: s => (-1, s)
  | '+' :: s => (1, s)
  | s => (1, s)

/-- The exponent of a number, if it has one. -/
def exponent : List Char → Option ℤ × List Char
  | [] => (none, [])
  | e :: s =>
      if (e = 'e' ∨ e = 'E') ∧ digits (expSign s).2 ≠ [] then
        (some ((expSign s).1 * Nat.ofDigitChars 10 (digits (expSign s).2) 0),
          (expSign s).2.dropWhile Char.isDigit)
      else (none, e :: s)

/-- A number without its sign. -/
def unsigned (negative : Bool) (s : List Char) : Option (Json × List Char) :=
  (integer s).map fun (whole, s) =>
    let (frac, s) := fraction s
    let (exp, s) := exponent s
    let sign : ℤ := if negative then -1 else 1
    if frac = [] ∧ exp = none then (.int (sign * Nat.ofDigitChars 10 whole 0), s)
    else
      let mantissa : ℚ := sign * Nat.ofDigitChars 10 (whole ++ frac) 0
      (.float (some (mantissa * (10 : ℚ) ^ (exp.getD 0 - frac.length))), s)

/-- A number, or the name of one that is not finite. -/
def number : List Char → Option (Json × List Char)
  | 'N' :: 'a' :: 'N' :: s => some (.float none, s)
  | 'I' :: 'n' :: 'f' :: 'i' :: 'n' :: 'i' :: 't' :: 'y' :: s => some (.float none, s)
  | '-' :: s =>
      match "Infinity".toList.isPrefixOf s with
      | true => some (.float none, s.drop 8)
      | false => unsigned true s
  | s => unsigned false s

/-! ## Values -/

mutual

/-- A value at the start of a text, and what follows. -/
def value : ℕ → List Char → Option (Json × List Char)
  | 0, _ => none
  | n + 1, s =>
      match s with
      | '"' :: s => (string s).map fun r => (.str (joinSurrogates r.1), r.2)
      | '\x7b' :: s =>
          match skipWs s with
          | '\x7d' :: s => some (.obj [], s)
          | s => (members n s).map fun r => (.obj r.1, r.2)
      | '[' :: s =>
          match skipWs s with
          | ']' :: s => some (.arr [], s)
          | s => (items n s).map fun r => (.arr r.1, r.2)
      | 'n' :: 'u' :: 'l' :: 'l' :: s => some (.null, s)
      | 't' :: 'r' :: 'u' :: 'e' :: s => some (.bool true, s)
      | 'f' :: 'a' :: 'l' :: 's' :: 'e' :: s => some (.bool false, s)
      | s => number s

/-- The items of an array up to its closing bracket. -/
def items : ℕ → List Char → Option (List Json × List Char)
  | 0, _ => none
  | n + 1, s =>
      (value n s).bind fun v =>
        match skipWs v.2 with
        | ']' :: s => some ([v.1], s)
        | ',' :: s => (items n (skipWs s)).map fun r => (v.1 :: r.1, r.2)
        | _ => none

/-- The members of an object up to its closing brace. -/
def members : ℕ → List Char → Option (List (List ℕ × Json) × List Char)
  | 0, _ => none
  | n + 1, s =>
      match s with
      | '"' :: s =>
          (string s).bind fun k =>
            match skipWs k.2 with
            | ':' :: s =>
                (value n (skipWs s)).bind fun v =>
                  match skipWs v.2 with
                  | '\x7d' :: s => some ([(joinSurrogates k.1, v.1)], s)
                  | ',' :: s =>
                      (members n (skipWs s)).map fun r => ((joinSurrogates k.1, v.1) :: r.1, r.2)
                  | _ => none
            | _ => none
      | _ => none

end

/-! ## Fuel -/

theorem length_skipWs_le (s : List Char) : (skipWs s).length ≤ s.length :=
  (List.dropWhile_suffix isWs).length_le

theorem string_shrinks {s : List Char} {v : List ℕ} {r : List Char} (h : string s = some (v, r)) :
    r.length < s.length := by
  induction s using string.induct generalizing v with
  | case1 => cases h
  | case2 s =>
      rw [string] at h
      cases h
      exact Nat.lt_succ_self _
  | case3 a b c d s ih =>
      rw [string] at h
      obtain ⟨x, -, hx⟩ := Option.bind_eq_some_iff.mp h
      obtain ⟨q, hq, hr⟩ := Option.map_eq_some_iff.mp hx
      cases hr
      have hlt := ih hq
      simp only [List.length_cons]
      omega
  | case4 c s hu ih =>
      rw [string] at h
      · obtain ⟨x, -, hx⟩ := Option.bind_eq_some_iff.mp h
        obtain ⟨q, hq, hr⟩ := Option.map_eq_some_iff.mp hx
        cases hr
        have hlt := ih hq
        simp only [List.length_cons]
        omega
      · exact hu
  | case5 c s hquote hu hesc hctl =>
      rw [string, if_pos hctl] at h
      · cases h
      all_goals assumption
  | case6 c s hquote hu hesc hctl ih =>
      rw [string, if_neg hctl] at h
      · obtain ⟨q, hq, hr⟩ := Option.map_eq_some_iff.mp h
        cases hr
        exact Nat.lt_succ_of_lt (ih hq)
      all_goals assumption

theorem length_dropWhile_lt {s : List Char} (h : digits s ≠ []) :
    (s.dropWhile Char.isDigit).length < s.length := by
  have hsplit : digits s ++ s.dropWhile Char.isDigit = s := List.takeWhile_append_dropWhile
  have hlen := congrArg List.length hsplit
  have hpos := List.length_pos_iff.mpr h
  rw [List.length_append] at hlen
  omega

theorem integer_shrinks {s w r : List Char} (h : integer s = some (w, r)) : r.length < s.length := by
  unfold integer at h
  split at h
  · cases h
    exact Nat.lt_succ_self _
  · split at h
    · cases h
    · next hne =>
        cases h
        exact length_dropWhile_lt hne

theorem length_fraction_le (s : List Char) : (fraction s).2.length ≤ s.length := by
  unfold fraction
  split
  · split
    · exact Nat.le_refl _
    · next hne => exact Nat.le_succ_of_le (length_dropWhile_lt hne).le
  · exact Nat.le_refl _

theorem length_expSign_le (s : List Char) : (expSign s).2.length ≤ s.length := by
  unfold expSign
  split <;> simp

theorem length_exponent_le (s : List Char) : (exponent s).2.length ≤ s.length := by
  cases s with
  | nil => exact Nat.le_refl _
  | cons e s =>
      have hle := length_expSign_le s
      rw [exponent]
      split
      · next h =>
          have hlt := length_dropWhile_lt h.2
          simp only [List.length_cons]
          omega
      · exact Nat.le_refl _

theorem unsigned_shrinks {neg : Bool} {s r : List Char} {v : Json}
    (h : unsigned neg s = some (v, r)) : r.length < s.length := by
  obtain ⟨⟨w, s'⟩, hint, h⟩ := Option.map_eq_some_iff.mp h
  have hrest : r = (exponent (fraction s').2).2 := by
    dsimp only at h
    split at h <;> exact (congrArg Prod.snd h).symm
  have hlt := integer_shrinks hint
  have hfrac := length_fraction_le s'
  have hexp := length_exponent_le (fraction s').2
  rw [hrest]
  omega

theorem number_shrinks {s r : List Char} {v : Json} (h : number s = some (v, r)) :
    r.length < s.length := by
  unfold number at h
  split at h
  · cases h
    simp only [List.length_cons]
    omega
  · cases h
    simp only [List.length_cons]
    omega
  · split at h
    · next hinf =>
        cases h
        rw [List.length_drop, List.length_cons]
        omega
    · exact Nat.lt_succ_of_lt (unsigned_shrinks h)
  · exact unsigned_shrinks h

/-- What a reader takes is at least a character. -/
def Takes {α : Type} (read : List Char → Option (α × List Char)) : Prop :=
  ∀ s v r, read s = some (v, r) → r.length < s.length

variable {n : ℕ}

theorem value_takes (hitems : Takes (items n)) (hmembers : Takes (members n)) :
    Takes (value (n + 1)) := by
  intro s v r h
  unfold value at h
  split at h
  · obtain ⟨q, hq, hr⟩ := Option.map_eq_some_iff.mp h
    cases hr
    exact Nat.lt_succ_of_lt (string_shrinks hq)
  · next s =>
      have hws := length_skipWs_le s
      split at h
      · next heq =>
          cases h
          rw [heq] at hws
          simp only [List.length_cons] at hws ⊢
          omega
      · obtain ⟨q, hq, hr⟩ := Option.map_eq_some_iff.mp h
        cases hr
        have hlt := hmembers _ _ _ hq
        simp only [List.length_cons]
        omega
  · next s =>
      have hws := length_skipWs_le s
      split at h
      · next heq =>
          cases h
          rw [heq] at hws
          simp only [List.length_cons] at hws ⊢
          omega
      · obtain ⟨q, hq, hr⟩ := Option.map_eq_some_iff.mp h
        cases hr
        have hlt := hitems _ _ _ hq
        simp only [List.length_cons]
        omega
  -- the three words
  iterate 3
    · cases h
      simp only [List.length_cons]
      omega
  · exact number_shrinks h

theorem items_takes (hvalue : Takes (value n)) (hitems : Takes (items n)) : Takes (items (n + 1)) := by
  intro s v r h
  unfold items at h
  obtain ⟨⟨x, q⟩, hx, h⟩ := Option.bind_eq_some_iff.mp h
  have hlt := hvalue _ _ _ hx
  have hws := length_skipWs_le q
  dsimp only at h
  split at h
  · next heq =>
      cases h
      rw [heq] at hws
      simp only [List.length_cons] at hws
      omega
  · next s' heq =>
      obtain ⟨⟨l, q'⟩, hq, hr⟩ := Option.map_eq_some_iff.mp h
      cases hr
      have hlt' := hitems _ _ _ hq
      have hws' := length_skipWs_le s'
      rw [heq] at hws
      simp only [List.length_cons] at hws
      dsimp only
      omega
  · cases h

theorem members_takes (hvalue : Takes (value n)) (hmembers : Takes (members n)) :
    Takes (members (n + 1)) := by
  intro s v r h
  unfold members at h
  split at h
  · next s =>
      obtain ⟨⟨k, q⟩, hk, h⟩ := Option.bind_eq_some_iff.mp h
      have hlt := string_shrinks hk
      have hws := length_skipWs_le q
      dsimp only at h
      split at h
      · next s' heq =>
          rw [heq] at hws
          obtain ⟨⟨x, q'⟩, hx, h⟩ := Option.bind_eq_some_iff.mp h
          have hlt' := hvalue _ _ _ hx
          have hws' := length_skipWs_le s'
          have hws'' := length_skipWs_le q'
          dsimp only at h
          split at h
          · next heq' =>
              cases h
              rw [heq'] at hws''
              simp only [List.length_cons] at *
              omega
          · next s'' heq' =>
              obtain ⟨⟨l, q''⟩, hq, hr⟩ := Option.map_eq_some_iff.mp h
              cases hr
              have hlt'' := hmembers _ _ _ hq
              have hws3 := length_skipWs_le s''
              rw [heq'] at hws''
              simp only [List.length_cons] at *
              omega
          · cases h
      · cases h
  · cases h

/-- On any fuel. -/
theorem takes (n : ℕ) : Takes (value n) ∧ Takes (items n) ∧ Takes (members n) := by
  induction n with
  | zero =>
      refine ⟨?_, ?_, ?_⟩
      all_goals
        intro s v r h
        cases h
  | succ n ih =>
      obtain ⟨hvalue, hitems, hmembers⟩ := ih
      exact ⟨value_takes hitems hmembers, items_takes hvalue hitems, members_takes hvalue hmembers⟩

/-- More fuel than the text asks for changes nothing. -/
structure Stable (n : ℕ) : Prop where
  value (s : List Char) : 2 * s.length + 1 ≤ n → Json.value (n + 1) s = Json.value n s
  items (s : List Char) : 2 * s.length + 2 ≤ n → Json.items (n + 1) s = Json.items n s
  members (s : List Char) : 2 * s.length + 2 ≤ n → Json.members (n + 1) s = Json.members n s

theorem Stable.value_succ (ih : Stable n) {s : List Char} (h : 2 * s.length + 1 ≤ n + 1) :
    Json.value (n + 2) s = Json.value (n + 1) s := by
  unfold Json.value
  split
  · rfl
  · next s =>
      have hws := length_skipWs_le s
      rw [List.length_cons] at h
      split
      · rfl
      · rw [ih.members _ (by omega)]
  · next s =>
      have hws := length_skipWs_le s
      rw [List.length_cons] at h
      split
      · rfl
      · rw [ih.items _ (by omega)]
  all_goals rfl

theorem Stable.items_succ (ih : Stable n) {s : List Char} (h : 2 * s.length + 2 ≤ n + 1) :
    Json.items (n + 2) s = Json.items (n + 1) s := by
  rw [Json.items]
  conv_rhs => rw [Json.items]
  rw [ih.value s (by omega)]
  refine Option.bind_congr ?_
  rintro ⟨v, q⟩ hv
  have hlt := (takes n).1 _ _ _ hv
  have hws := length_skipWs_le q
  dsimp only
  split
  · rfl
  · next s' heq =>
      have hws' := length_skipWs_le s'
      rw [heq, List.length_cons] at hws
      rw [ih.items _ (by omega)]
  · rfl

theorem Stable.members_succ (ih : Stable n) {s : List Char} (h : 2 * s.length + 2 ≤ n + 1) :
    Json.members (n + 2) s = Json.members (n + 1) s := by
  unfold Json.members
  split
  · next s =>
      refine Option.bind_congr ?_
      rintro ⟨k, q⟩ hk
      have hlt := string_shrinks hk
      have hws := length_skipWs_le q
      rw [List.length_cons] at h
      dsimp only
      split
      · next s' heq =>
          have hws' := length_skipWs_le s'
          rw [heq, List.length_cons] at hws
          rw [ih.value _ (by omega)]
          refine Option.bind_congr ?_
          rintro ⟨v, q'⟩ hv
          have hlt' := (takes n).1 _ _ _ hv
          have hws'' := length_skipWs_le q'
          dsimp only
          split
          · rfl
          · next s'' heq' =>
              have hws3 := length_skipWs_le s''
              rw [heq', List.length_cons] at hws''
              rw [ih.members _ (by omega)]
          · rfl
      · rfl
  · rfl

theorem stable (n : ℕ) : Stable n := by
  induction n with
  | zero =>
      constructor
      all_goals
        intro s h
        omega
  | succ n ih => exact ⟨fun _ => ih.value_succ, fun _ => ih.items_succ, fun _ => ih.members_succ⟩

/-- Any fuel that suffices gives the same reading. -/
theorem value_stable {m : ℕ} {s : List Char} (hn : 2 * s.length + 1 ≤ n) (hm : n ≤ m) :
    value m s = value n s := by
  induction hm with
  | refl => rfl
  | step h ih => exact ((stable _).value s (hn.trans h)).trans ih

/-! ## Documents -/

/-- One value with white space around it. -/
def decode (s : List Char) : Option Json :=
  match value (2 * s.length + 2) (skipWs s) with
  | some (v, rest) => if skipWs rest = [] then some v else none
  | none => none

/-- `json.loads(payload.decode())`; a byte order mark is refused. -/
def loads (payload : Bytes) : Option Json :=
  (utf8 payload).bind fun s =>
    match s with
    | '\ufeff' :: _ => none
    | s => decode s

end Json

end Waybeam
