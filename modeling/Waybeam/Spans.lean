/-
# `Waybeam.Spans` — the tokens, where they stand

`Waybeam.Tokens` keeps of a token what its readers take from it.  The reader of a buffer keeps
more: where the token starts and ends, and the number of the container it is in.

    {"a":[1]}     0 obj 0–9 · 1 str 2–3 in 0 · 2 arr 5–8 in 0 · 3 prim 6–7 in 2

A bad nesting is refused.  What an object holds is not looked at: a key may lack its value, or
be a container.
-/
import Waybeam.Trees
import Waybeam.Tokens

namespace Waybeam.Spans

open Text Trees
open Tokens (TokType)

/-- A token; `stop` is missing while the container is open, `parent` at the top. -/
structure JTok where
  type : TokType
  start : ℕ
  stop : Option ℕ := none
  size : ℕ := 0
  parent : Option ℕ := none
  deriving DecidableEq, Repr

/-! ## Cutting -/

/-- What the reader meets: a bracket, or a string or primitive with its two ends. -/
inductive Lexeme where
  | opened (type : TokType) (pos : ℕ)
  | closed (type : TokType) (pos : ℕ)
  | str (start stop : ℕ)
  | prim (start stop : ℕ)
  deriving DecidableEq, Repr

/-- Where in a token the reader is. -/
inductive Mode where
  | top
  | str (start : ℕ) (escaped : Bool)
  | prim (start : ℕ)
  deriving DecidableEq, Repr

namespace Mode

/-- A character between tokens. -/
def feedTop (pos : ℕ) (c : Char) : List Lexeme × Mode :=
  if c = '\x7b' then ([.opened .obj pos], top)
  else if c = '[' then ([.opened .arr pos], top)
  else if c = '\x7d' then ([.closed .obj pos], top)
  else if c = ']' then ([.closed .arr pos], top)
  else if c = '"' then ([], str (pos + 1) false)
  else if c = ' ' || c = '\t' || c = '\n' || c = '\r' || c = ':' || c = ',' then ([], top)
  else ([], prim pos)

/-- A character.  What ends a primitive is met again. -/
def feed (m : Mode) (pos : ℕ) (c : Char) : List Lexeme × Mode :=
  match m with
  | top => feedTop pos c
  | str start true => ([], str start false)
  | str start false =>
      if c = '"' then ([.str start pos], top) else ([], str start (c = '\\'))
  | prim start =>
      if Tokens.Parser.endsPrim c then
        let (ls, m) := feedTop pos c
        (.prim start pos :: ls, m)
      else ([], prim start)

/-- The end of the buffer: a string may not be open. -/
def finish (m : Mode) (len : ℕ) : Option (List Lexeme) :=
  match m with
  | top => some []
  | str _ _ => none
  | prim start => some [.prim start len]

end Mode

/-- What is met from a place on. -/
def lex (m : Mode) (pos : ℕ) : Bytes → Option (List Lexeme)
  | [] => m.finish pos
  | c :: cs => (lex (m.feed pos c).2 (pos + 1) cs).map ((m.feed pos c).1 ++ ·)

/-! ## The table -/

/-- The tokens so far, and the innermost container that is open. -/
structure Parser where
  toks : List JTok := []
  super : Option ℕ := none
  deriving DecidableEq, Repr

/-- One more child of a container. -/
def bump (toks : List JTok) : Option ℕ → List JTok
  | some s => toks.modify s fun t => { t with size := t.size + 1 }
  | none => toks

/-- From a container outwards, the first that is open. -/
def stillOpen (toks : List JTok) : ℕ → Option ℕ → Option ℕ
  | fuel + 1, some s =>
      if (toks[s]?.bind JTok.stop).isSome then stillOpen toks fuel (toks[s]?.bind JTok.parent)
      else some s
  | _, s => s

namespace Parser

/-- One more token, a child of the innermost container; there is room for `max`. -/
def alloc (max : ℕ) (p : Parser) (t : JTok) : Option Parser :=
  if p.toks.length < max then
    some { p with toks := bump p.toks p.super ++ [{ t with parent := p.super }] }
  else none

/-- The bracket has to be of the innermost container. -/
def closeContainer (p : Parser) (type : TokType) (pos : ℕ) : Option Parser :=
  p.super.bind fun s => p.toks[s]?.bind fun t =>
    if t.type = type then
      let toks := p.toks.modify s fun t => { t with stop := some (pos + 1) }
      some { toks, super := stillOpen toks toks.length t.parent }
    else none

def feed (max : ℕ) (p : Parser) : Lexeme → Option Parser
  | .opened type pos =>
      (p.alloc max { type, start := pos }).map fun q => { q with super := some p.toks.length }
  | .closed type pos => p.closeContainer type pos
  | .str start stop => p.alloc max { type := .str, start, stop := some stop }
  | .prim start stop => p.alloc max { type := .prim, start, stop := some stop }

/-- No container may be open at the end. -/
def finish (p : Parser) : Option (List JTok) := if p.super = none then some p.toks else none

end Parser

/-- `json_parse` -/
def jsonParse (max : ℕ) (js : Bytes) : Option (List JTok) :=
  (lex .top 0 js).bind fun ls => (ls.foldlM (Parser.feed max) {}).bind Parser.finish

/-! ## Walking -/

/-- How many tokens of the next level are stepped over with a token. -/
def JTok.kids (t : JTok) : ℕ :=
  match t.type with
  | .obj => 2 * (t.size / 2)
  | .arr => t.size
  | _ => 0

/-- `jskip`, so many levels deep. -/
def skipOn (toks : List JTok) : ℕ → ℕ → ℕ
  | 0, _ => toks.length
  | fuel + 1, i =>
      match toks[i]? with
      | some t => (skipOn toks fuel)^[t.kids] (i + 1)
      | none => toks.length

/-- `jskip`; no level is deeper than the table is long. -/
def jskip (toks : List JTok) (i : ℕ) : ℕ := skipOn toks toks.length i

/-- `jeq`: a string token, and its text. -/
def jeq (js key : Bytes) (t : JTok) : Bool :=
  t.type = .str && (js.drop t.start).take (t.stop.getD 0 - t.start) = key

/-- The value under a key, among so many pairs. -/
def findKey (js : Bytes) (toks : List JTok) (key : Bytes) : ℕ → ℕ → Option ℕ
  | 0, _ => none
  | k + 1, i =>
      if toks[i]?.any (jeq js key) then some (i + 1)
      else findKey js toks key k (jskip toks (jskip toks i))

/-- `jfind`; it may be asked about what another search did not find. -/
def jfind (js : Bytes) (toks : List JTok) (obj : Option ℕ) (key : Bytes) : Option ℕ :=
  obj.bind fun i => toks[i]?.bind fun t =>
    if t.type = .obj then findKey js toks key (t.size / 2) (i + 1) else none

example : jsonParse 8 "\x7b\"a\":[1]\x7d".toList = some
    [⟨.obj, 0, some 9, 2, none⟩, ⟨.str, 2, some 3, 0, some 0⟩, ⟨.arr, 5, some 8, 1, some 0⟩,
      ⟨.prim, 6, some 7, 0, some 2⟩] := by decide

/-! ### As deep as it takes -/

variable {toks : List JTok}

theorem le_iterate {f : ℕ → ℕ} {n : ℕ} (h : ∀ i, min (i + 1) n ≤ f i) (k i : ℕ) :
    min i n ≤ f^[k] i := by
  induction k generalizing i with
  | zero => exact min_le_left _ _
  | succ k ih =>
    rw [Function.iterate_succ_apply]
    have h₁ := ih (f i)
    have h₂ := h i
    omega

theorem lt_skipOn (fuel i : ℕ) : min (i + 1) toks.length ≤ skipOn toks fuel i := by
  induction fuel generalizing i with
  | zero => exact min_le_right _ _
  | succ fuel ih =>
    rw [skipOn]
    cases toks[i]? with
    | none => exact min_le_right _ _
    | some t => exact le_iterate ih t.kids (i + 1)

theorem iterate_congr {f g : ℕ → ℕ} {n : ℕ} (hf : ∀ i, min (i + 1) n ≤ f i) (lo : ℕ)
    (h : ∀ i, min lo n ≤ i → f i = g i) (k i : ℕ) (hi : min lo n ≤ i) : f^[k] i = g^[k] i := by
  induction k generalizing i with
  | zero => rfl
  | succ k ih =>
    rw [Function.iterate_succ_apply, Function.iterate_succ_apply, ← h i hi]
    have := hf i
    exact ih (f i) (by omega)

theorem skipOn_end {f i : ℕ} (hi : toks.length ≤ i) : skipOn toks f i = toks.length := by
  cases f with
  | zero => rfl
  | succ f => rw [skipOn, List.getElem?_eq_none hi]

/-- More levels than there are tokens left change nothing. -/
theorem skipOn_fuel {f g i : ℕ} (hf : toks.length ≤ i + f) (hg : toks.length ≤ i + g) :
    skipOn toks f i = skipOn toks g i := by
  induction f generalizing g i with
  | zero => rw [skipOn_end (by omega), skipOn_end (by omega)]
  | succ f ih =>
    rcases Nat.lt_or_ge i toks.length with hi | hi
    · obtain ⟨g, rfl⟩ : ∃ g', g = g' + 1 := ⟨g - 1, by omega⟩
      rw [skipOn, skipOn, List.getElem?_eq_getElem hi]
      refine iterate_congr (lt_skipOn f) (i + 1) ?_ _ _ (min_le_left _ _)
      intro j hj
      exact ih (by omega) (by omega)
    · rw [skipOn_end hi, skipOn_end hi]

theorem jskip_eq {i : ℕ} {t : JTok} (h : toks[i]? = some t) :
    jskip toks i = (jskip toks)^[t.kids] (i + 1) := by
  have hi := (List.getElem?_eq_some_iff.mp h).1
  have hdeep : jskip toks i = skipOn toks (toks.length + 1) i := skipOn_fuel (by omega) (by omega)
  rw [hdeep, skipOn, h]
  rfl

/-! ### What is found -/

/-- The keys that are looked at. -/
def keyAt (toks : List JTok) (i m : ℕ) : ℕ := (jskip toks)^[2 * m] i

theorem findKey_some {js key : Bytes} {k i v : ℕ} (h : findKey js toks key k i = some v) :
    ∃ m < k, toks[keyAt toks i m]?.any (jeq js key) ∧ v = keyAt toks i m + 1 := by
  induction k generalizing i with
  | zero => simp [findKey] at h
  | succ k ih =>
    rw [findKey] at h
    split at h
    · rename_i hkey
      exact ⟨0, Nat.succ_pos k, hkey, (Option.some.inj h).symm⟩
    · obtain ⟨m, hm, hkey, hv⟩ := ih h
      exact ⟨m + 1, Nat.succ_lt_succ hm, hkey, hv⟩

theorem findKey_none {js key : Bytes} {k i : ℕ} (h : findKey js toks key k i = none) {m : ℕ}
    (hm : m < k) : ¬ toks[keyAt toks i m]?.any (jeq js key) := by
  induction k generalizing i m with
  | zero => omega
  | succ k ih =>
    rw [findKey] at h
    split at h
    · exact absurd h (by simp)
    · rename_i hkey
      cases m with
      | zero => exact hkey
      | succ m => exact ih h (Nat.lt_of_succ_lt_succ hm)

end Waybeam.Spans
