/-
# `Waybeam.Tokens` — JSON as a flat list of tokens

A small reader cuts a document into tokens in one pass and keeps no tree: each token counts
its children, and these follow it.

    {"a":[1,2]}     obj 2 · str a · arr 2 · prim 1 · prim 2

Colons and commas are blanks to it, a string is taken as it stands between its quotes, and a
primitive is whatever runs up to a blank or a bracket.  Whoever walks the list steps over a
value by counting down what is left of it (`skip`).
-/
import Waybeam.Scrape

namespace Waybeam.Tokens

open Text

inductive TokType where
  | obj
  | arr
  | str
  | prim
  deriving DecidableEq, Repr

/-- A token; containers have no text. -/
structure Tok where
  type : TokType
  text : Bytes := []
  size : ℕ := 0
  deriving DecidableEq, Repr

/-! ## Cutting -/

/-- Where in a token the reader is. -/
inductive Mode where
  | top
  | str (acc : Bytes) (escaped : Bool)
  | prim (acc : Bytes)
  deriving DecidableEq, Repr

/-- The reader: what it has, and the containers that are open, the innermost first. -/
structure Parser where
  toks : List Tok := []
  super : List ℕ := []
  mode : Mode := .top
  deriving DecidableEq, Repr

namespace Parser

/-- One more token, a child of the innermost container; there is room for `max`. -/
def alloc (max : ℕ) (p : Parser) (t : Tok) : Option Parser :=
  if p.toks.length < max then
    let toks := match p.super with
      | s :: _ => p.toks.modify s fun u => { u with size := u.size + 1 }
      | [] => p.toks
    some { p with toks := toks ++ [t], mode := .top }
  else none

def openContainer (max : ℕ) (p : Parser) (type : TokType) : Option Parser :=
  (p.alloc max { type }).map fun q => { q with super := p.toks.length :: p.super }

/-- The bracket has to be of the innermost container. -/
def closeContainer (p : Parser) (type : TokType) : Option Parser :=
  match p.super with
  | s :: super => if p.toks[s]?.any (·.type = type) then some { p with super } else none
  | [] => none

/-- The end of a primitive. -/
def endsPrim (c : Char) : Bool :=
  c = ',' || c = '\x7d' || c = ']' || c = ' ' || c = '\t' || c = '\n' || c = '\r'

/-- A character between tokens. -/
def feedTop (max : ℕ) (p : Parser) (c : Char) : Option Parser :=
  if c = '\x7b' then p.openContainer max .obj
  else if c = '[' then p.openContainer max .arr
  else if c = '\x7d' then p.closeContainer .obj
  else if c = ']' then p.closeContainer .arr
  else if c = '"' then some { p with mode := .str [] false }
  else if c = ' ' || c = '\t' || c = '\n' || c = '\r' || c = ':' || c = ',' then some p
  else some { p with mode := .prim [c] }

/-- A character. -/
def feed (max : ℕ) (p : Parser) (c : Char) : Option Parser :=
  match p.mode with
  | .top => p.feedTop max c
  | .str acc true => some { p with mode := .str (acc ++ [c]) false }
  | .str acc false =>
      if c = '"' then p.alloc max { type := .str, text := acc }
      else some { p with mode := .str (acc ++ [c]) (c = '\\') }
  | .prim acc =>
      if endsPrim c then (p.alloc max { type := .prim, text := acc }).bind fun p => p.feedTop max c
      else some { p with mode := .prim (acc ++ [c]) }

/-- The end of the document: no string and no container may be open. -/
def finish (max : ℕ) (p : Parser) : Option (List Tok) :=
  let p := match p.mode with
    | .top => some p
    | .str _ _ => none
    | .prim acc => p.alloc max { type := .prim, text := acc }
  p.bind fun p => if p.super = [] then some p.toks else none

end Parser

/-- `json_parse` -/
def jsonParse (max : ℕ) (js : Bytes) : Option (List Tok) :=
  (js.foldlM (Parser.feed max) {}).bind (Parser.finish max)

/-! ## Walking -/

/-- How many tokens of the next level are stepped over with a token; a key without a value is not. -/
def Tok.kids (t : Tok) : ℕ :=
  match t.type with
  | .obj => 2 * (t.size / 2)
  | .arr => t.size
  | _ => 0

/-- Step over so many values, and what is in them. -/
def skip : ℕ → List Tok → List Tok
  | 0, ts => ts
  | _ + 1, [] => []
  | k + 1, t :: ts => skip (k + t.kids) ts

/-- `jeq` -/
def Tok.jeq (t : Tok) (s : Bytes) : Bool := t.type = .str && t.text = s

/-- The value under a key, among so many pairs; what follows it comes along. -/
def findKey (key : Bytes) : ℕ → List Tok → Option (List Tok)
  | 0, _ => none
  | k + 1, ts => if ts.head?.any (·.jeq key) then some ts.tail else findKey key k (skip 2 ts)

/-- `jfind` -/
def jfind (key : Bytes) : List Tok → Option (List Tok)
  | [] => none
  | t :: ts => if t.type = .obj then findKey key (t.size / 2) ts else none

/-- The values of a list, each with what follows it. -/
def elements : ℕ → List Tok → List (List Tok)
  | 0, _ => []
  | k + 1, ts => ts :: elements k (skip 1 ts)

/-- `jstr` into a buffer. -/
def jstr (cap : ℕ) : List Tok → Option Bytes
  | t :: _ => if t.type = .str then some (cstr (t.text.take (cap - 1))) else none
  | [] => none

/-- `jint`: the whole of a short primitive. -/
def jint (long : ℕ) : List Tok → Option ℤ
  | t :: _ =>
      if t.type = .prim ∧ t.text ≠ [] ∧ t.text.length < 32 then
        match readInt (cstr t.text) with
        | some (l, []) => some (clampLong long l)
        | some _ => none
        -- nothing to read, and nothing left behind
        | none => if cstr t.text = [] then some 0 else none
      else none
  | [] => none

theorem jint_prim {t : Tok} (h : t.type = .prim ∧ t.text ≠ [] ∧ t.text.length < 32) {l : ℤ}
    (hread : readInt (cstr t.text) = some (l, [])) (tail : List Tok) :
    jint long (t :: tail) = some (clampLong long l) := by
  rw [jint, if_pos h, hread]

/-- `jbool` -/
def jbool : List Tok → Option Bool
  | t :: _ =>
      if t.type = .prim ∧ t.text = "true".toList then some true
      else if t.type = .prim ∧ t.text = "false".toList then some false
      else none
  | [] => none

example : jsonParse 8 "\x7b\"a\":[1,2]\x7d".toList = some
    [⟨.obj, [], 2⟩, ⟨.str, ['a'], 0⟩, ⟨.arr, [], 2⟩, ⟨.prim, ['1'], 0⟩, ⟨.prim, ['2'], 0⟩] := rfl

end Waybeam.Tokens
