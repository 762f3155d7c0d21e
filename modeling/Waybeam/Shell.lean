/-
# `Waybeam.Shell` — assignments, as a POSIX shell reads them

    name=word        one on a line
    # ...            a comment, to the end of the line

A word is put together from plain characters, from what stands between single quotes, as it is, and
from single characters behind a backslash.  A text with anything else in it, be it an operator, an
expansion or a second word, is none of assignments alone (`evaluate` is `none`).

A string in single quotes reads back as itself, whatever is in it (`reads_quote`).
-/
import Waybeam.Text
import Mathlib.Data.List.DropRight

namespace Waybeam.Shell

/-! ## Reading -/

/-- A character that stands for itself in a word. -/
def plain (c : Char) : Bool := c.isAlphanum || c = '_' || c = '-' || c = '.'

def nameStart (c : Char) : Bool := c.isAlpha || c = '_'

def nameChar (c : Char) : Bool := c.isAlphanum || c = '_'

/-- Where in a line the reader is; in a word it has the name and what there is of the value. -/
inductive Mode where
  | start
  | comment
  | name (acc : Bytes)
  | word (name value : Bytes)
  | quoted (name value : Bytes)
  | escaped (name value : Bytes)
  deriving DecidableEq, Repr

/-- The reader, and the assignments it has made. -/
structure Reader where
  done : List (Bytes × Bytes) := []
  mode : Mode := .start
  deriving DecidableEq, Repr

/-- A character. -/
def feed (r : Reader) (c : Char) : Option Reader :=
  match r.mode with
  | .start =>
      if c = '\n' ∨ c = ' ' ∨ c = '\t' then some r
      else if c = '#' then some { r with mode := .comment }
      else if nameStart c then some { r with mode := .name [c] }
      else none
  | .comment => some (if c = '\n' then { r with mode := .start } else r)
  | .name acc =>
      if c = '=' then some { r with mode := .word acc [] }
      else if nameChar c then some { r with mode := .name (acc ++ [c]) }
      -- a command
      else none
  | .word name value =>
      if c = '\x27' then some { r with mode := .quoted name value }
      else if c = '\\' then some { r with mode := .escaped name value }
      else if c = '\n' then some { done := r.done ++ [(name, value)], mode := .start }
      else if plain c then some { r with mode := .word name (value ++ [c]) }
      else none
  | .quoted name value =>
      if c = '\x27' then some { r with mode := .word name value }
      else some { r with mode := .quoted name (value ++ [c]) }
  | .escaped name value =>
      -- the end of a line is taken out
      if c = '\n' then some { r with mode := .word name value }
      else some { r with mode := .word name (value ++ [c]) }

/-- The end of the text. -/
def finish (r : Reader) : Option (List (Bytes × Bytes)) :=
  match r.mode with
  | .start | .comment => some r.done
  | .word name value => some (r.done ++ [(name, value)])
  | .name _ | .quoted .. | .escaped .. => none

/-- The assignments of a text that consists of them. -/
def evaluate (s : Bytes) : Option (List (Bytes × Bytes)) := (s.foldlM feed {}).bind finish

/-- What a command substitution takes over of an output. -/
def substituted (s : Bytes) : Bytes := s.rdropWhile (· = '\n')

example : evaluate "a=1\nb='x $y'\\''z'\n".toList =
    some [(['a'], ['1']), (['b'], "x $y'z".toList)] := by decide

example : evaluate "a=1; b=2\n".toList = none := by decide

/-! ## Words -/

/-- The word is read as the value. -/
def Reads (w value : Bytes) : Prop :=
  ∀ done name before, w.foldlM feed ⟨done, .word name before⟩ = some ⟨done, .word name (before ++ value)⟩

theorem reads_nil : Reads [] [] := by
  intro done name before
  rw [List.append_nil]
  rfl

theorem reads_append {w w' value value' : Bytes} (h : Reads w value) (h' : Reads w' value') :
    Reads (w ++ w') (value ++ value') := by
  intro done name before
  rw [List.foldlM_append, h, Option.bind_eq_bind, Option.bind_some, h', List.append_assoc]

theorem reads_plain {w : Bytes} (h : ∀ c ∈ w, plain c = true) : Reads w w := by
  induction w with
  | nil => exact reads_nil
  | cons c w ih =>
      have hc : Reads [c] [c] := by
        intro done name before
        have hplain := h c List.mem_cons_self
        have hquote : c ≠ '\x27' := by rintro rfl; exact absurd hplain (by decide)
        have hslash : c ≠ '\\' := by rintro rfl; exact absurd hplain (by decide)
        have hline : c ≠ '\n' := by rintro rfl; exact absurd hplain (by decide)
        show (feed _ c).bind some = _
        simp only [feed, hquote, hslash, hline, hplain, if_false, if_true, Option.bind_some]
      exact reads_append hc (ih fun d hd => h d (List.mem_cons_of_mem _ hd))

/-- A character as it stands between single quotes: a quote ends them and begins them anew. -/
def quoteChar (c : Char) : Bytes := if c = '\x27' then ['\x27', '\\', '\x27', '\x27'] else [c]

/-- The string as one word. -/
def quote (s : Bytes) : Bytes := '\x27' :: (s.flatMap quoteChar ++ ['\x27'])

/-- Whatever is quoted is read as it is. -/
theorem reads_quote (s : Bytes) : Reads (quote s) s := by
  have hinside : ∀ done name before,
      (s.flatMap quoteChar).foldlM feed ⟨done, .quoted name before⟩ =
        some ⟨done, .quoted name (before ++ s)⟩ := by
    intro done name
    induction s with
    | nil =>
        intro before
        rw [List.append_nil]
        rfl
    | cons c s ih =>
        intro before
        have hc : (quoteChar c).foldlM feed ⟨done, .quoted name before⟩ =
            some ⟨done, .quoted name (before ++ [c])⟩ := by
          by_cases hquote : c = '\x27'
          · subst hquote
            rfl
          · rw [quoteChar, if_neg hquote]
            show (feed _ c).bind some = _
            simp only [feed, hquote, if_false, Option.bind_some]
        rw [List.flatMap_cons, List.foldlM_append, hc, Option.bind_eq_bind, Option.bind_some, ih,
          List.append_assoc]
        rfl
  intro done name before
  have hopen : feed ⟨done, .word name before⟩ '\x27' = some ⟨done, .quoted name before⟩ := rfl
  rw [quote, List.foldlM_cons, hopen, Option.bind_eq_bind, Option.bind_some, List.foldlM_append, hinside]
  rfl

/-! ## Lines -/

/-- A name of a variable. -/
def isName : Bytes → Bool
  | [] => false
  | c :: s => nameStart c && s.all nameChar

/-- The assignment of a word. -/
def line (name w : Bytes) : Bytes := name ++ '=' :: (w ++ ['\n'])

theorem feed_name {name : Bytes} (h : isName name = true) (done : List (Bytes × Bytes)) :
    name.foldlM feed ⟨done, .start⟩ = some ⟨done, .name name⟩ := by
  have hrest : ∀ s acc : Bytes, s.all nameChar = true →
      s.foldlM feed ⟨done, .name acc⟩ = some ⟨done, .name (acc ++ s)⟩ := by
    intro s
    induction s with
    | nil =>
        intro acc _
        rw [List.append_nil]
        rfl
    | cons c s ih =>
        intro acc hs
        obtain ⟨hc, hs⟩ := Bool.and_eq_true_iff.mp (List.all_cons.symm.trans hs)
        have heq : c ≠ '=' := by rintro rfl; exact absurd hc (by decide)
        have hfeed : feed ⟨done, .name acc⟩ c = some ⟨done, .name (acc ++ [c])⟩ := by
          simp only [feed, heq, hc, if_false, if_true]
        rw [List.foldlM_cons, hfeed, Option.bind_eq_bind, Option.bind_some, ih _ hs, List.append_assoc]
        rfl
  cases name with
  | nil => cases h
  | cons c s =>
      obtain ⟨hc, hs⟩ := Bool.and_eq_true_iff.mp h
      have hblank : ¬(c = '\n' ∨ c = ' ' ∨ c = '\t') := by
        rintro (rfl | rfl | rfl) <;> exact absurd hc (by decide)
      have hhash : c ≠ '#' := by rintro rfl; exact absurd hc (by decide)
      have hfeed : feed ⟨done, .start⟩ c = some ⟨done, .name [c]⟩ := by
        simp only [feed, hblank, hhash, hc, if_false, if_true]
      rw [List.foldlM_cons, hfeed, Option.bind_eq_bind, Option.bind_some, hrest s [c] hs]
      rfl

/-- The assignment up to the end of its word. -/
theorem feed_word {name w value : Bytes} (hname : isName name = true) (hw : Reads w value)
    (done : List (Bytes × Bytes)) :
    (name ++ '=' :: w).foldlM feed ⟨done, .start⟩ = some ⟨done, .word name value⟩ := by
  have heq : feed ⟨done, .name name⟩ '=' = some ⟨done, .word name []⟩ := rfl
  rw [List.foldlM_append, feed_name hname, Option.bind_eq_bind, Option.bind_some, List.foldlM_cons, heq,
    Option.bind_eq_bind, Option.bind_some, hw, List.nil_append]

theorem feed_line {name w value : Bytes} (hname : isName name = true) (hw : Reads w value)
    (done : List (Bytes × Bytes)) :
    (line name w).foldlM feed ⟨done, .start⟩ = some ⟨done ++ [(name, value)], .start⟩ := by
  have hsplit : line name w = (name ++ '=' :: w) ++ ['\n'] := by simp [line]
  rw [hsplit, List.foldlM_append, feed_word hname hw]
  rfl

theorem feed_comment {s : Bytes} (h : '\n' ∉ s) (done : List (Bytes × Bytes)) :
    ('#' :: (s ++ ['\n'])).foldlM feed ⟨done, .start⟩ = some ⟨done, .start⟩ := by
  have hinside : s.foldlM feed ⟨done, .comment⟩ = some ⟨done, .comment⟩ := by
    induction s with
    | nil => rfl
    | cons c s ih =>
        have hc : c ≠ '\n' := fun hc => h (hc ▸ List.mem_cons_self)
        have hfeed : feed ⟨done, .comment⟩ c = some ⟨done, .comment⟩ := by
          simp only [feed, hc, if_false]
        rw [List.foldlM_cons, hfeed, Option.bind_eq_bind, Option.bind_some,
          ih fun hs => h (List.mem_cons_of_mem _ hs)]
  have hhash : feed ⟨done, .start⟩ '#' = some ⟨done, .comment⟩ := rfl
  rw [List.foldlM_cons, hhash, Option.bind_eq_bind, Option.bind_some, List.foldlM_append, hinside]
  rfl

/-- Lines are read one after the other. -/
theorem feed_lines {α : Type} {name w value : α → Bytes} {vars : List α}
    (hname : ∀ v ∈ vars, isName (name v) = true) (hw : ∀ v ∈ vars, Reads (w v) (value v))
    (done : List (Bytes × Bytes)) :
    (vars.flatMap fun v => line (name v) (w v)).foldlM feed ⟨done, .start⟩ =
      some ⟨done ++ vars.map fun v => (name v, value v), .start⟩ := by
  induction vars generalizing done with
  | nil =>
      rw [List.map_nil, List.append_nil]
      rfl
  | cons v vars ih =>
      rw [List.flatMap_cons, List.foldlM_append,
        feed_line (hname v List.mem_cons_self) (hw v List.mem_cons_self), Option.bind_eq_bind,
        Option.bind_some,
        ih (fun u hu => hname u (List.mem_cons_of_mem _ hu)) fun u hu => hw u (List.mem_cons_of_mem _ hu),
        List.map_cons, List.append_assoc]
      rfl

/-- A substitution takes the end of the last line off, where its word does not end in one. -/
theorem substituted_line {before name w : Bytes} {c : Char} (hc : c ≠ '\n') :
    substituted (before ++ line name (w ++ [c])) = before ++ (name ++ '=' :: (w ++ [c])) := by
  have hsplit : before ++ line name (w ++ [c]) = (before ++ (name ++ '=' :: w) ++ [c]) ++ ['\n'] := by
    simp [line]
  rw [substituted, hsplit, List.rdropWhile_concat_pos _ _ _ (by decide),
    List.rdropWhile_concat_neg _ _ _ (by simpa using hc)]
  simp

end Waybeam.Shell
