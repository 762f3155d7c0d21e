/-
# `Waybeam.EventStream` — reading a `text/event-stream`

The text is lines.  A line `data: …` adds to the message that is being put together, a blank line
dispatches it, a line that begins with a colon is a comment:

    data: first
    data: second
                    one message, of two lines
    :comment

The reader takes a character at a time, so what it makes of a text does not depend on how the
text arrived.  A `Block` is a message of one line, or a comment, with its blank line; of blocks
and a part of one more the reader makes the messages of the blocks (`messages_blocks`).
-/
import Waybeam.Machine

namespace Waybeam.EventStream

/-- Between two characters. -/
structure Reader where
  line : List Char := []
  /-- the last character was a CR, and the LF behind it ends the same line -/
  cr : Bool := false
  data : List (List Char) := []

/-- The value of a field line: what follows the colon, less one space. -/
def fieldValue (line : List Char) : List Char :=
  match line.dropWhile (· ≠ ':') with
  | ':' :: ' ' :: value => value
  | ':' :: value => value
  | _ => []

/-- A line has ended. -/
def Reader.endLine (r : Reader) : Reader × List (List Char) :=
  match r.line with
  | [] => ({ r with data := [] }, if r.data = [] then [] else [['\n'].intercalate r.data])
  | ':' :: _ => ({ r with line := [] }, [])
  | line =>
      if line.takeWhile (· ≠ ':') = "data".toList then
        ({ r with line := [], data := r.data ++ [fieldValue line] }, [])
      else ({ r with line := [] }, [])

/-- One character, and the messages it dispatches. -/
def Reader.char (r : Reader) (c : Char) : Reader × List (List Char) :=
  if c = '\n' ∧ r.cr then ({ r with cr := false }, [])
  else if c = '\n' ∨ c = '\r' then
    andThen r.endLine fun r => ({ r with cr := decide (c = '\r') }, [])
  else ({ r with line := r.line ++ [c], cr := false }, [])

/-- The messages of a text. -/
def messages (s : List Char) : List (List Char) := (each Reader.char s {}).2

/-- What a server sends at a time. -/
inductive Block where
  | message (data : List Char)
  | comment (text : List Char)

namespace Block

/-- The one line of it. -/
def line : Block → List Char
  | message data => "data: ".toList ++ data
  | comment text => ':' :: text

def text (b : Block) : List Char := b.line ++ ['\n', '\n']

def toMessage : Block → Option (List Char)
  | message data => some data
  | comment _ => none

/-- Of one line indeed. -/
def Plain (b : Block) : Prop := ∀ c ∈ b.line, c ≠ '\n' ∧ c ≠ '\r'

end Block

/-- A line is taken in character by character. -/
theorem each_char_plain {s : List Char} (h : ∀ c ∈ s, c ≠ '\n' ∧ c ≠ '\r') (line : List Char)
    (data : List (List Char)) :
    each Reader.char s ⟨line, false, data⟩ = (⟨line ++ s, false, data⟩, []) := by
  induction s generalizing line with
  | nil => rw [List.append_nil, each]
  | cons c s ih =>
      obtain ⟨⟨hlf, hcr⟩, hs⟩ := List.forall_mem_cons.mp h
      have hchar : Reader.char ⟨line, false, data⟩ c = (⟨line ++ [c], false, data⟩, []) := by
        rw [Reader.char, if_neg (fun hc => hlf hc.1), if_neg (not_or.mpr ⟨hlf, hcr⟩)]
      rw [each, hchar, andThen_pure, ih hs, List.append_assoc, List.singleton_append]

theorem takeWhile_data (s : List Char) :
    ("data: ".toList ++ s).takeWhile (· ≠ ':') = "data".toList := rfl

theorem fieldValue_data (s : List Char) : fieldValue ("data: ".toList ++ s) = s := rfl

/-- Up to its last character a block dispatches nothing. -/
theorem each_line {b : Block} (h : b.Plain) :
    each Reader.char (b.line ++ ['\n']) {} = (⟨[], false, b.toMessage.toList⟩, []) := by
  rw [each_append, each_char_plain h, andThen_pure, List.nil_append]
  cases b with
  | message data => rfl
  | comment text => rfl

theorem each_block {b : Block} (h : b.Plain) :
    each Reader.char b.text {} = ({}, b.toMessage.toList) := by
  have hsplit : b.text = (b.line ++ ['\n']) ++ ['\n'] := by simp [Block.text]
  rw [hsplit, each_append, each_line h, andThen_pure, each_singleton]
  cases b with
  | message data =>
      show (({} : Reader), [['\n'].intercalate [data]] ++ []) = _
      rw [List.intercalate_singleton]
      rfl
  | comment text => rfl

theorem messages_append (s t : List Char) : messages s <+: messages (s ++ t) := by
  rw [messages, messages, each_append]
  exact List.prefix_append ..

/-- Nor does a part of it. -/
theorem messages_part {b : Block} (h : b.Plain) {part : List Char} (hpart : part <+: b.text)
    (hne : part ≠ b.text) : messages part = [] := by
  have hsplit : b.text = (b.line ++ ['\n']) ++ ['\n'] := by simp [Block.text]
  obtain ⟨rest, hrest⟩ : part <+: b.line ++ ['\n'] := by
    rw [hsplit] at hpart hne
    rcases List.prefix_concat_iff.mp hpart with heq | hpre
    · exact absurd heq hne
    · exact hpre
  have hnone : messages (b.line ++ ['\n']) = [] := congrArg Prod.snd (each_line h)
  rw [← hrest] at hnone
  exact List.prefix_nil.mp (hnone ▸ messages_append part rest)

/-- Blocks, and a part of one more. -/
theorem messages_blocks {bs : List Block} (h : ∀ b ∈ bs, b.Plain) {part : List Char}
    (hpart : messages part = []) :
    messages (bs.flatMap Block.text ++ part) = bs.filterMap Block.toMessage := by
  induction bs with
  | nil => exact hpart
  | cons b bs ih =>
      obtain ⟨hb, hbs⟩ := List.forall_mem_cons.mp h
      rw [List.flatMap_cons, List.append_assoc, messages, each_append, each_block hb]
      show b.toMessage.toList ++ messages (bs.flatMap Block.text ++ part) = _
      rw [ih hbs]
      cases b <;> rfl

end Waybeam.EventStream
