/-
# `Waybeam.Doc` — printed JSON documents

What a program prints with a fixed format is a tree: objects and lists around numbers and
plain strings, without a blank.  Two readers are run over the text below, and each finds the
tree again:

    the token list     `jsonParse_print`, and `jfind_toks` for a key
    a search for keys  `Ground.Stats.Skips.print`, in the module of that reader

Both are by induction on the tree.  A value is followed by a comma or a closing bracket, which
is what ends a number; so the statements are about a text and the character behind it.
-/
import Waybeam.Tokens

namespace Waybeam

open Text Tokens

/-- A document; numbers and strings are their texts. -/
inductive Doc where
  | prim (text : Bytes)
  | str (text : Bytes)
  | arr (items : List Doc)
  | obj (members : List (Bytes × Doc))

namespace Doc

/-- A text in quotes. -/
def quoted (s : Bytes) : Bytes := '"' :: (s ++ ['"'])

mutual

/-- The text of a document. -/
def print : Doc → Bytes
  | .prim s => s
  | .str s => quoted s
  | .arr [] => ['[', ']']
  | .arr (d :: ds) => '[' :: (print d ++ printItems ds)
  | .obj [] => ['\x7b', '\x7d']
  | .obj ((k, d) :: ms) => '\x7b' :: (quoted k ++ ':' :: (print d ++ printMembers ms))

/-- The rest of a list. -/
def printItems : List Doc → Bytes
  | [] => [']']
  | d :: ds => ',' :: (print d ++ printItems ds)

/-- The rest of an object. -/
def printMembers : List (Bytes × Doc) → Bytes
  | [] => ['\x7d']
  | (k, d) :: ms => ',' :: (quoted k ++ ':' :: (print d ++ printMembers ms))

end

/-- A character of a name or a number. -/
def plainChar (c : Char) : Bool := c.isAlphanum || c = '_' || c = '-' || c = '.'

/-- A text that no reader stumbles over. -/
def PlainText (s : Bytes) : Prop := ∀ c ∈ s, plainChar c = true

instance (s : Bytes) : Decidable (PlainText s) := inferInstanceAs (Decidable (∀ c ∈ s, _))

mutual

/-- All texts are plain, and a number has digits. -/
def Plain : Doc → Prop
  | .prim s => s ≠ [] ∧ PlainText s
  | .str s => PlainText s
  | .arr ds => PlainItems ds
  | .obj ms => PlainMembers ms

def PlainItems : List Doc → Prop
  | [] => True
  | d :: ds => Plain d ∧ PlainItems ds

def PlainMembers : List (Bytes × Doc) → Prop
  | [] => True
  | (k, d) :: ms => PlainText k ∧ Plain d ∧ PlainMembers ms

end

mutual

/-- The tokens of a document. -/
def toks : Doc → List Tok
  | .prim s => [{ type := .prim, text := s }]
  | .str s => [{ type := .str, text := s }]
  | .arr ds => { type := .arr, size := ds.length } :: toksItems ds
  | .obj ms => { type := .obj, size := 2 * ms.length } :: toksMembers ms

def toksItems : List Doc → List Tok
  | [] => []
  | d :: ds => toks d ++ toksItems ds

def toksMembers : List (Bytes × Doc) → List Tok
  | [] => []
  | (k, d) :: ms => { type := .str, text := k } :: (toks d ++ toksMembers ms)

end

/-- A text behind which a number ends. -/
def Stops (rest : Bytes) : Prop := rest.head?.any Parser.endsPrim = true

theorem head_of_stops {rest : Bytes} (h : Stops rest) : ∀ c ∈ rest.head?, plainChar c = false := by
  intro c hc
  rw [Stops, hc, Option.any_some] at h
  simp only [Parser.endsPrim, Bool.or_eq_true, decide_eq_true_eq] at h
  rcases h with (((((rfl | rfl) | rfl) | rfl) | rfl) | rfl) | rfl <;> decide

theorem stops_items (ds : List Doc) (rest : Bytes) : Stops (printItems ds ++ rest) := by
  cases ds with
  | nil => rfl
  | cons d ds => rfl

theorem stops_members (ms : List (Bytes × Doc)) (rest : Bytes) : Stops (printMembers ms ++ rest) := by
  cases ms with
  | nil => rfl
  | cons m ms => rfl

/-! ## Characters -/

section Chars

variable {c : Char} (hc : plainChar c = false) (hp : c ∉ "\"[]\x7b\x7d,:".toList)

include hc in
theorem notMem_plain {s : Bytes} (h : PlainText s) : c ∉ s := by
  intro hm
  rw [h c hm] at hc
  cases hc

include hc hp in
theorem notMem_quoted {s : Bytes} (h : PlainText s) : c ∉ quoted s := by
  have hq : c ≠ '"' := fun heq => hp (heq ▸ by decide)
  simp only [quoted, List.mem_cons, List.mem_append, List.not_mem_nil, or_false, not_or]
  exact ⟨hq, notMem_plain hc h, hq⟩

include hc hp in
mutual

/-- A document is made of its texts, brackets, commas, colons and quotes. -/
theorem notMem_print : ∀ (d : Doc), Plain d → c ∉ print d
  | .prim s, h => notMem_plain hc h.2
  | .str s, h => notMem_quoted hc hp h
  | .arr [], _ => fun hm => hp ((by decide : ['[', ']'] ⊆ "\"[]\x7b\x7d,:".toList) hm)
  | .arr (d :: ds), h => by
      have hopen : c ≠ '[' := fun heq => hp (heq ▸ by decide)
      rw [print, List.mem_cons, List.mem_append, not_or, not_or]
      exact ⟨hopen, notMem_print d h.1, notMem_items ds h.2⟩
  | .obj [], _ => fun hm => hp ((by decide : ['\x7b', '\x7d'] ⊆ "\"[]\x7b\x7d,:".toList) hm)
  | .obj ((k, d) :: ms), h => by
      have hopen : c ≠ '\x7b' := fun heq => hp (heq ▸ by decide)
      have hcolon : c ≠ ':' := fun heq => hp (heq ▸ by decide)
      rw [print, List.mem_cons, List.mem_append, List.mem_cons, List.mem_append]
      simp only [not_or]
      exact ⟨hopen, notMem_quoted hc hp h.1, hcolon, notMem_print d h.2.1, notMem_members ms h.2.2⟩

theorem notMem_items : ∀ (ds : List Doc), PlainItems ds → c ∉ printItems ds
  | [], _ => fun hm => hp ((by decide : [']'] ⊆ "\"[]\x7b\x7d,:".toList) hm)
  | d :: ds, h => by
      have hcomma : c ≠ ',' := fun heq => hp (heq ▸ by decide)
      rw [printItems, List.mem_cons, List.mem_append, not_or, not_or]
      exact ⟨hcomma, notMem_print d h.1, notMem_items ds h.2⟩

theorem notMem_members : ∀ (ms : List (Bytes × Doc)), PlainMembers ms → c ∉ printMembers ms
  | [], _ => fun hm => hp ((by decide : ['\x7d'] ⊆ "\"[]\x7b\x7d,:".toList) hm)
  | (k, d) :: ms, h => by
      have hcomma : c ≠ ',' := fun heq => hp (heq ▸ by decide)
      have hcolon : c ≠ ':' := fun heq => hp (heq ▸ by decide)
      rw [printMembers, List.mem_cons, List.mem_append, List.mem_cons, List.mem_append]
      simp only [not_or]
      exact ⟨hcomma, notMem_quoted hc hp h.1, hcolon, notMem_print d h.2.1, notMem_members ms h.2.2⟩

end

end Chars

/-! ## The token reader -/

section Reader

variable {max : ℕ}

/-- The reader between tokens, inside these containers. -/
abbrev at' (ts : List Tok) (super : List ℕ) : Parser := { toks := ts, super }

/-- The tokens with one more child of the innermost container. -/
def bump (ts : List Tok) : List ℕ → List Tok
  | [] => ts
  | s :: _ => ts.modify s fun t => { t with size := t.size + 1 }

@[simp] theorem bump_length (ts : List Tok) (super : List ℕ) : (bump ts super).length = ts.length := by
  cases super with
  | nil => rfl
  | cons s super => exact List.length_modify ..

theorem alloc_eq (ts : List Tok) (super : List ℕ) (mode : Mode) (t : Tok) :
    Parser.alloc max { toks := ts, super, mode } t =
      if ts.length < max then some (at' (bump ts super ++ [t]) super) else none := by
  rw [Parser.alloc]
  cases super with
  | nil => rfl
  | cons s super => rfl

/-- A plain text runs through a number. -/
theorem feed_prim {s : Bytes} (h : PlainText s) (acc : Bytes) (ts : List Tok) (super : List ℕ)
    (rest : Bytes) :
    (s ++ rest).foldlM (Parser.feed max) { toks := ts, super, mode := .prim acc } =
      rest.foldlM (Parser.feed max) { toks := ts, super, mode := .prim (acc ++ s) } := by
  induction s generalizing acc with
  | nil => rw [List.nil_append, List.append_nil]
  | cons c s ih =>
      obtain ⟨hc, hs⟩ := List.forall_mem_cons.mp h
      have hno : Parser.endsPrim c = false := by
        rw [Bool.eq_false_iff]
        intro hend
        simp only [Parser.endsPrim, Bool.or_eq_true, decide_eq_true_eq] at hend
        rcases hend with (((((rfl | rfl) | rfl) | rfl) | rfl) | rfl) | rfl <;> exact absurd hc (by decide)
      rw [List.cons_append, List.foldlM_cons]
      simp only [Parser.feed, hno, Bool.false_eq_true, if_false]
      refine (ih hs (acc ++ [c])).trans ?_
      rw [List.append_assoc, List.singleton_append]

/-- A plain text runs through a string, up to its closing quote. -/
theorem feed_str {s : Bytes} (h : PlainText s) (acc : Bytes) (ts : List Tok) (super : List ℕ)
    (rest : Bytes) :
    (s ++ '"' :: rest).foldlM (Parser.feed max) { toks := ts, super, mode := .str acc false } =
      if ts.length < max then
        rest.foldlM (Parser.feed max) (at' (bump ts super ++ [{ type := .str, text := acc ++ s }]) super)
      else none := by
  induction s generalizing acc with
  | nil =>
      rw [List.nil_append, List.foldlM_cons, List.append_nil]
      simp only [Parser.feed, if_true, alloc_eq]
      split
      · rfl
      · rfl
  | cons c s ih =>
      obtain ⟨hc, hs⟩ := List.forall_mem_cons.mp h
      have hquote : c ≠ '"' := by
        rintro rfl
        exact absurd hc (by decide)
      have hslash : decide (c = '\\') = false := by
        rw [decide_eq_false_iff_not]
        rintro rfl
        exact absurd hc (by decide)
      rw [List.cons_append, List.foldlM_cons]
      simp only [Parser.feed, if_neg hquote, hslash]
      refine (ih hs (acc ++ [c])).trans ?_
      rw [List.append_assoc, List.singleton_append]

/-- A string in quotes is one token. -/
theorem feed_quoted {s : Bytes} (h : PlainText s) (ts : List Tok) (super : List ℕ) (rest : Bytes) :
    (quoted s ++ rest).foldlM (Parser.feed max) (at' ts super) =
      if ts.length < max then
        rest.foldlM (Parser.feed max) (at' (bump ts super ++ [{ type := .str, text := s }]) super)
      else none := by
  have hshape : quoted s ++ rest = '"' :: (s ++ '"' :: rest) := by
    rw [quoted, List.cons_append, List.append_assoc, List.singleton_append]
  rw [hshape, List.foldlM_cons]
  exact feed_str h [] ts super rest

/-- Between tokens a plain character starts a number. -/
theorem feedTop_plain {c : Char} (hc : plainChar c = true) (p : Parser) :
    p.feedTop max c = some { p with mode := .prim [c] } := by
  have hne : ∀ d, plainChar d = false → c ≠ d := by
    rintro d hd rfl
    rw [hc] at hd
    cases hd
  rw [Parser.feedTop]
  simp only [if_neg (hne _ (by decide : plainChar '\x7b' = false)),
    if_neg (hne _ (by decide : plainChar '[' = false)),
    if_neg (hne _ (by decide : plainChar '\x7d' = false)),
    if_neg (hne _ (by decide : plainChar ']' = false)),
    if_neg (hne _ (by decide : plainChar '"' = false)),
    hne _ (by decide : plainChar ' ' = false), hne _ (by decide : plainChar '\t' = false),
    hne _ (by decide : plainChar '\n' = false), hne _ (by decide : plainChar '\r' = false),
    hne _ (by decide : plainChar ':' = false), hne _ (by decide : plainChar ',' = false),
    decide_false, Bool.or_self, Bool.false_eq_true, if_false]

/-- A container that is opened is one more token, and its children come next. -/
theorem open_eq (ts : List Tok) (super : List ℕ) (type : TokType) :
    Parser.openContainer max (at' ts super) type =
      if ts.length < max then some (at' (bump ts super ++ [{ type := type }]) (ts.length :: super))
      else none := by
  rw [Parser.openContainer, alloc_eq]
  by_cases hroom : ts.length < max
  · rw [if_pos hroom, if_pos hroom]
    rfl
  · rw [if_neg hroom, if_neg hroom]
    rfl

theorem close_eq (A B : List Tok) (super : List ℕ) (t : Tok) :
    Parser.closeContainer (at' (A ++ t :: B) (A.length :: super)) t.type =
      some (at' (A ++ t :: B) super) := by
  rw [Parser.closeContainer]
  have ht : (A ++ t :: B)[A.length]? = some t := by simp
  simp only [ht, Option.any_some, decide_true, if_true]

/-- A comma or a colon makes no difference. -/
theorem feed_sep {c : Char} (hc : c = ',' ∨ c = ':') (ts : List Tok) (super : List ℕ) (rest : Bytes) :
    (c :: rest).foldlM (Parser.feed max) (at' ts super) = rest.foldlM (Parser.feed max) (at' ts super) := by
  rcases hc with rfl | rfl
  · rfl
  · rfl

theorem feed_close_arr (A B : List Tok) (super : List ℕ) (k : ℕ) (rest : Bytes) :
    (']' :: rest).foldlM (Parser.feed max) (at' (A ++ { type := .arr, size := k } :: B) (A.length :: super)) =
      rest.foldlM (Parser.feed max) (at' (A ++ { type := .arr, size := k } :: B) super) := by
  have hclose : Parser.feed max (at' (A ++ { type := .arr, size := k } :: B) (A.length :: super)) ']'
      = some (at' (A ++ { type := .arr, size := k } :: B) super) :=
    close_eq A B super { type := .arr, size := k }
  rw [List.foldlM_cons, hclose]
  rfl

theorem feed_close_obj (A B : List Tok) (super : List ℕ) (k : ℕ) (rest : Bytes) :
    ('\x7d' :: rest).foldlM (Parser.feed max) (at' (A ++ { type := .obj, size := k } :: B) (A.length :: super)) =
      rest.foldlM (Parser.feed max) (at' (A ++ { type := .obj, size := k } :: B) super) := by
  have hclose : Parser.feed max (at' (A ++ { type := .obj, size := k } :: B) (A.length :: super)) '\x7d'
      = some (at' (A ++ { type := .obj, size := k } :: B) super) :=
    close_eq A B super { type := .obj, size := k }
  rw [List.foldlM_cons, hclose]
  rfl

theorem bump_eq (A B : List Tok) (super : List ℕ) (t : Tok) :
    bump (A ++ t :: B) (A.length :: super) = A ++ { t with size := t.size + 1 } :: B := by
  induction A with
  | nil => rfl
  | cons a A ih => exact congrArg (a :: ·) ih

/-- A number ends where the text stops. -/
theorem feed_stop {rest : Bytes} (h : Stops rest) (acc : Bytes) (ts : List Tok) (super : List ℕ) :
    rest.foldlM (Parser.feed max) { toks := ts, super, mode := .prim acc } =
      if ts.length < max then
        rest.foldlM (Parser.feed max) (at' (bump ts super ++ [{ type := .prim, text := acc }]) super)
      else none := by
  cases rest with
  | nil => cases h
  | cons c rest =>
      have hc : Parser.endsPrim c = true := h
      rw [List.foldlM_cons]
      simp only [Parser.feed, hc, if_true, alloc_eq]
      by_cases hroom : ts.length < max
      · rw [if_pos hroom, if_pos hroom]
        rfl
      · rw [if_neg hroom, if_neg hroom]
        rfl

/-- Room for the one, then for the other. -/
theorem room_then {α : Type} {p q r : Prop} [Decidable p] [Decidable q] [Decidable r]
    (h : r ↔ p ∧ q) (x : Option α) : (if p then if q then x else none else none) = if r then x else none := by
  by_cases hp : p
  · rw [if_pos hp]
    by_cases hq : q
    · rw [if_pos hq, if_pos (h.mpr ⟨hp, hq⟩)]
    · rw [if_neg hq, if_neg fun hr => hq (h.mp hr).2]
  · rw [if_neg hp, if_neg fun hr => hp (h.mp hr).1]

theorem bind_room {α β : Type} {p : Prop} [Decidable p] (x : α) (k : α → Option β) :
    (if p then some x else none).bind k = if p then k x else none := by
  split
  · rfl
  · rfl

theorem toks_pos (d : Doc) : 0 < (toks d).length := by
  cases d with
  | prim s => exact Nat.one_pos
  | str s => exact Nat.one_pos
  | arr ds => exact Nat.succ_pos _
  | obj ms => exact Nat.succ_pos _

mutual

/-- The reader makes a document's tokens of its text, if there is room. -/
theorem feed_print : ∀ (d : Doc), Plain d → ∀ (ts : List Tok) (super : List ℕ) (rest : Bytes),
    Stops rest →
    (print d ++ rest).foldlM (Parser.feed max) (at' ts super) =
      if ts.length + (toks d).length ≤ max then
        rest.foldlM (Parser.feed max) (at' (bump ts super ++ toks d) super)
      else none
  | .prim [], h, _, _, _, _ => absurd rfl h.1
  | .prim (a :: s), h, ts, super, rest, hstop => by
      obtain ⟨ha, hs⟩ := List.forall_mem_cons.mp h.2
      rw [print, List.cons_append, List.foldlM_cons]
      have hstart : Parser.feed max (at' ts super) a = some { toks := ts, super, mode := .prim [a] } :=
        feedTop_plain ha _
      rw [hstart]
      exact (feed_prim hs [a] ts super rest).trans (feed_stop hstop _ ts super)
  | .str s, h, ts, super, rest, _ => feed_quoted h ts super rest
  | .arr [], _, ts, super, rest, _ => by
      show (Parser.openContainer max (at' ts super) .arr).bind _ = _
      rw [open_eq, bind_room]
      have hclose := @feed_close_arr max (bump ts super) [] super 0 rest
      rw [bump_length] at hclose
      exact congrArg (fun r => if ts.length < max then r else none) hclose
  | .arr (d :: ds), h, ts, super, rest, _ => by
      rw [print, List.cons_append, List.append_assoc]
      show (Parser.openContainer max (at' ts super) .arr).bind _ = _
      rw [open_eq, bind_room, feed_print d h.1 _ _ _ (stops_items ds rest)]
      have hbump := bump_eq (bump ts super) [] super { type := .arr }
      have hitems := feed_items ds h.2 (bump ts super) 1 (toks d) super rest
      rw [bump_length] at hbump hitems
      rw [hbump, List.append_assoc, List.cons_append, List.nil_append, hitems, room_then Iff.rfl,
        Nat.add_comm 1 ds.length]
      refine room_then ?_ _
      simp only [toks, toksItems, List.length_append, bump_length, List.length_cons, List.length_nil]
      omega
  | .obj [], _, ts, super, rest, _ => by
      show (Parser.openContainer max (at' ts super) .obj).bind _ = _
      rw [open_eq, bind_room]
      have hclose := @feed_close_obj max (bump ts super) [] super 0 rest
      rw [bump_length] at hclose
      exact congrArg (fun r => if ts.length < max then r else none) hclose
  | .obj ((k, d) :: ms), h, ts, super, rest, _ => by
      rw [print, List.cons_append, List.append_assoc, List.cons_append, List.append_assoc]
      show (Parser.openContainer max (at' ts super) .obj).bind _ = _
      rw [open_eq, bind_room, feed_quoted h.1, feed_sep (.inr rfl), feed_print d h.2.1 _ _ _ (stops_members ms rest)]
      have hkey := bump_eq (bump ts super) [] super { type := .obj }
      have hval := bump_eq (bump ts super) [{ type := .str, text := k }] super { type := .obj, size := 1 }
      have hrest := feed_members ms h.2.2 (bump ts super) 2
        ({ type := .str, text := k } :: toks d) super rest
      rw [bump_length] at hkey hval hrest
      rw [hkey, List.append_assoc, List.cons_append, List.nil_append, hval, List.append_assoc,
        List.cons_append, List.cons_append, List.nil_append, hrest, room_then Iff.rfl, room_then Iff.rfl,
        Nat.add_comm 2]
      refine room_then ?_ _
      simp only [toks, toksMembers, List.length_append, bump_length, List.length_cons, List.length_nil]
      omega

theorem feed_items : ∀ (ds : List Doc), PlainItems ds → ∀ (A : List Tok) (k : ℕ) (B : List Tok)
    (super : List ℕ) (rest : Bytes),
    (printItems ds ++ rest).foldlM (Parser.feed max)
        (at' (A ++ { type := .arr, size := k } :: B) (A.length :: super)) =
      if (toksItems ds).length = 0 ∨ A.length + 1 + B.length + (toksItems ds).length ≤ max then
        rest.foldlM (Parser.feed max)
          (at' (A ++ { type := .arr, size := k + ds.length } :: (B ++ toksItems ds)) super)
      else none
  | [], _, A, k, B, super, rest => by
      rw [toksItems, List.append_nil, if_pos (.inl rfl)]
      exact feed_close_arr A B super k rest
  | d :: ds, h, A, k, B, super, rest => by
      rw [printItems, List.cons_append, List.append_assoc, feed_sep (.inl rfl),
        feed_print d h.1 _ _ _ (stops_items ds rest)]
      have hitems := feed_items ds h.2 A (k + 1) (B ++ toks d) super rest
      rw [bump_eq A B super { type := .arr, size := k }, List.append_assoc, List.cons_append, hitems,
        toksItems, List.append_assoc, List.length_cons, Nat.add_assoc k, Nat.add_comm 1]
      refine room_then ?_ _
      have hpos := toks_pos d
      simp only [List.length_append, List.length_cons]
      omega

theorem feed_members : ∀ (ms : List (Bytes × Doc)), PlainMembers ms → ∀ (A : List Tok) (k : ℕ)
    (B : List Tok) (super : List ℕ) (rest : Bytes),
    (printMembers ms ++ rest).foldlM (Parser.feed max)
        (at' (A ++ { type := .obj, size := k } :: B) (A.length :: super)) =
      if (toksMembers ms).length = 0 ∨ A.length + 1 + B.length + (toksMembers ms).length ≤ max then
        rest.foldlM (Parser.feed max)
          (at' (A ++ { type := .obj, size := k + 2 * ms.length } :: (B ++ toksMembers ms)) super)
      else none
  | [], _, A, k, B, super, rest => by
      rw [toksMembers, List.append_nil, if_pos (.inl rfl)]
      exact feed_close_obj A B super k rest
  | (key, d) :: ms, h, A, k, B, super, rest => by
      rw [printMembers, List.cons_append, List.append_assoc, List.cons_append, List.append_assoc,
        feed_sep (.inl rfl), feed_quoted h.1, feed_sep (.inr rfl),
        feed_print d h.2.1 _ _ _ (stops_members ms rest)]
      have hkey := bump_eq A B super { type := .obj, size := k }
      have hval := bump_eq A (B ++ [{ type := .str, text := key }]) super { type := .obj, size := k + 1 }
      have hrest := feed_members ms h.2.2 A (k + 1 + 1) (B ++ { type := .str, text := key } :: toks d)
        super rest
      have hsize : k + 1 + 1 + 2 * ms.length = k + 2 * ((key, d) :: ms).length := by
        rw [List.length_cons]
        omega
      rw [hkey, List.append_assoc, List.cons_append, hval, List.append_assoc, List.cons_append,
        List.append_assoc, List.singleton_append, hrest, room_then Iff.rfl, toksMembers,
        List.append_assoc, List.cons_append, hsize]
      refine room_then ?_ _
      simp only [List.length_append, List.length_cons, List.length_nil]
      omega

end

/-- A line with a printed document is read back as the document's tokens, if there is room. -/
theorem jsonParse_print {d : Doc} (h : Plain d) :
    jsonParse max (print d ++ ['\n']) = if (toks d).length ≤ max then some (toks d) else none := by
  have hprint := @feed_print max d h [] [] ['\n'] rfl
  rw [List.length_nil, Nat.zero_add] at hprint
  rw [jsonParse]
  show (List.foldlM (Parser.feed max) (at' [] []) (print d ++ ['\n'])).bind _ = _
  rw [hprint]
  split
  · rfl
  · rfl

end Reader

/-! ## Walking over the tokens -/

mutual

theorem skip_toks : ∀ (d : Doc) (k : ℕ) (rest : List Tok), skip (k + 1) (toks d ++ rest) = skip k rest
  | .prim s, k, rest => rfl
  | .str s, k, rest => rfl
  | .arr ds, k, rest => skip_items ds k rest
  | .obj ms, k, rest => by
      have hkids : 2 * (2 * ms.length / 2) = 2 * ms.length := by omega
      show skip (k + 2 * (2 * ms.length / 2)) _ = _
      rw [hkids]
      exact skip_members ms k rest

theorem skip_items : ∀ (ds : List Doc) (k : ℕ) (rest : List Tok),
    skip (k + ds.length) (toksItems ds ++ rest) = skip k rest
  | [], k, rest => rfl
  | d :: ds, k, rest => by
      rw [toksItems, List.append_assoc, List.length_cons, ← Nat.add_assoc, skip_toks d, skip_items ds]

theorem skip_members : ∀ (ms : List (Bytes × Doc)) (k : ℕ) (rest : List Tok),
    skip (k + 2 * ms.length) (toksMembers ms ++ rest) = skip k rest
  | [], k, rest => rfl
  | (key, d) :: ms, k, rest => by
      have hsize : k + 2 * ((key, d) :: ms).length = k + 2 * ms.length + 1 + 1 := by
        rw [List.length_cons]
        omega
      rw [toksMembers, hsize, List.cons_append, List.append_assoc]
      show skip (k + 2 * ms.length + 1 + 0) _ = _
      rw [Nat.add_zero, skip_toks d, skip_members ms]

end

/-- The value under a key that comes first. -/
theorem jfind_toks {ms : List (Bytes × Doc)} {key : Bytes} {d : Doc} {rest' : List (Bytes × Doc)}
    (h : ms.dropWhile (fun m => m.1 ≠ key) = (key, d) :: rest') (rest : List Tok) :
    jfind key (toks (.obj ms) ++ rest) = some (toks d ++ (toksMembers rest' ++ rest)) := by
  have hfind : ∀ ms : List (Bytes × Doc), ms.dropWhile (fun m => m.1 ≠ key) = (key, d) :: rest' →
      findKey key ms.length (toksMembers ms ++ rest) = some (toks d ++ (toksMembers rest' ++ rest)) := by
    intro ms
    induction ms with
    | nil => exact fun h => absurd h (List.cons_ne_nil _ _).symm
    | cons m ms ih =>
        obtain ⟨k, e⟩ := m
        intro h
        rw [toksMembers, List.length_cons, findKey]
        by_cases hk : k = key
        · rw [List.dropWhile_cons_of_neg (by simpa using hk)] at h
          obtain ⟨hm, rfl⟩ := List.cons.inj h
          obtain ⟨rfl, rfl⟩ := Prod.mk.inj hm
          rw [if_pos (by simp [Tok.jeq])]
          show some ((toks e ++ toksMembers ms) ++ rest) = _
          rw [List.append_assoc]
        · rw [List.dropWhile_cons_of_pos (by simpa using hk)] at h
          rw [if_neg (by simp [Tok.jeq, hk])]
          show findKey key ms.length (skip (1 + 0) ((toks e ++ toksMembers ms) ++ rest)) = _
          rw [List.append_assoc, skip_toks e, skip]
          exact ih h
  show findKey key (2 * ms.length / 2) (toksMembers ms ++ rest) = _
  rw [Nat.mul_div_cancel_left _ Nat.two_pos]
  exact hfind ms h

/-- The value under any key, where no key is there twice. -/
theorem jfind_mem {ms : List (Bytes × Doc)} (hnodup : (ms.map Prod.fst).Nodup) {key : Bytes} {d : Doc}
    (h : (key, d) ∈ ms) (rest : List Tok) : ∃ tail, jfind key (toks (.obj ms) ++ rest) = some (toks d ++ tail) := by
  obtain ⟨before, after, rfl⟩ := List.append_of_mem h
  have hother : ∀ m ∈ before, decide (m.1 ≠ key) = true := by
    intro m hm
    rw [List.map_append, List.nodup_append] at hnodup
    exact decide_eq_true (hnodup.2.2 _ (List.mem_map_of_mem hm) _ List.mem_cons_self)
  have hdrop : (before ++ (key, d) :: after).dropWhile (fun m => m.1 ≠ key) = (key, d) :: after := by
    rw [List.dropWhile_append_of_pos hother, List.dropWhile_cons_of_neg (by simp)]
  exact ⟨_, jfind_toks hdrop rest⟩

/-- The elements of a list, as far as a reader looks at nothing behind a value. -/
theorem map_elements {α β : Type} {doc : α → Doc} {f : List Tok → β} {g : α → β} (xs : List α)
    (hf : ∀ x ∈ xs, ∀ tail, f (toks (doc x) ++ tail) = g x) (rest : List Tok) :
    (elements xs.length (toksItems (xs.map doc) ++ rest)).map f = xs.map g := by
  induction xs with
  | nil => rfl
  | cons x xs ih =>
      obtain ⟨hx, hxs⟩ := List.forall_mem_cons.mp hf
      rw [List.map_cons, toksItems, List.append_assoc, List.length_cons, elements, List.map_cons, hx,
        List.map_cons, skip_toks (doc x), skip, ih hxs]

end Doc

end Waybeam
