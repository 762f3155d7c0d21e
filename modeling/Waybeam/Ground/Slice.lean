/-
# `Waybeam.Ground.Slice` — the pickers on printed documents

The supervisor looks for keys in bytes and counts brackets.  On the text of a document
(`Waybeam.Doc`) it finds what a parser would find:

    a key         under the first member of that name, if no text before it is the same
    an object     up to the bracket that closes it
    a list        its objects, one by one

The names and strings of such a document have no quotes and no brackets in them.
-/
import Waybeam.Doc
import Waybeam.Ground.Stats

namespace Waybeam.Ground.Stats

open Text Doc

/-! ## Searches for a name -/

/-- Two plain texts in front of a quote. -/
theorem eq_of_prefix_quote {s t rest : Bytes} (hs : PlainText s) (ht : PlainText t)
    (h : s ++ ['"'] <+: t ++ '"' :: rest) : s = t := by
  induction s generalizing t with
  | nil =>
      cases t with
      | nil => rfl
      | cons c t =>
          obtain ⟨rfl, -⟩ := List.cons_prefix_cons.mp h
          exact absurd (ht _ List.mem_cons_self) (by decide)
  | cons a s ih =>
      cases t with
      | nil =>
          obtain ⟨rfl, -⟩ := List.cons_prefix_cons.mp h
          exact absurd (hs _ List.mem_cons_self) (by decide)
      | cons c t =>
          obtain ⟨rfl, htail⟩ := List.cons_prefix_cons.mp h
          rw [ih (List.forall_mem_cons.mp hs).2 (List.forall_mem_cons.mp ht).2 htail]

mutual

/-- What stands in quotes in a document. -/
def texts : Doc → List Bytes
  | .prim _ => []
  | .str s => [s]
  | .arr ds => textsItems ds
  | .obj ms => textsMembers ms

def textsItems : List Doc → List Bytes
  | [] => []
  | d :: ds => texts d ++ textsItems ds

def textsMembers : List (Bytes × Doc) → List Bytes
  | [] => []
  | (k, d) :: ms => k :: (texts d ++ textsMembers ms)

end

/-- A search that goes past everything but the name in quotes. -/
def Skips {α : Type} (key : Bytes) (f : Bytes → α) : Prop :=
  ∀ c s, ¬quoted key <+: c :: s → f (c :: s) = f s

namespace Skips

variable {α : Type} {key : Bytes} {f : Bytes → α} (hf : Skips key f)

include hf in
theorem other {c : Char} (hc : c ≠ '"') (s : Bytes) : f (c :: s) = f s :=
  hf c s fun h => hc (List.cons_prefix_cons.mp h).1.symm

include hf in
theorem plain {t : Bytes} (h : PlainText t) (rest : Bytes) : f (t ++ rest) = f rest := by
  induction t with
  | nil => rfl
  | cons c t ih =>
      obtain ⟨hc, ht⟩ := List.forall_mem_cons.mp h
      have hquote : c ≠ '"' := by
        rintro rfl
        exact absurd hc (by decide)
      rw [List.cons_append, hf.other hquote, ih ht]

variable (hkey : PlainText key) (hne : key ≠ [])

include hf hkey hne in
/-- Another name, or a string, is not the one. -/
theorem quoted {s rest : Bytes} (hs : PlainText s) (hother : s ≠ key)
    (hrest : ∀ c ∈ rest.head?, plainChar c = false) : f (Doc.quoted s ++ rest) = f rest := by
  have hshape : Doc.quoted s ++ rest = '"' :: (s ++ '"' :: rest) := by
    rw [Doc.quoted, List.cons_append, List.append_assoc, List.singleton_append]
  have hopen : ¬Doc.quoted key <+: '"' :: (s ++ '"' :: rest) :=
    fun h => hother (eq_of_prefix_quote hkey hs (List.cons_prefix_cons.mp h).2).symm
  have hclose : ¬Doc.quoted key <+: '"' :: rest := by
    intro h
    have hpre := (List.cons_prefix_cons.mp h).2
    cases key with
    | nil => exact hne rfl
    | cons k key =>
        cases rest with
        | nil => exact absurd (List.prefix_nil.mp hpre) (List.cons_ne_nil _ _)
        | cons c rest =>
            obtain ⟨rfl, -⟩ := List.cons_prefix_cons.mp hpre
            have hplain := hkey _ List.mem_cons_self
            rw [hrest k rfl] at hplain
            cases hplain
  rw [hshape, hf _ _ hopen, hf.plain hs, hf _ _ hclose]

include hf hkey hne in
mutual

/-- A document without the name. -/
theorem print : ∀ (d : Doc), Plain d → key ∉ texts d → ∀ rest, Stops rest →
    f (Doc.print d ++ rest) = f rest
  | .prim s, h, _, rest, _ => hf.plain h.2 rest
  | .str s, h, hno, rest, hstop =>
      hf.quoted hkey hne h (fun heq => hno (heq ▸ List.mem_singleton_self _)) (head_of_stops hstop)
  | .arr [], _, _, rest, _ => by
      show f ('[' :: ']' :: rest) = _
      rw [hf.other (by decide), hf.other (by decide)]
  | .arr (d :: ds), h, hno, rest, _ => by
      have hitems := items (d :: ds) h hno rest
      rw [printItems, List.cons_append, hf.other (by decide)] at hitems
      rw [Doc.print, List.cons_append, hf.other (by decide), hitems]
  | .obj [], _, _, rest, _ => by
      show f ('\x7b' :: '\x7d' :: rest) = _
      rw [hf.other (by decide), hf.other (by decide)]
  | .obj ((k, d) :: ms), h, hno, rest, _ => by
      have hmembers := members ((k, d) :: ms) h hno rest
      rw [printMembers, List.cons_append, hf.other (by decide)] at hmembers
      rw [Doc.print, List.cons_append, hf.other (by decide), hmembers]

theorem items : ∀ (ds : List Doc), PlainItems ds → key ∉ textsItems ds → ∀ rest,
    f (printItems ds ++ rest) = f rest
  | [], _, _, rest => hf.other (by decide) rest
  | d :: ds, h, hno, rest => by
      rw [textsItems, List.mem_append, not_or] at hno
      rw [printItems, List.cons_append, List.append_assoc, hf.other (by decide),
        print d h.1 hno.1 _ (stops_items ds rest), items ds h.2 hno.2 rest]

theorem members : ∀ (ms : List (Bytes × Doc)), PlainMembers ms → key ∉ textsMembers ms →
    ∀ rest, f (printMembers ms ++ rest) = f rest
  | [], _, _, rest => hf.other (by decide) rest
  | (k, d) :: ms, h, hno, rest => by
      rw [textsMembers, List.mem_cons, List.mem_append, not_or, not_or] at hno
      rw [printMembers, List.cons_append, List.append_assoc, List.cons_append, List.append_assoc,
        hf.other (by decide),
        hf.quoted hkey hne h.1 (Ne.symm hno.1) (fun c hc => by cases hc; decide),
        hf.other (by decide), print d h.2.1 hno.2.1 _ (stops_members ms rest),
        members ms h.2.2 hno.2.2 rest]

end

include hf hkey hne in
/-- Up to a member, where the name is not in what comes before. -/
theorem upTo {pre post : List (Bytes × Doc)} {k : Bytes} {d : Doc} (rest : Bytes)
    (hno : key ∉ textsMembers pre) (h : PlainMembers (pre ++ (k, d) :: post)) :
    f (Doc.print (.obj (pre ++ (k, d) :: post)) ++ rest) =
      f (Doc.quoted k ++ ':' :: (Doc.print d ++ (printMembers post ++ rest))) := by
  have hmembers : ∀ pre, PlainMembers (pre ++ (k, d) :: post) → key ∉ textsMembers pre →
      f (printMembers (pre ++ (k, d) :: post) ++ rest) =
        f (Doc.quoted k ++ ':' :: (Doc.print d ++ (printMembers post ++ rest))) := by
    intro pre
    induction pre with
    | nil =>
        intro _ _
        rw [List.nil_append, printMembers, List.cons_append, List.append_assoc, List.cons_append,
          List.append_assoc, hf.other (by decide)]
    | cons m pre ih =>
        obtain ⟨k', e⟩ := m
        intro h hno
        rw [textsMembers, List.mem_cons, List.mem_append, not_or, not_or] at hno
        rw [List.cons_append, printMembers, List.cons_append, List.append_assoc, List.cons_append,
          List.append_assoc, hf.other (by decide),
          hf.quoted hkey hne h.1 (Ne.symm hno.1) (fun c hc => by cases hc; decide),
          hf.other (by decide), hf.print hkey hne e h.2.1 hno.2.1 _ (stops_members _ rest)]
        exact ih h.2.2 hno.2.2
  have hall := hmembers pre h hno
  cases pre with
  | nil =>
      rw [List.nil_append, printMembers, List.cons_append, hf.other (by decide)] at hall
      rw [List.nil_append, Doc.print, List.cons_append, hf.other (by decide), hall]
  | cons m pre =>
      obtain ⟨k', e⟩ := m
      rw [List.cons_append, printMembers, List.cons_append, hf.other (by decide)] at hall
      rw [List.cons_append, Doc.print, List.cons_append, hf.other (by decide), hall]

end Skips

theorem skips_behind {key pat : Bytes} (h : quoted key <+: pat) : Skips key (behind pat) := by
  intro c s hno
  have hpre : pat.isPrefixOf (c :: s) = false := by
    rw [Bool.eq_false_iff, ne_eq, List.isPrefixOf_iff_prefix]
    exact fun hpat => hno (h.trans hpat)
  rw [behind, hpre, if_neg Bool.false_ne_true]

/-! ## Picking from a printed document -/

section Pick

variable {α : Type} {room : ℕ} {key : Bytes} {read : Bytes → Reading α}

theorem pick_short {s : Bytes} (h : s.length ≤ key.length + room) : pick room key read s = none := by
  cases s with
  | nil => rfl
  | cons c s => rw [pick, if_neg (Nat.not_lt.mpr h)]

theorem skips_pick : Skips key (pick room key read) := by
  intro c s h
  have hno : ('"' :: (key ++ ['"'])).isPrefixOf (c :: s) = false := by
    rw [Bool.eq_false_iff, ne_eq, List.isPrefixOf_iff_prefix]
    exact h
  rw [pick, hno]
  split
  · rfl
  · next hshort =>
      refine (pick_short ?_).symm
      rw [List.length_cons] at hshort
      omega

/-- The key itself. -/
theorem pick_here {rest : Bytes} {r : Option α} (hroom : room < rest.length + 2)
    (hread : read (rest.dropWhile fun c => c = ' ' || c = ':') = some r) :
    pick room key read (quoted key ++ rest) = r := by
  have hshape : quoted key ++ rest = '"' :: (key ++ ('"' :: rest)) := by
    rw [quoted, List.cons_append, List.append_assoc, List.singleton_append]
  have hpre : ('"' :: (key ++ ['"'])).isPrefixOf ('"' :: (key ++ ('"' :: rest))) = true := by
    rw [List.isPrefixOf_iff_prefix]
    exact ⟨rest, by simp⟩
  have hdrop : ('"' :: (key ++ ('"' :: rest))).drop (key.length + 2) = rest := by
    have hlen : key.length + 2 = ('"' :: (key ++ ['"'])).length := by simp
    rw [hlen]
    have hsplit : '"' :: (key ++ ('"' :: rest)) = ('"' :: (key ++ ['"'])) ++ rest := by simp
    rw [hsplit, List.drop_left]
  have hlong : key.length + room < ('"' :: (key ++ ('"' :: rest))).length := by
    simp only [List.length_cons, List.length_append]
    omega
  rw [hshape, pick, if_pos hlong, if_pos hpre, hdrop, hread]

/-- The first character of a document is none that the picker passes over. -/
theorem dropWhile_print {d : Doc} (h : Plain d) (rest : Bytes) :
    (':' :: (print d ++ rest)).dropWhile (fun c => c = ' ' || c = ':') = print d ++ rest := by
  have hhead : ∃ c s, print d = c :: s ∧ (c = ' ' || c = ':' : Bool) = false := by
    cases d with
    | prim s =>
        cases s with
        | nil => exact absurd rfl h.1
        | cons c s =>
            refine ⟨c, s, rfl, ?_⟩
            have hc := h.2 c List.mem_cons_self
            rw [Bool.eq_false_iff]
            intro hsep
            simp only [Bool.or_eq_true, decide_eq_true_eq] at hsep
            rcases hsep with rfl | rfl <;> exact absurd hc (by decide)
    | str s => exact ⟨'"', _, rfl, by decide⟩
    | arr ds =>
        cases ds with
        | nil => exact ⟨'[', _, rfl, by decide⟩
        | cons d ds => exact ⟨'[', _, rfl, by decide⟩
    | obj ms =>
        cases ms with
        | nil => exact ⟨'\x7b', _, rfl, by decide⟩
        | cons m ms => exact ⟨'\x7b', _, rfl, by decide⟩
  obtain ⟨c, s, hs, hc⟩ := hhead
  rw [hs, List.cons_append, List.dropWhile_cons_of_pos (by decide), List.dropWhile_cons_of_neg]
  rw [hc]
  exact Bool.false_ne_true

/-- The value under the key, where it is not in what comes before. -/
theorem pick_member (hkey : PlainText key) (hne : key ≠ []) {pre post : List (Bytes × Doc)} {d : Doc}
    {rest : Bytes} {r : Option α} (h : PlainMembers (pre ++ (key, d) :: post))
    (hno : key ∉ textsMembers pre)
    (hroom : room < (print d ++ (printMembers post ++ rest)).length + 3)
    (hread : read (print d ++ (printMembers post ++ rest)) = some r) :
    pick room key read (print (.obj (pre ++ (key, d) :: post)) ++ rest) = r := by
  have hplain : Plain d := by
    induction pre with
    | nil => exact h.2.1
    | cons m pre ih => exact ih h.2.2 (fun hm => hno (List.mem_cons_of_mem _ (List.mem_append_right _ hm)))
  rw [skips_pick.upTo hkey hne rest hno h]
  refine pick_here ?_ ?_
  · rw [List.length_cons]
    omega
  · rw [dropWhile_print hplain]
    exact hread

end Pick

/-! ## Brackets -/

/-- A text that closes what it opens, for one pair of brackets. -/
inductive Balanced (opening closing : Char) : Bytes → Prop
  | nil : Balanced opening closing []
  | other {c : Char} {t : Bytes} : c ≠ opening → c ≠ closing → Balanced opening closing t →
      Balanced opening closing (c :: t)
  | pair {t u : Bytes} : Balanced opening closing t → Balanced opening closing u →
      Balanced opening closing (opening :: (t ++ closing :: u))

section Balanced

variable {opening closing : Char} {t u : Bytes}

theorem Balanced.append (ht : Balanced opening closing t) (hu : Balanced opening closing u) :
    Balanced opening closing (t ++ u) := by
  induction ht with
  | nil => exact hu
  | other ho hc _ ih => exact .other ho hc ih
  | pair h _ _ ih =>
      rw [List.cons_append, List.append_assoc, List.cons_append]
      exact .pair h ih

theorem balanced_plain (ho : plainChar opening = false) (hc : plainChar closing = false)
    (h : PlainText t) : Balanced opening closing t := by
  induction t with
  | nil => exact .nil
  | cons c t ih =>
      obtain ⟨hplain, ht⟩ := List.forall_mem_cons.mp h
      refine .other ?_ ?_ (ih ht)
      · rintro rfl
        rw [hplain] at ho
        cases ho
      · rintro rfl
        rw [hplain] at hc
        cases hc

/-- A scan that counts brackets comes out of a balanced text where it went in. -/
theorem toClose_balanced (hne : closing ≠ opening) (h : Balanced opening closing t) (n : ℕ)
    (rest : Bytes) : toClose opening closing (n + 1) (t ++ rest) =
      (toClose opening closing (n + 1) rest).map (t ++ ·) := by
  induction h generalizing n rest with
  | nil => exact Option.map_id.symm ▸ rfl
  | other ho hc _ ih =>
      rw [List.cons_append, toClose, if_neg ho, if_neg hc, if_neg (Nat.succ_ne_zero n), ih,
        Option.map_map]
      rfl
  | pair _ _ iht ihu =>
      rw [List.cons_append, toClose, if_pos rfl, if_neg (Nat.succ_ne_zero _), List.append_assoc,
        List.cons_append, iht, toClose, if_neg hne, if_pos rfl, Nat.add_sub_cancel,
        if_neg (Nat.succ_ne_zero n), ihu, Option.map_map, Option.map_map, Option.map_map]
      congr 1
      funext s
      simp

/-- So does the walk over the antennas, inside an object. -/
theorem objects_balanced (h : Balanced '\x7b' '\x7d' t) (n : ℕ) (o rest : Bytes) :
    objects (n + 1) o (t ++ rest) = objects (n + 1) (o ++ t) rest := by
  induction h generalizing n o rest with
  | nil => rw [List.nil_append, List.append_nil]
  | other ho hc _ ih =>
      rw [List.cons_append, objects, if_neg ho, if_neg hc, ih, List.append_assoc,
        List.singleton_append]
  | pair _ _ iht ihu =>
      have hopen : ¬((n : ℤ) + 1 = 0) := by omega
      have hclose : ¬((n : ℤ) + 1 + 1 = 1) := by omega
      have hback : (n : ℤ) + 1 + 1 - 1 = n + 1 := by omega
      have hinner := iht (n + 1)
      push_cast at hinner
      rw [List.cons_append, objects, if_pos rfl, if_neg hopen, List.append_assoc, List.cons_append,
        hinner, objects, if_neg (by decide), if_pos rfl, if_neg hclose, hback, ihu]
      simp

end Balanced

/-! ## Printed documents are balanced -/

section

variable {opening closing : Char}

/-- The pairs of brackets that the slices and the walk count. -/
def Brackets (opening closing : Char) : Prop :=
  opening = '\x7b' ∧ closing = '\x7d' ∨ opening = '[' ∧ closing = ']'

theorem Brackets.char_ne (h : Brackets opening closing) {c : Char}
    (hc : c ≠ '\x7b' ∧ c ≠ '\x7d' ∧ c ≠ '[' ∧ c ≠ ']') : c ≠ opening ∧ c ≠ closing := by
  obtain ⟨rfl, rfl⟩ | ⟨rfl, rfl⟩ := h
  · exact ⟨hc.1, hc.2.1⟩
  · exact ⟨hc.2.2.1, hc.2.2.2⟩

theorem balanced_wrap (h : Brackets opening closing) {a b : Char} (hab : Brackets a b) {t : Bytes}
    (ht : Balanced opening closing t) : Balanced opening closing (a :: (t ++ [b])) := by
  obtain ⟨rfl, rfl⟩ | ⟨rfl, rfl⟩ := h <;> obtain ⟨rfl, rfl⟩ | ⟨rfl, rfl⟩ := hab
  · exact .pair ht .nil
  · exact .other (by decide) (by decide) (ht.append (.other (by decide) (by decide) .nil))
  · exact .other (by decide) (by decide) (ht.append (.other (by decide) (by decide) .nil))
  · exact .pair ht .nil

theorem balanced_text (h : Brackets opening closing) {s : Bytes} (hs : PlainText s) :
    Balanced opening closing s := by
  obtain ⟨rfl, rfl⟩ | ⟨rfl, rfl⟩ := h
  · exact balanced_plain (by decide) (by decide) hs
  · exact balanced_plain (by decide) (by decide) hs

theorem balanced_quoted (h : Brackets opening closing) {s : Bytes} (hs : PlainText s) :
    Balanced opening closing (quoted s) := by
  obtain ⟨ho, hc⟩ := h.char_ne (by decide : '"' ≠ '\x7b' ∧ '"' ≠ '\x7d' ∧ '"' ≠ '[' ∧ '"' ≠ ']')
  exact .other ho hc ((balanced_text h hs).append (.other ho hc .nil))

mutual

theorem balanced_print (h : Brackets opening closing) :
    ∀ (d : Doc), Plain d → Balanced opening closing (print d)
  | .prim s, hd => balanced_text h hd.2
  | .str s, hd => balanced_quoted h hd
  | .arr ds, hd => by
      obtain ⟨t, ht, hbal⟩ := print_arr h ds hd
      rw [ht]
      exact balanced_wrap h (.inr ⟨rfl, rfl⟩) hbal
  | .obj ms, hd => by
      obtain ⟨t, ht, hbal⟩ := print_obj h ms hd
      rw [ht]
      exact balanced_wrap h (.inl ⟨rfl, rfl⟩) hbal

theorem print_arr (h : Brackets opening closing) : ∀ (ds : List Doc), PlainItems ds →
    ∃ t, print (.arr ds) = '[' :: (t ++ [']']) ∧ Balanced opening closing t
  | [], _ => ⟨[], rfl, .nil⟩
  | d :: ds, hd => by
      obtain ⟨t, ht, hbal⟩ := balanced_items h ds hd.2
      refine ⟨print d ++ t, ?_, (balanced_print h d hd.1).append hbal⟩
      rw [print, ht, List.append_assoc]

theorem print_obj (h : Brackets opening closing) : ∀ (ms : List (Bytes × Doc)), PlainMembers ms →
    ∃ t, print (.obj ms) = '\x7b' :: (t ++ ['\x7d']) ∧ Balanced opening closing t
  | [], _ => ⟨[], rfl, .nil⟩
  | (k, d) :: ms, hd => by
      obtain ⟨t, ht, hbal⟩ := balanced_members h ms hd.2.2
      obtain ⟨ho, hc⟩ := h.char_ne (by decide : ':' ≠ '\x7b' ∧ ':' ≠ '\x7d' ∧ ':' ≠ '[' ∧ ':' ≠ ']')
      refine ⟨quoted k ++ ':' :: (print d ++ t), ?_, (balanced_quoted h hd.1).append
        (.other ho hc ((balanced_print h d hd.2.1).append hbal))⟩
      rw [print, ht, List.append_assoc, List.cons_append, List.append_assoc]

theorem balanced_items (h : Brackets opening closing) : ∀ (ds : List Doc), PlainItems ds →
    ∃ t, printItems ds = t ++ [']'] ∧ Balanced opening closing t
  | [], _ => ⟨[], rfl, .nil⟩
  | d :: ds, hd => by
      obtain ⟨t, ht, hbal⟩ := balanced_items h ds hd.2
      obtain ⟨ho, hc⟩ := h.char_ne (by decide : ',' ≠ '\x7b' ∧ ',' ≠ '\x7d' ∧ ',' ≠ '[' ∧ ',' ≠ ']')
      refine ⟨',' :: (print d ++ t), ?_, .other ho hc ((balanced_print h d hd.1).append hbal)⟩
      rw [printItems, ht, List.cons_append, List.append_assoc]

theorem balanced_members (h : Brackets opening closing) : ∀ (ms : List (Bytes × Doc)),
    PlainMembers ms → ∃ t, printMembers ms = t ++ ['\x7d'] ∧ Balanced opening closing t
  | [], _ => ⟨[], rfl, .nil⟩
  | (k, d) :: ms, hd => by
      obtain ⟨t, ht, hbal⟩ := balanced_members h ms hd.2.2
      obtain ⟨ho, hc⟩ := h.char_ne (by decide : ',' ≠ '\x7b' ∧ ',' ≠ '\x7d' ∧ ',' ≠ '[' ∧ ',' ≠ ']')
      obtain ⟨ho', hc'⟩ := h.char_ne (by decide : ':' ≠ '\x7b' ∧ ':' ≠ '\x7d' ∧ ':' ≠ '[' ∧ ':' ≠ ']')
      refine ⟨',' :: (quoted k ++ ':' :: (print d ++ t)), ?_, .other ho hc
        ((balanced_quoted h hd.1).append (.other ho' hc' ((balanced_print h d hd.2.1).append hbal)))⟩
      rw [printMembers, ht, List.cons_append, List.append_assoc, List.cons_append, List.append_assoc]

end

end

/-! ## Slices -/

/-- A slice ends where its bracket closes. -/
theorem toClose_pair {opening closing : Char} (hne : closing ≠ opening) {t : Bytes}
    (h : Balanced opening closing t) (rest : Bytes) :
    toClose opening closing 0 (opening :: (t ++ closing :: rest)) = some (opening :: (t ++ [closing])) := by
  rw [toClose, if_pos rfl, if_neg (Nat.succ_ne_zero 0), toClose_balanced hne h, toClose, if_neg hne,
    if_pos rfl, if_pos (Nat.sub_self 1)]
  rfl

theorem readObject_obj {ms : List (Bytes × Doc)} (h : PlainMembers ms) (rest : Bytes) :
    readObject (print (.obj ms) ++ rest) = some (some (print (.obj ms))) := by
  obtain ⟨t, ht, hbal⟩ := print_obj (.inl ⟨rfl, rfl⟩) ms h
  rw [ht, List.cons_append, List.append_assoc]
  exact congrArg some (toClose_pair (by decide) hbal rest)

theorem readObject_arr {ds : List Doc} (h : PlainItems ds) (rest : Bytes) :
    readObject (print (.arr ds) ++ rest) = some (some (print (.arr ds))) := by
  obtain ⟨t, ht, hbal⟩ := print_arr (.inr ⟨rfl, rfl⟩) ds h
  rw [ht, List.cons_append, List.append_assoc]
  exact congrArg some (toClose_pair (by decide) hbal rest)

/-- The walk finds the objects of a printed list. -/
theorem objects_print {mss : List (List (Bytes × Doc))} (h : PlainItems (mss.map Doc.obj)) :
    objects 0 [] (print (.arr (mss.map Doc.obj))) = mss.map fun ms => print (.obj ms) := by
  have hobj : ∀ (ms : List (Bytes × Doc)) (o rest : Bytes), PlainMembers ms →
      ∃ o', objects 0 o (print (.obj ms) ++ rest) = print (.obj ms) :: objects 0 o' rest := by
    intro ms o rest hms
    obtain ⟨t, ht, hbal⟩ := print_obj (.inl ⟨rfl, rfl⟩) ms hms
    have hinner := objects_balanced hbal 0 ['\x7b'] ('\x7d' :: rest)
    rw [Int.natCast_zero] at hinner
    refine ⟨'\x7b' :: (t ++ ['\x7d']), ?_⟩
    rw [ht, List.cons_append, List.append_assoc, objects, if_pos rfl, if_pos rfl,
      List.singleton_append, hinner, objects, if_neg (by decide), if_pos rfl, if_pos (Int.zero_add 1)]
    rfl
  have hitems : ∀ (mss : List (List (Bytes × Doc))) (o : Bytes), PlainItems (mss.map Doc.obj) →
      objects 0 o (printItems (mss.map Doc.obj)) = mss.map fun ms => print (.obj ms) := by
    intro mss
    induction mss with
    | nil => exact fun o _ => rfl
    | cons ms mss ih =>
        intro o h
        obtain ⟨o', ho'⟩ := hobj ms (o ++ [',']) (printItems (mss.map Doc.obj)) h.1
        rw [List.map_cons, printItems, objects, if_neg (by decide), if_neg (by decide), ho', ih o' h.2,
          List.map_cons]
  cases mss with
  | nil => rfl
  | cons ms mss =>
      obtain ⟨o', ho'⟩ := hobj ms ([] ++ ['[']) (printItems (mss.map Doc.obj)) h.1
      rw [List.map_cons, print, objects, if_neg (by decide), if_neg (by decide), ho',
        hitems mss o' h.2, List.map_cons]

/-! ## Members -/

section Members

variable {key : Bytes} {pre post : List (Bytes × Doc)}

theorem ends_members (ms : List (Bytes × Doc)) (rest : Bytes) : Ends (printMembers ms ++ rest) := by
  cases ms with
  | nil => exact ends_cons (by decide)
  | cons m ms => exact ends_cons (by decide)

theorem digits_decimal (n : ℕ) {rest : Bytes} (h : Ends rest) : digits (decimal n ++ rest) = some n := by
  rw [digits, magnitude_decimal n h]
  rfl

/-- A printed number does not start with a sign. -/
theorem decimal_head (n : ℕ) (rest : Bytes) : ∀ s, decimal n ++ rest ≠ '-' :: s := by
  intro s h
  cases hd : decimal n with
  | nil => exact decimal_ne_nil n hd
  | cons d ds =>
      have hdig : d.isDigit := isDigit_of_mem_decimal (hd ▸ List.mem_cons_self)
      rw [hd, List.cons_append] at h
      rw [(List.cons.inj h).1] at hdig
      exact absurd hdig (by decide)

theorem readU32_decimal {n : ℕ} (hn : n < 2 ^ 32) {rest : Bytes} (h : Ends rest) :
    readU32 (decimal n ++ rest) = some (some (UInt32.ofNat n)) := by
  unfold readU32
  split
  · next s heq => exact absurd heq (decimal_head n rest s)
  · rw [digits_decimal n h, Option.map_some, if_neg (Nat.not_le.mpr hn)]

theorem readI32_signed (l : ℤ) {rest : Bytes} (h : Ends rest) :
    readI32 (signed l ++ rest) = some (some (i32 l)) := by
  cases l with
  | ofNat n =>
      unfold readI32
      split
      · next s heq => exact absurd heq (decimal_head n rest s)
      · show (digits (decimal n ++ rest)).map _ = _
        rw [digits_decimal n h]
        rfl
  | negSucc n =>
      show (digits (decimal (n + 1) ++ rest)).map _ = _
      rw [digits_decimal (n + 1) h]
      rfl

variable (hkey : PlainText key) (hne : key ≠ []) (hno : key ∉ textsMembers pre)

include hkey hne hno

theorem jsonPickU32_member {n : ℕ} (hn : n < 2 ^ 32)
    (h : PlainMembers (pre ++ (key, .prim (decimal n)) :: post)) (rest : Bytes) :
    jsonPickU32 (print (.obj (pre ++ (key, .prim (decimal n)) :: post)) ++ rest) key
      = some (UInt32.ofNat n) :=
  pick_member hkey hne h hno (by omega) (readU32_decimal hn (ends_members post rest))

theorem jsonPickI32_member {l : ℤ} (h : PlainMembers (pre ++ (key, .prim (signed l)) :: post))
    (rest : Bytes) :
    jsonPickI32 (print (.obj (pre ++ (key, .prim (signed l)) :: post)) ++ rest) key = some (i32 l) :=
  pick_member hkey hne h hno (by omega) (readI32_signed l (ends_members post rest))

theorem jsonPickStr_member {size : ℕ} {s : Bytes} (h : PlainMembers (pre ++ (key, .str s) :: post))
    (hs : PlainText s) (rest : Bytes) :
    jsonPickStr size (print (.obj (pre ++ (key, .str s) :: post)) ++ rest) key
      = some (s.take (size - 1)) := by
  refine pick_member hkey hne h hno (by omega) ?_
  show some (some (((s ++ ['"'] ++ _).takeWhile _).take (size - 1))) = _
  rw [List.append_assoc, takeWhile_run]
  · intro c hc
    have hplain := hs c hc
    rw [decide_eq_true_eq]
    rintro rfl
    exact absurd hplain (by decide)
  · intro c hc
    cases hc
    rfl

theorem jsonSliceObject_obj {ms : List (Bytes × Doc)} (hms : PlainMembers ms)
    (h : PlainMembers (pre ++ (key, .obj ms) :: post)) (rest : Bytes) :
    jsonSliceObject (print (.obj (pre ++ (key, .obj ms) :: post)) ++ rest) key
      = some (print (.obj ms)) := by
  refine pick_member hkey hne h hno ?_ (readObject_obj hms _)
  obtain ⟨t, ht, -⟩ := print_obj (.inl ⟨rfl, rfl⟩) ms hms
  rw [ht, List.cons_append, List.length_cons]
  omega

theorem jsonSliceObject_arr {ds : List Doc} (hds : PlainItems ds)
    (h : PlainMembers (pre ++ (key, .arr ds) :: post)) (rest : Bytes) :
    jsonSliceObject (print (.obj (pre ++ (key, .arr ds) :: post)) ++ rest) key
      = some (print (.arr ds)) := by
  refine pick_member hkey hne h hno ?_ (readObject_arr hds _)
  obtain ⟨t, ht, -⟩ := print_arr (.inl ⟨rfl, rfl⟩) ds hds
  rw [ht, List.cons_append, List.length_cons]
  omega

end Members

end Waybeam.Ground.Stats
