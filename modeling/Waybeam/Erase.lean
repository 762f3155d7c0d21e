/-
# `Waybeam.Erase` — the tokens without their places

The readers of `Waybeam.Tokens` are those of `Waybeam.Spans`, where each token has its text in
place of its two ends, and a place in the table is what stands from there on.

    jsonParse    the same tokens, without their ends     (`erase_jsonParse`)
    jskip        the rest of the table behind a value    (`skip_erase`)
    jfind        the rest of it from the value on        (`jfind_erase`)

Where the ends are kept the buffer is cut first and nested afterwards; the other reader does both
with every character.
-/
import Waybeam.Nesting

namespace Waybeam.Spans

open Text Trees
open Tokens (TokType Tok)

/-- What stands between two places of the buffer. -/
def slice (js : Bytes) (start stop : ℕ) : Bytes := (js.drop start).take (stop - start)

/-- A token with its text; containers have none. -/
def JTok.erase (js : Bytes) (t : JTok) : Tok where
  type := t.type
  text := if t.type = .str ∨ t.type = .prim then slice js t.start (t.stop.getD 0) else []
  size := t.size

theorem slice_succ {js : Bytes} {start pos : ℕ} {c : Char} (hle : start ≤ pos)
    (hc : js[pos]? = some c) : slice js start (pos + 1) = slice js start pos ++ [c] := by
  have hget : (js.drop start)[pos - start]? = some c := by
    rw [List.getElem?_drop, Nat.add_sub_cancel' hle, hc]
  rw [slice, Nat.succ_sub hle, List.take_add_one, hget]
  rfl

/-! ## Cutting -/

section

variable {js : Bytes} {max : ℕ}

/-- What the other reader does with a lexeme. -/
def take (js : Bytes) (max : ℕ) (p : Tokens.Parser) : Lexeme → Option Tokens.Parser
  | .opened type _ => p.openContainer max type
  | .closed type _ => p.closeContainer type
  | .str start stop => p.alloc max { type := .str, text := slice js start stop }
  | .prim start stop => p.alloc max { type := .prim, text := slice js start stop }

/-- Where the other reader is in a token. -/
def Mode.read (js : Bytes) (pos : ℕ) : Mode → Tokens.Mode
  | top => .top
  | str start escaped => .str (slice js start pos) escaped
  | prim start => .prim (slice js start pos)

/-- The other reader, somewhere in a token. -/
def inMode (m : Tokens.Mode) (p : Tokens.Parser) : Tokens.Parser := { p with mode := m }

theorem alloc_inMode (m : Tokens.Mode) (p : Tokens.Parser) (t : Tok) :
    (inMode m p).alloc max t = p.alloc max t := rfl

theorem alloc_mode {p q : Tokens.Parser} {t : Tok} (h : p.alloc max t = some q) : q.mode = .top := by
  unfold Tokens.Parser.alloc at h
  split at h
  · cases h; rfl
  · cases h

theorem take_mode {p q : Tokens.Parser} {l : Lexeme} (hp : p.mode = .top)
    (h : take js max p l = some q) : q.mode = .top := by
  cases l with
  | opened type pos =>
    obtain ⟨q', hq, rfl⟩ := Option.map_eq_some_iff.mp h
    have hq := alloc_mode hq
    exact hq
  | closed type pos =>
    simp only [take, Tokens.Parser.closeContainer] at h
    split at h
    · split at h
      · cases h; exact hp
      · cases h
    · cases h
  | str start stop => exact alloc_mode h
  | prim start stop => exact alloc_mode h

theorem takes_mode {p q : Tokens.Parser} {ls : List Lexeme} (hp : p.mode = .top)
    (h : ls.foldlM (take js max) p = some q) : q.mode = .top := by
  induction ls generalizing p with
  | nil => cases h; exact hp
  | cons l ls ih =>
    rw [List.foldlM_cons] at h
    obtain ⟨p', hp', h⟩ := Option.bind_eq_some_iff.mp h
    exact ih (take_mode hp hp') h

theorem since_feedTop (pos : ℕ) (c : Char) : (Mode.feedTop pos c).2.Since 0 (pos + 1) := by
  unfold Mode.feedTop
  repeat' split
  all_goals simp [Mode.Since]

theorem since_feed {m : Mode} {pos : ℕ} (c : Char) (h : m.Since 0 pos) :
    (m.feed pos c).2.Since 0 (pos + 1) := by
  cases m with
  | top => exact since_feedTop pos c
  | str start escaped =>
    obtain ⟨-, hle⟩ := h
    cases escaped with
    | true => exact ⟨Nat.zero_le _, by omega⟩
    | false =>
      rw [Mode.feed]
      split
      · exact Nat.zero_le _
      · exact ⟨Nat.zero_le _, by omega⟩
  | prim start =>
    obtain ⟨-, hlt⟩ := h
    rw [Mode.feed]
    split
    · exact since_feedTop pos c
    · exact ⟨Nat.zero_le _, by omega⟩

/-- Back to the reader that is in no token, and on in the mode it is in. -/
theorem map_inMode_top {o : Option Tokens.Parser} (h : ∀ q ∈ o, q.mode = .top) :
    o.map (inMode .top) = o := by
  cases o with
  | none => rfl
  | some q =>
    have hq := h q rfl
    obtain ⟨toks, super, mode⟩ := q
    cases hq
    rfl

theorem takes_singleton {p : Tokens.Parser} (hp : p.mode = .top) (l : Lexeme) :
    ([l].foldlM (take js max) p).map (inMode .top) = take js max p l := by
  have hsingle : [l].foldlM (take js max) p = take js max p l := by
    simp only [List.foldlM_cons, List.foldlM_nil, bind_pure]
  rw [hsingle, map_inMode_top fun q hq => take_mode hp hq]

theorem feedTop_eq {pos : ℕ} {c : Char} (hc : js[pos]? = some c) {p : Tokens.Parser}
    (hp : p.mode = .top) :
    p.feedTop max c = ((Mode.feedTop pos c).1.foldlM (take js max) p).map
      (inMode ((Mode.feedTop pos c).2.read js (pos + 1))) := by
  have hone : ∀ l, ([l].foldlM (take js max) p).map (inMode .top) = take js max p l := takes_singleton hp
  unfold Tokens.Parser.feedTop Mode.feedTop
  split
  · exact (hone (.opened .obj pos)).symm
  split
  · exact (hone (.opened .arr pos)).symm
  split
  · exact (hone (.closed .obj pos)).symm
  split
  · exact (hone (.closed .arr pos)).symm
  split
  · simp [inMode, Mode.read, slice]
  split
  · exact (map_inMode_top fun q hq => by cases hq; exact hp).symm
  · have hself : slice js pos (pos + 1) = [c] := by
      rw [slice_succ le_rfl hc, slice, Nat.sub_self]
      rfl
    simp only [Mode.read, hself]
    rfl

/-- A character is what it is cut into. -/
theorem feed_eq {m : Mode} {pos : ℕ} {c : Char} (hm : m.Since 0 pos) (hc : js[pos]? = some c)
    {p : Tokens.Parser} (hp : p.mode = .top) :
    (inMode (m.read js pos) p).feed max c =
      ((m.feed pos c).1.foldlM (take js max) p).map (inMode ((m.feed pos c).2.read js (pos + 1))) := by
  cases m with
  | top =>
    have hself : inMode .top p = p := by
      obtain ⟨toks, super, mode⟩ := p
      cases hp
      rfl
    show (inMode .top p).feedTop max c = _
    rw [hself]
    exact feedTop_eq hc hp
  | str start escaped =>
    have hnext := slice_succ hm.2 hc
    cases escaped with
    | true =>
      show some (inMode _ p) = some (inMode (.str (slice js start (pos + 1)) false) p)
      rw [hnext]
    | false =>
      by_cases hquote : c = '"'
      · simp only [inMode, Mode.read, Tokens.Parser.feed, Mode.feed, if_pos hquote]
        exact (takes_singleton hp (.str start pos)).symm
      · simp only [inMode, Mode.read, Tokens.Parser.feed, Mode.feed, if_neg hquote, hnext]
        rfl
  | prim start =>
    obtain ⟨-, hlt⟩ := hm
    have hnext := slice_succ hlt.le hc
    by_cases hends : Tokens.Parser.endsPrim c = true
    · simp only [inMode, Mode.read, Tokens.Parser.feed, Mode.feed, if_pos hends, List.foldlM_cons]
      show (p.alloc max _).bind _ = ((p.alloc max _).bind _).map _
      cases halloc : p.alloc max { type := .prim, text := slice js start pos } with
      | none => rfl
      | some q => exact feedTop_eq hc (alloc_mode halloc)
    · simp only [inMode, Mode.read, Tokens.Parser.feed, Mode.feed, if_neg hends, hnext]
      rfl

/-- The other reader is done. -/
def done (p : Tokens.Parser) : Option (List Tok) := if p.super = [] then some p.toks else none

/-- The reader of characters, cut first. -/
theorem run_eq {cs : Bytes} {m : Mode} {pos : ℕ} (hcs : js.drop pos = cs) (hm : m.Since 0 pos)
    {p : Tokens.Parser} (hp : p.mode = .top) :
    (cs.foldlM (Tokens.Parser.feed max) (inMode (m.read js pos) p)).bind (Tokens.Parser.finish max) =
      (lex m pos cs).bind fun ls => (ls.foldlM (take js max) p).bind done := by
  induction cs generalizing m pos p with
  | nil =>
    cases m with
    | top => rfl
    | str start escaped => rfl
    | prim start =>
      show (p.alloc max _).bind done = (([Lexeme.prim start pos].foldlM (take js max) p).bind done)
      rw [List.foldlM_cons]
      show _ = ((p.alloc max _).bind some).bind done
      rw [Option.bind_fun_some]
  | cons c cs ih =>
    have hc : js[pos]? = some c := by
      rw [← List.head?_drop, hcs, List.head?_cons]
    have hnext : js.drop (pos + 1) = cs := by
      rw [← List.tail_drop, hcs, List.tail_cons]
    rw [List.foldlM_cons, feed_eq hm hc hp, lex]
    have hrest := since_feed c hm
    generalize (m.feed pos c).1 = ls₀ at *
    generalize (m.feed pos c).2 = m' at *
    cases hread : ls₀.foldlM (take js max) p with
    | none =>
      cases lex m' (pos + 1) cs with
      | none => rfl
      | some ls =>
        simp only [Option.map_some, Option.bind_some, List.foldlM_append, hread]
        rfl
    | some q =>
      have hq := ih hnext hrest (takes_mode hp hread)
      cases hlex : lex m' (pos + 1) cs with
      | none =>
        rw [hlex] at hq
        exact hq
      | some ls =>
        rw [hlex] at hq
        simp only [Option.map_some, Option.bind_some, List.foldlM_append, hread]
        exact hq

/-! ## Nesting -/

namespace Ctx

/-- The containers that are open, the innermost first. -/
def supers : Ctx → List ℕ
  | root _ => []
  | inside outer _ _ _ => outer.nodes :: outer.supers

/-- The other reader that has built this much. -/
def other (js : Bytes) (C : Ctx) : Tokens.Parser := ⟨(C.toks 0).map (JTok.erase js), C.supers, .top⟩

theorem supers_add (C : Ctx) (a : Span) (K : Forest Span) : (C.add a K).supers = C.supers := by
  cases C <;> rfl

theorem alloc_other (C : Ctx) (t : Tok) :
    (C.other js).alloc max t =
      if C.nodes < max then some ⟨(C.toks 1).map (JTok.erase js) ++ [t], C.supers, .top⟩ else none := by
  have hlen : (C.other js).toks.length = C.nodes := by
    rw [other, List.length_map, length_toks]
  unfold Tokens.Parser.alloc
  rw [hlen]
  refine if_congr Iff.rfl ?_ rfl
  cases C with
  | root D => rfl
  | inside outer type start D =>
    have hbump := modify_middle ((outer.toks 1).map (JTok.erase js))
      ((D.rows row (some outer.nodes) (outer.nodes + 1)).map (JTok.erase js))
      (JTok.erase js ⟨type, start, none, D.count + 0, outer.super⟩)
      fun u => { u with size := u.size + 1 }
    rw [List.length_map, length_toks] at hbump
    simp only [other, supers, toks, List.map_append, List.map_cons, hbump]
    rfl

theorem other_add (C : Ctx) (a : Span) (K : Forest Span) :
    (C.add a K).other js = ⟨(C.toks 1).map (JTok.erase js) ++
      ((Forest.cons a K .nil).rows row C.super C.nodes).map (JTok.erase js), C.supers, .top⟩ := by
  rw [other, toks_add, supers_add, List.map_append]

/-- A container has no text. -/
theorem erase_container {type : TokType} (h : type = .obj ∨ type = .arr) (start : ℕ)
    (stop : Option ℕ) (size : ℕ) (parent : Option ℕ) :
    JTok.erase js ⟨type, start, stop, size, parent⟩ = ⟨type, [], size⟩ := by
  have hno : ¬(type = .str ∨ type = .prim) := by
    rcases h with h | h <;> simp [h]
  rw [JTok.erase, if_neg hno]

theorem close_other {outer : Ctx} {ty : TokType} {start : ℕ} {D : Forest Span}
    (hty : ty = .obj ∨ ty = .arr) (type : TokType) (pos : ℕ) :
    ((inside outer ty start D).other js).closeContainer type =
      if ty = type then some ((outer.add ⟨ty, start, pos + 1⟩ D).other js) else none := by
  have hget : ((inside outer ty start D).other js).toks[outer.nodes]? = some ⟨ty, [], D.count⟩ := by
    simp only [other, toks, List.map_append, List.map_cons]
    rw [List.getElem?_append_right (by rw [List.length_map, length_toks]), List.length_map,
      length_toks, Nat.sub_self, erase_container hty]
    rfl
  have hsame : ((inside outer ty start D).toks 0).map (JTok.erase js) =
      ((outer.add ⟨ty, start, pos + 1⟩ D).toks 0).map (JTok.erase js) := by
    rw [toks_add]
    simp only [toks, Forest.rows, row, List.map_append, List.map_cons, List.append_nil,
      erase_container hty, Nat.add_zero]
  have hsupers : ((inside outer ty start D).other js).super = outer.nodes :: outer.supers := rfl
  unfold Tokens.Parser.closeContainer
  rw [hsupers]
  simp only [hget, Option.any_some, decide_eq_true_eq]
  refine if_congr Iff.rfl ?_ rfl
  rw [other, other, supers_add, ← hsame]

/-- A lexeme does the same to both readers. -/
theorem take_other {C : Ctx} {len p : ℕ} {l : Lexeme} {ls : List Lexeme} (hC : C.Ok p)
    (hchain : Chain len p (l :: ls)) :
    take js max (C.other js) l = (C.reader.feed max l).bind fun _ => (C.feed l).map (other js) := by
  cases l with
  | opened type pos =>
    obtain ⟨-, htype, -⟩ := hchain
    have hlen : (C.other js).toks.length = C.nodes := by
      rw [other, List.length_map, length_toks]
    simp only [take, Tokens.Parser.openContainer, Parser.feed, alloc_other, alloc_reader, feed, hlen]
    split
    · simp only [Option.map_some, Option.bind_some, other, toks, supers, Forest.rows, List.map_append,
        List.map_cons, List.map_nil, erase_container htype, Forest.count_nil]
    · rfl
  | closed type pos =>
    cases C with
    | root D => rfl
    | inside outer ty start D =>
      obtain ⟨-, -, hty, -⟩ := hC
      rw [take, close_other hty type pos, Parser.feed, close_reader, feed]
      split <;> rfl
  | str start stop =>
    simp only [take, Parser.feed, alloc_other, alloc_reader, feed, Option.map_some, other_add]
    split <;> rfl
  | prim start stop =>
    simp only [take, Parser.feed, alloc_other, alloc_reader, feed, Option.map_some, other_add]
    split <;> rfl

theorem done_other (C : Ctx) :
    done (C.other js) = C.reader.finish.map (List.map (JTok.erase js)) := by
  cases C <;> rfl

theorem takes_other {C : Ctx} {len p : ℕ} {ls : List Lexeme} (hC : C.Ok p)
    (hchain : Chain len p ls) :
    (ls.foldlM (take js max) (C.other js)).bind done =
      ((ls.foldlM (Parser.feed max) C.reader).bind Parser.finish).map (List.map (JTok.erase js)) := by
  induction ls generalizing C p with
  | nil => exact done_other C
  | cons l ls ih =>
    rw [List.foldlM_cons, List.foldlM_cons, take_other hC hchain]
    cases hfeed : C.reader.feed max l with
    | none => rfl
    | some q =>
      obtain ⟨C', hC', rfl⟩ := feed_reader hfeed
      obtain ⟨p', hok, hls⟩ := hC.feed hchain hC'
      rw [hC']
      exact ih hok hls

end Ctx

/-- The other reader makes the same tokens, with their texts for their places. -/
theorem erase_jsonParse (max : ℕ) (js : Bytes) :
    Tokens.jsonParse max js = (jsonParse max js).map (List.map (JTok.erase js)) := by
  have hempty : (({} : Tokens.Parser)).mode = .top := rfl
  have hcut : Tokens.jsonParse max js =
      (lex .top 0 js).bind fun ls => (ls.foldlM (take js max) {}).bind done :=
    run_eq (m := .top) List.drop_zero (Nat.zero_le 0) hempty
  rw [hcut, jsonParse]
  cases hlex : lex .top 0 js with
  | none => rfl
  | some ls =>
    have hchain : Chain (0 + js.length) 0 ls := chain_lex (m := .top) (Nat.zero_le 0) hlex
    exact Ctx.takes_other (C := .root .nil) trivial hchain

end

/-! ## Walking -/

section

variable {js : Bytes} {toks : List JTok}

theorem kids_erase (t : JTok) : (t.erase js).kids = t.kids := rfl

theorem drop_erase {i : ℕ} {t : JTok} (h : toks[i]? = some t) :
    (toks.map (JTok.erase js)).drop i = t.erase js :: (toks.map (JTok.erase js)).drop (i + 1) := by
  obtain ⟨hi, rfl⟩ := List.getElem?_eq_some_iff.mp h
  rw [List.drop_eq_getElem_cons (by rwa [List.length_map]), List.getElem_map]

/-- Values are stepped over by counting what is left of them, or by their numbers. -/
theorem skip_erase (k i : ℕ) : Tokens.skip k ((toks.map (JTok.erase js)).drop i) =
    (toks.map (JTok.erase js)).drop ((jskip toks)^[k] i) := by
  induction hleft : toks.length - i generalizing k i with
  | zero =>
    have hon : min i toks.length ≤ (jskip toks)^[k] i := le_iterate (lt_skipOn toks.length) k i
    have hnil : Tokens.skip k [] = [] := by cases k <;> rfl
    rw [List.drop_eq_nil_of_le (by rw [List.length_map]; omega), hnil,
      List.drop_eq_nil_of_le (by rw [List.length_map]; exact (le_min (by omega) le_rfl).trans hon)]
  | succ left ih =>
    cases k with
    | zero => rw [Tokens.skip, Function.iterate_zero, id]
    | succ k =>
      have hi : i < toks.length := by omega
      have hget := List.getElem?_eq_getElem hi
      rw [drop_erase hget, Tokens.skip, kids_erase, ih _ _ (by omega), Function.iterate_add_apply,
        Function.iterate_succ_apply, jskip_eq hget]

theorem jeq_erase (key : Bytes) (t : JTok) : (t.erase js).jeq key = jeq js key t := by
  unfold Tok.jeq jeq JTok.erase slice
  by_cases h : t.type = .str <;> simp [h]

theorem findKey_erase (key : Bytes) (k i : ℕ) :
    Tokens.findKey key k ((toks.map (JTok.erase js)).drop i) =
      (findKey js toks key k i).map fun v => (toks.map (JTok.erase js)).drop v := by
  induction k generalizing i with
  | zero => rfl
  | succ k ih =>
    have hhead : ((toks.map (JTok.erase js)).drop i).head?.any (·.jeq key) =
        toks[i]?.any (jeq js key) := by
      rw [List.head?_drop, List.getElem?_map]
      cases toks[i]? with
      | none => rfl
      | some t => exact jeq_erase key t
    rw [Tokens.findKey, findKey, hhead, List.tail_drop, skip_erase, ih]
    split <;> rfl

/-- What is found under a key is the rest of the table from there on. -/
theorem jfind_erase (key : Bytes) (i : ℕ) :
    Tokens.jfind key ((toks.map (JTok.erase js)).drop i) =
      (jfind js toks (some i) key).map fun v => (toks.map (JTok.erase js)).drop v := by
  cases hget : toks[i]? with
  | none =>
    have hi := List.getElem?_eq_none_iff.mp hget
    rw [List.drop_eq_nil_of_le (by rwa [List.length_map])]
    simp only [jfind, Option.bind_some, hget, Option.bind_none]
    rfl
  | some t =>
    have htype : (t.erase js).type = t.type := rfl
    have hsize : (t.erase js).size = t.size := rfl
    rw [drop_erase hget, Tokens.jfind, htype, hsize, findKey_erase]
    simp only [jfind, Option.bind_some, hget]
    split <;> rfl

end

end Waybeam.Spans
