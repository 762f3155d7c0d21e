/-
# `Waybeam.Nesting` — the trees of a buffer

The table that the reader fills is the one of some trees (`Trees.Forest`), written down node by
node.  While it reads, the containers that are open stand one in the other, each with the trees
it has so far (`Ctx`); a bracket opens the next, or hands the innermost to the one around it.

    {"a":[1,2|     root ∅ · obj ["a"] · arr [1, 2]

Lexemes come in the order of the buffer (`Chain`), so every tree stays between the brackets of
the container it is in (`Fits`).
-/
import Waybeam.Spans

namespace Waybeam.Spans

open Text Trees
open Tokens (TokType)

/-- A token without its place among the others. -/
structure Span where
  type : TokType
  start : ℕ
  stop : ℕ

def row (p : Option ℕ) (a : Span) (n : ℕ) : JTok := ⟨a.type, a.start, some a.stop, n, p⟩

/-- The containers that are open, and of each the trees below it so far. -/
inductive Ctx where
  | root (trees : Forest Span)
  | inside (outer : Ctx) (type : TokType) (start : ℕ) (trees : Forest Span)

namespace Ctx

def nodes : Ctx → ℕ
  | root D => D.nodes
  | inside outer _ _ D => outer.nodes + 1 + D.nodes

/-- The innermost container. -/
def super : Ctx → Option ℕ
  | root _ => none
  | inside outer _ _ _ => some outer.nodes

/-- The table, when the innermost container has `k` more children than are here. -/
def toks (k : ℕ) : Ctx → List JTok
  | root D => D.rows row none 0
  | inside outer type start D =>
      outer.toks 1 ++ ⟨type, start, none, D.count + k, outer.super⟩ ::
        D.rows row (some outer.nodes) (outer.nodes + 1)

/-- One more tree in the innermost container. -/
def add : Ctx → Span → Forest Span → Ctx
  | root D, a, K => root (D.snoc a K)
  | inside outer type start D, a, K => inside outer type start (D.snoc a K)

def feed (C : Ctx) : Lexeme → Option Ctx
  | .opened type pos => some (inside C type pos .nil)
  | .closed type pos =>
      match C with
      | root _ => none
      | inside outer ty start D =>
          if ty = type then some (outer.add ⟨ty, start, pos + 1⟩ D) else none
  | .str start stop => some (C.add ⟨.str, start, stop⟩ .nil)
  | .prim start stop => some (C.add ⟨.prim, start, stop⟩ .nil)

/-- The reader that has built this much. -/
def reader (C : Ctx) : Parser := ⟨C.toks 0, C.super⟩

theorem super_inside (C : Ctx) (type : TokType) (start : ℕ) (D : Forest Span) :
    (inside C type start D).super = some C.nodes := rfl

theorem length_toks (C : Ctx) (k : ℕ) : (C.toks k).length = C.nodes := by
  induction C generalizing k with
  | root D => exact D.length_rows row none 0
  | inside outer type start D ih =>
    simp only [toks, List.length_append, List.length_cons, ih, Forest.length_rows, nodes]; omega

theorem modify_middle {α : Type*} (A B : List α) (t : α) (f : α → α) :
    (A ++ t :: B).modify A.length f = A ++ f t :: B := by
  induction A with
  | nil => rfl
  | cons a A ih => exact congrArg (a :: ·) ih

theorem super_add (C : Ctx) (a : Span) (K : Forest Span) : (C.add a K).super = C.super := by
  cases C <;> rfl

theorem bump_toks (C : Ctx) : bump (C.toks 0) C.super = C.toks 1 := by
  cases C with
  | root D => rfl
  | inside outer type start D =>
    have h := modify_middle (outer.toks 1) (D.rows row (some outer.nodes) (outer.nodes + 1))
      ⟨type, start, none, D.count, outer.super⟩ fun t => { t with size := t.size + 1 }
    rw [length_toks] at h
    exact h

theorem toks_add (C : Ctx) (a : Span) (K : Forest Span) :
    (C.add a K).toks 0 = C.toks 1 ++ (Forest.cons a K .nil).rows row C.super C.nodes := by
  cases C with
  | root D => simp only [add, toks, super, nodes, Forest.rows_snoc, Nat.zero_add]
  | inside outer type start D =>
    simp only [add, toks, super, nodes, Forest.rows_snoc, Forest.count_snoc, List.append_assoc,
      List.cons_append, Nat.add_zero]

theorem alloc_reader (max : ℕ) (C : Ctx) (t : JTok) :
    C.reader.alloc max t =
      if C.nodes < max then some ⟨C.toks 1 ++ [{ t with parent := C.super }], C.super⟩ else none := by
  unfold Parser.alloc
  simp only [reader, length_toks, bump_toks]

/-- The innermost container is open. -/
theorem stop_super {C : Ctx} {s : ℕ} (h : C.super = some s) (k : ℕ) :
    (C.toks k)[s]?.bind JTok.stop = none := by
  cases C with
  | root D => cases h
  | inside outer type start D =>
    cases h
    simp only [toks]
    rw [List.getElem?_append_right (by rw [length_toks]), length_toks, Nat.sub_self]
    rfl

theorem stillOpen_super (C : Ctx) (fuel : ℕ) : stillOpen (C.toks 0) fuel C.super = C.super := by
  cases hs : C.super with
  | none => cases fuel <;> rfl
  | some s =>
    cases fuel with
    | zero => rfl
    | succ fuel => rw [stillOpen, stop_super hs]; rfl

theorem close_reader (outer : Ctx) (ty : TokType) (start : ℕ) (D : Forest Span) (type : TokType)
    (pos : ℕ) : (inside outer ty start D).reader.closeContainer type pos =
      if ty = type then some (outer.add ⟨ty, start, pos + 1⟩ D).reader else none := by
  have hget : ((inside outer ty start D).toks 0)[outer.nodes]? =
      some ⟨ty, start, none, D.count + 0, outer.super⟩ := by
    simp only [toks]
    rw [List.getElem?_append_right (by rw [length_toks]), length_toks, Nat.sub_self]
    rfl
  have hset : ((inside outer ty start D).toks 0).modify outer.nodes
      (fun t => { t with stop := some (pos + 1) }) =
        (outer.add ⟨ty, start, pos + 1⟩ D).toks 0 := by
    have h := modify_middle (outer.toks 1) (D.rows row (some outer.nodes) (outer.nodes + 1))
      ⟨ty, start, none, D.count + 0, outer.super⟩ fun t => { t with stop := some (pos + 1) }
    rw [length_toks] at h
    rw [toks_add, toks, h]
    simp [Forest.rows, row]
  have hopen := stillOpen_super (outer.add ⟨ty, start, pos + 1⟩ D)
  rw [super_add] at hopen
  simp only [reader, Parser.closeContainer, super_inside, Option.bind_some, hget, hset, hopen,
    super_add]

/-- The reader builds the trees. -/
theorem feed_reader {max : ℕ} {C : Ctx} {l : Lexeme} {p : Parser}
    (h : C.reader.feed max l = some p) : ∃ C', C.feed l = some C' ∧ p = C'.reader := by
  cases l with
  | opened type pos =>
    simp only [Parser.feed, alloc_reader] at h
    split at h
    · cases h
      exact ⟨_, rfl, by simp [reader, toks, super, length_toks, Forest.rows]⟩
    · cases h
  | closed type pos =>
    cases C with
    | root D => cases h
    | inside outer ty start D =>
      rw [Parser.feed, close_reader] at h
      split at h
      · rename_i hty
        exact ⟨_, if_pos hty, (Option.some.inj h).symm⟩
      · cases h
  | str start stop =>
    simp only [Parser.feed, alloc_reader] at h
    split at h
    · cases h
      exact ⟨_, rfl, by rw [reader, toks_add, super_add]; rfl⟩
    · cases h
  | prim start stop =>
    simp only [Parser.feed, alloc_reader] at h
    split at h
    · cases h
      exact ⟨_, rfl, by rw [reader, toks_add, super_add]; rfl⟩
    · cases h

theorem run_reader {max : ℕ} {C : Ctx} {ls : List Lexeme} {p : Parser}
    (h : ls.foldlM (Parser.feed max) C.reader = some p) :
    ∃ C', ls.foldlM feed C = some C' ∧ p = C'.reader := by
  induction ls generalizing C with
  | nil => exact ⟨C, rfl, (Option.some.inj h).symm⟩
  | cons l ls ih =>
    rw [List.foldlM_cons] at h
    obtain ⟨q, hq, h⟩ := Option.bind_eq_some_iff.mp h
    obtain ⟨C₁, hC₁, rfl⟩ := feed_reader hq
    obtain ⟨C', hC', hp⟩ := ih h
    exact ⟨C', by rw [List.foldlM_cons, hC₁]; exact hC', hp⟩

end Ctx

/-! ## In order -/

/-- The lexemes come one after the other, from `p` on, and end by `len`. -/
def Chain (len : ℕ) : ℕ → List Lexeme → Prop
  | p, [] => p ≤ len
  | p, .opened type pos :: ls => p ≤ pos ∧ (type = .obj ∨ type = .arr) ∧ Chain len (pos + 1) ls
  | p, .closed _ pos :: ls => p ≤ pos ∧ Chain len (pos + 1) ls
  | p, .str start stop :: ls => p ≤ start ∧ start ≤ stop ∧ Chain len (max (start + 1) stop) ls
  | p, .prim start stop :: ls => p ≤ start ∧ start ≤ stop ∧ Chain len (max (start + 1) stop) ls

/-- The token that is being read began at `p` or later. -/
def Mode.Since (p pos : ℕ) : Mode → Prop
  | top => p ≤ pos
  | str start _ => p ≤ start ∧ start ≤ pos
  | prim start => p ≤ start ∧ start < pos

theorem Mode.chain_feedTop {len p pos : ℕ} {c : Char} {ls : List Lexeme} (hp : p ≤ pos)
    (h : ∀ p', (feedTop pos c).2.Since p' (pos + 1) → Chain len p' ls) :
    Chain len p ((feedTop pos c).1 ++ ls) := by
  revert h
  unfold feedTop
  repeat' split
  · intro h; exact ⟨hp, Or.inl rfl, h _ le_rfl⟩
  · intro h; exact ⟨hp, Or.inr rfl, h _ le_rfl⟩
  · intro h; exact ⟨hp, h _ le_rfl⟩
  · intro h; exact ⟨hp, h _ le_rfl⟩
  · intro h; exact h p ⟨by omega, le_rfl⟩
  · intro h; exact h p (by simp only [Since]; omega)
  · intro h; exact h p ⟨hp, by omega⟩

theorem Mode.chain_feed {len p pos : ℕ} {c : Char} {ls : List Lexeme} {m : Mode}
    (hp : m.Since p pos) (h : ∀ p', (m.feed pos c).2.Since p' (pos + 1) → Chain len p' ls) :
    Chain len p ((m.feed pos c).1 ++ ls) := by
  cases m with
  | top => exact chain_feedTop hp h
  | str start escaped =>
    obtain ⟨hp, hpos⟩ := hp
    cases escaped with
    | true => exact h p ⟨hp, by omega⟩
    | false =>
      revert h
      simp only [feed]
      split
      · intro h; exact ⟨hp, hpos, h _ (by simp only [Since]; omega)⟩
      · intro h; exact h p ⟨hp, by omega⟩
  | prim start =>
    obtain ⟨hp, hpos⟩ := hp
    revert h
    simp only [feed]
    split
    · intro h; exact ⟨hp, by omega, chain_feedTop (by omega) h⟩
    · intro h; exact h p ⟨hp, by omega⟩

theorem chain_lex {cs : Bytes} {m : Mode} {p pos : ℕ} {ls : List Lexeme} (hp : m.Since p pos)
    (h : lex m pos cs = some ls) : Chain (pos + cs.length) p ls := by
  induction cs generalizing m p pos ls with
  | nil =>
    cases m with
    | top => cases h; exact hp
    | str start escaped => cases h
    | prim start =>
      cases h
      obtain ⟨hp, hpos⟩ := hp
      refine ⟨hp, by omega, ?_⟩
      simp only [Chain, List.length_nil]; omega
  | cons c cs ih =>
    obtain ⟨ls', hls, rfl⟩ := Option.map_eq_some_iff.mp h
    refine Mode.chain_feed hp fun p' hp' => ?_
    have hchain := ih hp' hls
    rwa [List.length_cons, Nat.add_comm cs.length, ← Nat.add_assoc]

/-- The trees stand between `a` and `b`, in order, and each is around what is below it; only
containers have something below. -/
def Fits : Forest Span → ℕ → ℕ → Prop
  | .nil, _, _ => True
  | .cons l K R, a, b =>
      (a ≤ l.start ∧ l.start ≤ l.stop ∧ l.start < b ∧ l.stop ≤ b) ∧
      (¬(l.type = .obj ∨ l.type = .arr) → K = .nil) ∧
      Fits K (l.start + 1) l.stop ∧ Fits R (max (l.start + 1) l.stop) b

theorem Fits.mono {D : Forest Span} {a b b' : ℕ} (hb : b ≤ b') (h : Fits D a b) : Fits D a b' := by
  induction D generalizing a with
  | nil => trivial
  | cons l K R _ ih =>
    obtain ⟨hl, hleaf, hK, hR⟩ := h
    exact ⟨⟨hl.1, hl.2.1, by omega, by omega⟩, hleaf, hK, ih hR⟩

theorem Fits.snoc {D K : Forest Span} {l : Span} {a b : ℕ} (h : Fits D a l.start)
    (ha : a ≤ l.start) (hl : l.start ≤ l.stop) (hb : max (l.start + 1) l.stop ≤ b)
    (hleaf : ¬(l.type = .obj ∨ l.type = .arr) → K = .nil) (hK : Fits K (l.start + 1) l.stop) :
    Fits (D.snoc l K) a b := by
  induction D generalizing a with
  | nil => exact ⟨⟨ha, hl, by omega, by omega⟩, hleaf, hK, trivial⟩
  | cons u L R _ ih =>
    obtain ⟨hu, hu', hL, hR⟩ := h
    exact ⟨⟨hu.1, hu.2.1, by omega, by omega⟩, hu', hL, ih hR (by omega)⟩

/-- Where the trees stand that are below a node. -/
theorem Fits.at {D K : Forest Span} {a b lo i : ℕ} {p q : Option ℕ} {l : Span} (h : Fits D a b)
    (hat : D.At p lo q i l K) :
    (a ≤ l.start ∧ l.start ≤ l.stop ∧ l.start < b ∧ l.stop ≤ b) ∧
      (¬(l.type = .obj ∨ l.type = .arr) → K = .nil) ∧ Fits K (l.start + 1) l.stop := by
  induction hat generalizing a b with
  | here => exact ⟨h.1, h.2.1, h.2.2.1⟩
  | kids _ ih =>
    obtain ⟨hu, -, hL, -⟩ := h
    obtain ⟨hl, hrest⟩ := ih hL
    exact ⟨⟨by omega, hl.2.1, by omega, by omega⟩, hrest⟩
  | rest _ ih =>
    obtain ⟨hu, -, -, hR⟩ := h
    obtain ⟨hl, hrest⟩ := ih hR
    exact ⟨⟨by omega, hl.2.1, hl.2.2.1, hl.2.2.2⟩, hrest⟩

namespace Ctx

/-- What is here ends by `p`. -/
def Ok : Ctx → ℕ → Prop
  | root D, p => Fits D 0 p
  | inside outer type start D, p =>
      outer.Ok start ∧ start < p ∧ (type = .obj ∨ type = .arr) ∧ Fits D (start + 1) p

theorem Ok.mono {C : Ctx} {p p' : ℕ} (hp : p ≤ p') (h : C.Ok p) : C.Ok p' := by
  cases C with
  | root D => exact Fits.mono hp h
  | inside outer type start D =>
    obtain ⟨hout, hlt, htype, hD⟩ := h
    exact ⟨hout, by omega, htype, hD.mono hp⟩

theorem Ok.add {C : Ctx} {l : Span} {K : Forest Span} (h : C.Ok l.start) (hl : l.start ≤ l.stop)
    (hleaf : ¬(l.type = .obj ∨ l.type = .arr) → K = .nil) (hK : Fits K (l.start + 1) l.stop) :
    (C.add l K).Ok (max (l.start + 1) l.stop) := by
  cases C with
  | root D => exact Fits.snoc h (Nat.zero_le _) hl le_rfl hleaf hK
  | inside outer type start D =>
    obtain ⟨hout, hlt, htype, hD⟩ := h
    exact ⟨hout, by omega, htype, hD.snoc hlt hl le_rfl hleaf hK⟩

theorem Ok.feed {C C' : Ctx} {l : Lexeme} {len p : ℕ} {ls : List Lexeme} (h : C.Ok p)
    (hchain : Chain len p (l :: ls)) (hC : C.feed l = some C') : ∃ p', C'.Ok p' ∧ Chain len p' ls := by
  cases l with
  | opened type pos =>
    obtain ⟨hp, htype, hls⟩ := hchain
    cases hC
    exact ⟨pos + 1, ⟨h.mono hp, Nat.lt_succ_self _, htype, trivial⟩, hls⟩
  | closed type pos =>
    obtain ⟨hp, hls⟩ := hchain
    cases C with
    | root D => cases hC
    | inside outer ty start D =>
      obtain ⟨hout, hlt, htype, hD⟩ := h
      simp only [Ctx.feed] at hC
      split at hC
      · cases hC
        have hadd := Ok.add (l := ⟨ty, start, pos + 1⟩) hout (by simp only; omega)
          (fun hleaf => absurd htype hleaf) (hD.mono (by simp only; omega))
        rw [max_eq_right (by simp only; omega)] at hadd
        exact ⟨_, hadd, hls⟩
      · cases hC
  | str start stop =>
    obtain ⟨hp, hle, hls⟩ := hchain
    cases hC
    exact ⟨_, (h.mono hp).add hle (fun _ => rfl) trivial, hls⟩
  | prim start stop =>
    obtain ⟨hp, hle, hls⟩ := hchain
    cases hC
    exact ⟨_, (h.mono hp).add hle (fun _ => rfl) trivial, hls⟩

theorem Ok.run {C C' : Ctx} {len p : ℕ} {ls : List Lexeme} (h : C.Ok p) (hchain : Chain len p ls)
    (hC : ls.foldlM Ctx.feed C = some C') : C'.Ok len := by
  induction ls generalizing C p with
  | nil =>
    cases hC
    exact h.mono hchain
  | cons l ls ih =>
    rw [List.foldlM_cons] at hC
    obtain ⟨C₁, hC₁, hC⟩ := Option.bind_eq_some_iff.mp hC
    obtain ⟨p', h', hls⟩ := h.feed hchain hC₁
    exact ih h' hls hC

end Ctx

/-- The table of a buffer is the one of its trees. -/
theorem jsonParse_rows {max : ℕ} {js : Bytes} {toks : List JTok} (h : jsonParse max js = some toks) :
    ∃ ls D, lex .top 0 js = some ls ∧ ls.foldlM Ctx.feed (.root .nil) = some (.root D) ∧
      toks = D.rows row none 0 ∧ Fits D 0 js.length := by
  obtain ⟨ls, hls, h⟩ := Option.bind_eq_some_iff.mp h
  obtain ⟨p, hp, h⟩ := Option.bind_eq_some_iff.mp h
  obtain ⟨C, hC, rfl⟩ := Ctx.run_reader (C := .root .nil) hp
  have hok : C.Ok js.length := by
    have hchain := chain_lex (m := .top) (p := 0) le_rfl hls
    rw [Nat.zero_add] at hchain
    exact Ctx.Ok.run (C := .root .nil) trivial hchain hC
  cases C with
  | root D =>
    cases h
    exact ⟨ls, D, hls, hC, rfl, hok⟩
  | inside outer type start D => simp [Ctx.reader, Parser.finish, Ctx.super] at h

end Waybeam.Spans
