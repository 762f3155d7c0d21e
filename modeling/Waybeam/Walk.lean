/-
# `Waybeam.Walk` — what a walk over the tokens reaches

The parents' numbers make trees of the tokens; `jskip` and `jfind` go by the counts.

    WellNested      a token is inside its parent, and what is below it follows it in one block
    JskipExact      `jskip` steps over that block
    JfindExact      `jfind` gives the value of a member, and of no other token

The first holds of every table that is returned.  The others hold when every object has its
children in pairs: where a value is missing, `jskip` leaves the last child of the object behind.
-/
import Waybeam.Nesting

namespace Waybeam.Spans

open Text Trees
open Tokens (TokType)

/-! ## What is meant -/

/-- The parent that a row names. -/
def parentOf (toks : List JTok) (i : ℕ) : Option ℕ := toks[i]?.bind JTok.parent

/-- `e` is where what is below `i` ends. -/
def IsSubtreeEnd (toks : List JTok) (i e : ℕ) : Prop :=
  i < e ∧ e ≤ toks.length ∧ ∀ j, Forest.Below (parentOf toks) i j ↔ i ≤ j ∧ j < e

structure WellNested (len : ℕ) (toks : List JTok) : Prop where
  /-- A token has its two ends, in the buffer. -/
  closed : ∀ t ∈ toks, ∃ e, t.stop = some e ∧ t.start ≤ e ∧ e ≤ len
  /-- A parent stands before its child, and around it. -/
  inside : ∀ {i p : ℕ} {t : JTok}, toks[i]? = some t → t.parent = some p →
    ∃ u, toks[p]? = some u ∧ p < i ∧ u.start < t.start ∧
      ∀ e e', t.stop = some e → u.stop = some e' → e ≤ e'
  /-- The tokens are in the order of the buffer. -/
  ascending : toks.Pairwise (·.start < ·.start)
  /-- What is below a token follows it. -/
  block : ∀ i < toks.length, ∃ e, IsSubtreeEnd toks i e

def JskipExact (toks : List JTok) : Prop := ∀ i < toks.length, IsSubtreeEnd toks i (jskip toks i)

/-- Of the children of an object, taken in pairs, a key and its value. -/
def IsMember (js : Bytes) (toks : List JTok) (obj : ℕ) (key : Bytes) (v : ℕ) : Prop :=
  ∃ t m k, toks[obj]? = some t ∧ t.type = .obj ∧
    (Forest.children (parentOf toks) toks.length obj)[2 * m]? = some k ∧
    (toks[k]?.any (jeq js key) = true) ∧
    (Forest.children (parentOf toks) toks.length obj)[2 * m + 1]? = some v

def JfindExact (js : Bytes) (toks : List JTok) : Prop :=
  ∀ obj key, (∀ v, jfind js toks (some obj) key = some v → IsMember js toks obj key v) ∧
    (jfind js toks (some obj) key = none ↔ ∀ v, ¬ IsMember js toks obj key v)

/-! ### Pairs -/

/-- One more child of the innermost container. -/
def bumpTop : List ℕ → List ℕ
  | n :: ns => (n + 1) :: ns
  | [] => []

/-- Every object closes on a whole number of pairs; the counts are of the containers that are
open, the innermost first. -/
def paired : List ℕ → List Lexeme → Bool
  | _, [] => true
  | ns, .opened _ _ :: ls => paired (0 :: bumpTop ns) ls
  | ns, .closed type _ :: ls => (type ≠ .obj || 2 ∣ ns.headD 0) && paired ns.tail ls
  | ns, .str _ _ :: ls => paired (bumpTop ns) ls
  | ns, .prim _ _ :: ls => paired (bumpTop ns) ls

theorem paired_closed (type : TokType) (pos n : ℕ) (ns : List ℕ) (ls : List Lexeme) :
    paired (n :: ns) (.closed type pos :: ls) ↔ (type = .obj → 2 ∣ n) ∧ paired ns ls := by
  simp [paired, Decidable.imp_iff_not_or]

/-- In the buffer, every object has its children in pairs. -/
def Paired (js : Bytes) : Prop := ((lex .top 0 js).all (paired [])) = true

instance (js : Bytes) : Decidable (Paired js) := inferInstanceAs (Decidable (_ = _))

/-! ## The pairs, in the trees -/

/-- Every object has its children in pairs. -/
def EvenObjs : Forest Span → Prop
  | .nil => True
  | .cons l K R => (l.type = .obj → 2 ∣ K.count) ∧ EvenObjs K ∧ EvenObjs R

theorem evenObjs_iff {D : Forest Span} (p : Option ℕ) (lo : ℕ) :
    EvenObjs D ↔ ∀ ⦃q i l K⦄, D.At p lo q i l K → l.type = .obj → 2 ∣ K.count := by
  induction D generalizing p lo with
  | nil =>
    constructor
    · intro _ q i l K hat; cases hat
    · intro _; trivial
  | cons l K R ihK ihR =>
    rw [EvenObjs, ihK (some lo) (lo + 1), ihR p (lo + 1 + K.nodes)]
    constructor
    · rintro ⟨hl, hK, hR⟩ q i u L hat
      cases hat with
      | here => exact hl
      | kids hat => exact hK hat
      | rest hat => exact hR hat
    · intro h
      exact ⟨h .here, fun _ _ _ _ hat => h (.kids hat), fun _ _ _ _ hat => h (.rest hat)⟩

theorem evenObjs_snoc (D : Forest Span) (l : Span) (K : Forest Span) :
    EvenObjs (D.snoc l K) ↔ EvenObjs D ∧ (l.type = .obj → 2 ∣ K.count) ∧ EvenObjs K := by
  induction D with
  | nil => simp only [Forest.snoc, EvenObjs, and_true, true_and]
  | cons u L R _ ih => simp only [Forest.snoc, EvenObjs, ih, and_assoc]

namespace Ctx

/-- The objects that are closed. -/
def EvenObjs : Ctx → Prop
  | root D => Spans.EvenObjs D
  | inside outer _ _ D => outer.EvenObjs ∧ Spans.EvenObjs D

/-- How many children the open containers have, the innermost first. -/
def counts : Ctx → List ℕ
  | root _ => []
  | inside outer _ _ D => D.count :: bumpTop outer.counts

theorem counts_add (C : Ctx) (l : Span) (K : Forest Span) :
    (C.add l K).counts = bumpTop C.counts := by
  cases C with
  | root D => rfl
  | inside outer type start D => simp only [add, counts, Forest.count_snoc, bumpTop]

theorem evenObjs_add (C : Ctx) (l : Span) (K : Forest Span) :
    (C.add l K).EvenObjs ↔
      C.EvenObjs ∧ (l.type = .obj → 2 ∣ K.count) ∧ Spans.EvenObjs K := by
  cases C with
  | root D => exact evenObjs_snoc D l K
  | inside outer type start D => simp only [add, EvenObjs, evenObjs_snoc, and_assoc]

theorem evenObjs_feed {C C' : Ctx} {l : Lexeme} {ls : List Lexeme} (h : C.feed l = some C') :
    (C.EvenObjs ∧ paired C.counts (l :: ls)) ↔ (C'.EvenObjs ∧ paired C'.counts ls) := by
  cases l with
  | opened type pos =>
    cases h
    simp only [EvenObjs, Spans.EvenObjs, and_true, counts, paired, Forest.count_nil]
  | closed type pos =>
    cases C with
    | root D => cases h
    | inside outer ty start D =>
      simp only [feed] at h
      split at h
      · rename_i hty
        cases h
        subst hty
        simp only [evenObjs_add, counts_add, EvenObjs, counts, paired_closed]
        tauto
      · cases h
  | str start stop =>
    cases h
    simp only [evenObjs_add, counts_add, paired, Spans.EvenObjs, and_true]
    simp
  | prim start stop =>
    cases h
    simp only [evenObjs_add, counts_add, paired, Spans.EvenObjs, and_true]
    simp

theorem evenObjs_run {C : Ctx} {D : Forest Span} {ls : List Lexeme}
    (h : ls.foldlM feed C = some (root D)) :
    (C.EvenObjs ∧ paired C.counts ls) ↔ Spans.EvenObjs D := by
  induction ls generalizing C with
  | nil =>
    cases h
    simp only [EvenObjs, paired, and_true]
  | cons l ls ih =>
    rw [List.foldlM_cons] at h
    obtain ⟨C', hC', h⟩ := Option.bind_eq_some_iff.mp h
    exact (evenObjs_feed hC').trans (ih h)

end Ctx

/-! ## The trees of the table -/

section

variable {D K L : Forest Span} {toks : List JTok} {p q : Option ℕ} {i j a b len : ℕ} {l u : Span}
  {js key : Bytes}

theorem links (D : Forest Span) : Forest.Links (parentOf (D.rows row none 0)) D where
  at_eq := by
    intro q i l K hat
    have hrow := (Forest.getElem?_rows row (Nat.zero_add i).symm).mpr ⟨q, l, K, hat, rfl⟩
    rw [parentOf, hrow]
    rfl
  outside := by
    intro i hi
    rw [parentOf, List.getElem?_eq_none (by rwa [Forest.length_rows])]
    rfl

theorem getElem?_of_at (hat : D.At none 0 q i l K) :
    (D.rows row none 0)[i]? = some (row q l K.count) :=
  (Forest.getElem?_rows row (Nat.zero_add i).symm).mpr ⟨q, l, K, hat, rfl⟩

theorem exists_at_of_lt (hi : i < (D.rows row none 0).length) : ∃ q l K, D.At none 0 q i l K := by
  rw [Forest.length_rows] at hi
  exact Forest.exists_at D none (Nat.zero_le i) (by omega)

theorem exists_at_of_getElem? {t : JTok} (h : (D.rows row none 0)[i]? = some t) :
    ∃ q l K, D.At none 0 q i l K ∧ row q l K.count = t :=
  (Forest.getElem?_rows row (Nat.zero_add i).symm).mp h

theorem isSubtreeEnd_of_at (hat : D.At none 0 q i l K) :
    IsSubtreeEnd (D.rows row none 0) i (i + 1 + K.nodes) := by
  have hle := hat.le
  refine ⟨by omega, ?_, fun j => (links D).below_iff hat⟩
  rw [Forest.length_rows]; omega

theorem IsSubtreeEnd.unique {e e' : ℕ} (h : IsSubtreeEnd toks i e) (h' : IsSubtreeEnd toks i e') :
    e = e' := by
  have hiff : ∀ j, (i ≤ j ∧ j < e) ↔ (i ≤ j ∧ j < e') := fun j => (h.2.2 j).symm.trans (h'.2.2 j)
  have h₁ := hiff (e - 1)
  have h₂ := hiff (e' - 1)
  have := h.1
  have := h'.1
  omega

theorem children_of_at (hat : D.At none 0 q i l K) :
    Forest.children (parentOf (D.rows row none 0)) (D.rows row none 0).length i = K.roots (i + 1) := by
  rw [Forest.length_rows]
  exact (links D).children_eq hat

/-! ### Well nested -/

theorem Fits.of_mem_rows (h : Fits D a b) {lo : ℕ} {t : JTok} (ht : t ∈ D.rows row p lo) :
    ∃ e, t.stop = some e ∧ a ≤ t.start ∧ t.start ≤ e ∧ t.start < b ∧ e ≤ b := by
  obtain ⟨k, hk⟩ := List.mem_iff_getElem?.mp ht
  obtain ⟨q, l, K, hat, rfl⟩ := (Forest.getElem?_rows row rfl).mp hk
  obtain ⟨hl, -⟩ := h.at hat
  exact ⟨l.stop, rfl, hl⟩

theorem Fits.pairwise (h : Fits D a b) (p : Option ℕ) (lo : ℕ) :
    (D.rows row p lo).Pairwise (·.start < ·.start) := by
  induction D generalizing a b p lo with
  | nil => exact List.Pairwise.nil
  | cons l K R ihK ihR =>
    obtain ⟨hl, -, hK, hR⟩ := h
    refine List.pairwise_cons.mpr ⟨?_, List.pairwise_append.mpr ⟨ihK hK _ _, ihR hR _ _, ?_⟩⟩
    · intro t ht
      simp only [row]
      rcases List.mem_append.mp ht with ht | ht
      · obtain ⟨e, -, hstart, -⟩ := hK.of_mem_rows ht; omega
      · obtain ⟨e, -, hstart, -⟩ := hR.of_mem_rows ht; omega
    · intro t ht t' ht'
      obtain ⟨e, -, -, -, hlt, -⟩ := hK.of_mem_rows ht
      obtain ⟨e', -, hstart, -⟩ := hR.of_mem_rows ht'
      omega

theorem Fits.inside (h : Fits D a b) (hat : D.At none 0 (some j) i l K)
    (hat' : D.At none 0 q j u L) : u.start < l.start ∧ l.stop ≤ u.stop := by
  obtain ⟨-, -, hL⟩ := h.at hat'
  obtain ⟨hl, -⟩ := hL.at (hat'.child (by simp) hat)
  omega

theorem Fits.wellNested (h : Fits D 0 len) : WellNested len (D.rows row none 0) where
  closed := by
    intro t ht
    obtain ⟨e, he, -, hle, -, hlen⟩ := h.of_mem_rows ht
    exact ⟨e, he, hle, hlen⟩
  inside := by
    intro i p t ht hp
    obtain ⟨q, l, K, hat, rfl⟩ := exists_at_of_getElem? ht
    obtain rfl : q = some p := hp
    obtain ⟨q', u, L, hat', hlt, -⟩ := hat.block (by simp)
    obtain ⟨hstart, hstop⟩ := h.inside hat hat'
    refine ⟨_, getElem?_of_at hat', hlt, hstart, ?_⟩
    rintro e e' he he'
    rw [← Option.some.inj he, ← Option.some.inj he']
    exact hstop
  ascending := h.pairwise none 0
  block := by
    intro i hi
    obtain ⟨q, l, K, hat⟩ := exists_at_of_lt hi
    exact ⟨_, isSubtreeEnd_of_at hat⟩

/-! ### Over the blocks -/

theorem kids_row (hat : D.At none 0 q i l K) (hfits : Fits D a b) (heven : l.type = .obj → 2 ∣ K.count) :
    (row q l K.count).kids = K.count := by
  obtain ⟨-, hleaf, -⟩ := hfits.at hat
  cases htype : l.type with
  | obj =>
    simp only [JTok.kids, row, htype]
    exact Nat.mul_div_cancel' (heven htype)
  | arr => simp only [JTok.kids, row, htype]
  | str => rw [hleaf (by simp [htype])]; simp [JTok.kids, row, htype]
  | prim => rw [hleaf (by simp [htype])]; simp [JTok.kids, row, htype]

theorem steps_of_evenObjs (hfits : Fits D 0 len) (h : EvenObjs D) :
    Forest.Steps (jskip (D.rows row none 0)) D none 0 := by
  refine Forest.steps_of_iterate fun q i l K hat => ?_
  rw [jskip_eq (getElem?_of_at hat), kids_row hat hfits ((evenObjs_iff none 0).mp h hat)]

/-- An object with a child too many: the walk stops before that child. -/
theorem evenObjs_of_steps (h : Forest.Steps (jskip (D.rows row none 0)) D none 0) : EvenObjs D := by
  refine (evenObjs_iff none 0).mpr fun q i l K hat htype => ?_
  have hsteps : Forest.Steps (jskip (D.rows row none 0)) K (some i) (i + 1) :=
    fun _ _ _ _ hat' => h (hat.sub hat')
  have hkids : (row q l K.count).kids = 2 * (K.count / 2) := by
    simp only [JTok.kids, row, htype]
  have hskip := jskip_eq (getElem?_of_at hat)
  rw [h hat, hkids] at hskip
  by_contra hodd
  have := (hsteps.iterate_roots (by omega : 2 * (K.count / 2) < K.count)).2
  omega

theorem jskipExact_iff : JskipExact (D.rows row none 0) ↔
    Forest.Steps (jskip (D.rows row none 0)) D none 0 := by
  constructor
  · intro h q i l K hat
    have hlt : i < (D.rows row none 0).length := (List.getElem?_eq_some_iff.mp (getElem?_of_at hat)).1
    exact (h i hlt).unique (isSubtreeEnd_of_at hat)
  · intro h i hi
    obtain ⟨q, l, K, hat⟩ := exists_at_of_lt hi
    rw [h hat]
    exact isSubtreeEnd_of_at hat

/-! ### The members -/

/-- A key is a string, and its value stands behind it. -/
theorem value_of_key (hfits : Fits D 0 len) (hat : D.At none 0 q j l K)
    (hkey : (D.rows row none 0)[j]?.any (jeq js key) = true)
    (h : Forest.Steps (jskip (D.rows row none 0)) D none 0) : jskip (D.rows row none 0) j = j + 1 := by
  obtain ⟨-, hleaf, -⟩ := hfits.at hat
  rw [getElem?_of_at hat, Option.any_some, jeq, Bool.and_eq_true, decide_eq_true_eq] at hkey
  have htype : l.type = .str := hkey.1
  rw [h hat, hleaf (by simp [htype])]
  rfl

theorem isMember_of_findKey (hfits : Fits D 0 len)
    (h : Forest.Steps (jskip (D.rows row none 0)) D none 0) (hat : D.At none 0 q i l K)
    (htype : l.type = .obj) {v : ℕ}
    (hfind : findKey js (D.rows row none 0) key (K.count / 2) (i + 1) = some v) :
    IsMember js (D.rows row none 0) i key v := by
  obtain ⟨m, hm, hkey, rfl⟩ := findKey_some hfind
  have hsteps : Forest.Steps (jskip (D.rows row none 0)) K (some i) (i + 1) :=
    fun _ _ _ _ hat' => h (hat.sub hat')
  have hk := (hsteps.iterate_roots (by omega : 2 * m < K.count)).1
  have hv := (hsteps.iterate_roots (by omega : 2 * m + 1 < K.count)).1
  obtain ⟨l', K', hat'⟩ := (Forest.mem_roots (p := some i) (by rintro k ⟨⟩; omega)).mp (List.mem_of_getElem? hk)
  rw [Function.iterate_succ_apply', value_of_key hfits (hat.sub hat') hkey h] at hv
  exact ⟨_, m, _, getElem?_of_at hat, htype, by rw [children_of_at hat]; exact hk, hkey,
    by rw [children_of_at hat]; exact hv⟩

theorem findKey_ne_none (h : Forest.Steps (jskip (D.rows row none 0)) D none 0)
    (hat : D.At none 0 q i l K) {v : ℕ} (hmember : IsMember js (D.rows row none 0) i key v) :
    findKey js (D.rows row none 0) key (K.count / 2) (i + 1) ≠ none := by
  obtain ⟨t, m, k, -, -, hk, hkey, hv⟩ := hmember
  rw [children_of_at hat] at hk hv
  have hm : 2 * m + 1 < K.count := by
    rw [← Forest.length_roots (i + 1) K]
    exact (List.getElem?_eq_some_iff.mp hv).1
  have hsteps : Forest.Steps (jskip (D.rows row none 0)) K (some i) (i + 1) :=
    fun _ _ _ _ hat' => h (hat.sub hat')
  rw [(hsteps.iterate_roots (by omega : 2 * m < K.count)).1] at hk
  intro hnone
  refine findKey_none hnone (by omega : m < K.count / 2) ?_
  rw [keyAt, Option.some.inj hk]
  exact hkey

theorem jfindExact_of_steps (hfits : Fits D 0 len)
    (h : Forest.Steps (jskip (D.rows row none 0)) D none 0) (js : Bytes) :
    JfindExact js (D.rows row none 0) := by
  intro obj key
  have hfound : ∀ v, jfind js (D.rows row none 0) (some obj) key = some v →
      IsMember js (D.rows row none 0) obj key v := by
    intro v hv
    rw [jfind, Option.bind_some] at hv
    obtain ⟨t, ht, hv⟩ := Option.bind_eq_some_iff.mp hv
    obtain ⟨q, l, K, hat, rfl⟩ := exists_at_of_getElem? ht
    split at hv
    · rename_i htype
      exact isMember_of_findKey hfits h hat htype hv
    · exact absurd hv (by simp)
  refine ⟨hfound, ?_, ?_⟩
  · intro hnone v hmember
    have ⟨t, m, k, ht, htype, _⟩ := hmember
    obtain ⟨q, l, K, hat, rfl⟩ := exists_at_of_getElem? ht
    refine findKey_ne_none h hat hmember ?_
    rw [jfind, Option.bind_some, ht, Option.bind_some, if_pos htype] at hnone
    exact hnone
  · intro hnone
    cases hv : jfind js (D.rows row none 0) (some obj) key with
    | none => rfl
    | some v => exact absurd (hfound v hv) (hnone v)

end

/-! ## Main theorem -/

theorem paired_iff {js : Bytes} {ls : List Lexeme} {D : Forest Span} (hls : lex .top 0 js = some ls)
    (hD : ls.foldlM Ctx.feed (.root .nil) = some (.root D)) : Paired js ↔ EvenObjs D := by
  rw [← Ctx.evenObjs_run hD, Paired, hls]
  simp only [Option.all_some, Ctx.EvenObjs, EvenObjs, true_and, Ctx.counts]

/-- Of every buffer that is read, the tokens are well nested; `jskip` and `jfind` walk them right
exactly when every object in it has its children in pairs. -/
theorem walk_exact_iff {max : ℕ} {js : Bytes} {toks : List JTok} (h : jsonParse max js = some toks) :
    WellNested js.length toks ∧ (JskipExact toks ∧ JfindExact js toks ↔ Paired js) := by
  obtain ⟨ls, D, hls, hD, rfl, hfits⟩ := jsonParse_rows h
  refine ⟨hfits.wellNested, ?_⟩
  rw [paired_iff hls hD, jskipExact_iff]
  constructor
  · rintro ⟨hsteps, -⟩
    exact evenObjs_of_steps hsteps
  · intro heven
    have hsteps := steps_of_evenObjs hfits heven
    exact ⟨hsteps, jfindExact_of_steps hfits hsteps js⟩

theorem walk_exact_iff_small :
    JskipExact [⟨.obj, 0, some 9, 2, none⟩, ⟨.str, 2, some 3, 0, some 0⟩,
      ⟨.arr, 5, some 8, 1, some 0⟩, ⟨.prim, 6, some 7, 0, some 2⟩] :=
  ((@walk_exact_iff 8 "\x7b\"a\":[1]\x7d".toList _ (by decide)).2.mpr (by decide)).1

/-- A key without a value, in an object that is a value. -/
def oddMember : Bytes := "\x7b\"x\":\x7b\"a\":1,\"b\"\x7d,\"y\":2\x7d".toList

def oddToks : List JTok :=
  [⟨.obj, 0, some 23, 4, none⟩, ⟨.str, 2, some 3, 0, some 0⟩, ⟨.obj, 5, some 16, 3, some 0⟩,
    ⟨.str, 7, some 8, 0, some 2⟩, ⟨.prim, 10, some 11, 0, some 2⟩, ⟨.str, 13, some 14, 0, some 2⟩,
    ⟨.str, 18, some 19, 0, some 0⟩, ⟨.prim, 21, some 22, 0, some 0⟩]

/-- The outer object is searched for the inner one's last key, and the next member's key is its
value. -/
theorem not_walk_exact : ¬ ∀ (max : ℕ) (js : Bytes) (toks : List JTok),
    jsonParse max js = some toks →
      WellNested js.length toks ∧ JskipExact toks ∧ JfindExact js toks := by
  intro h
  obtain ⟨-, -, hfind⟩ := h 16 oddMember oddToks (by decide)
  obtain ⟨t, m, k, -, -, hk, hkey, -⟩ := (hfind 0 ['b']).1 6 (by decide)
  have hchildren : Forest.children (parentOf oddToks) oddToks.length 0 = [1, 2, 6, 7] := by decide
  rw [hchildren] at hk
  match m with
  | 0 => cases hk; revert hkey; decide
  | 1 => cases hk; revert hkey; decide
  | m + 2 => simp [Nat.mul_add] at hk

end Waybeam.Spans
