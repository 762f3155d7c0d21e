/-
# `Waybeam.Trees` — trees that are kept as a flat table

A list of trees is written down node by node, each before what is below it.  A node's number is
its place in the table.

    a ─┬─ b ── c        0 a · 1 b · 2 c · 3 d · 4 e
       └─ d
    e

What is below a node stands in one block behind it.  Two ways around the table: by the parent
that each row names (`Below`), and forward, from a node over its block to what follows (`next`).
-/
import Mathlib.Data.List.Sort
import Mathlib.Logic.Relation

namespace Waybeam.Trees

/-- A list of trees: the label of the first, what is below it, and the others. -/
inductive Forest (α : Type*) where
  | nil
  | cons (a : α) (kids rest : Forest α)
  deriving DecidableEq, Repr

namespace Forest

variable {α β : Type*}

/-- How many nodes there are. -/
def nodes : Forest α → ℕ
  | nil => 0
  | cons _ kids rest => 1 + kids.nodes + rest.nodes

/-- How many trees. -/
def count : Forest α → ℕ
  | nil => 0
  | cons _ _ rest => rest.count + 1

/-- One more tree. -/
def snoc (F : Forest α) (a : α) (K : Forest α) : Forest α :=
  match F with
  | nil => cons a K nil
  | cons b kids rest => cons b kids (rest.snoc a K)

/-- The numbers of the roots, when the first is `lo`. -/
def roots (lo : ℕ) : Forest α → List ℕ
  | nil => []
  | cons _ kids rest => lo :: rest.roots (lo + 1 + kids.nodes)

/-- The table: a row is made of the parent's number, the label and the number of children. -/
def rows (row : Option ℕ → α → ℕ → β) (p : Option ℕ) (lo : ℕ) : Forest α → List β
  | nil => []
  | cons a kids rest =>
      row p a kids.count :: (kids.rows row (some lo) (lo + 1) ++ rest.rows row p (lo + 1 + kids.nodes))

@[simp] theorem nodes_nil : (nil : Forest α).nodes = 0 := rfl
@[simp] theorem count_nil : (nil : Forest α).count = 0 := rfl
@[simp] theorem roots_nil (lo : ℕ) : (nil : Forest α).roots lo = [] := rfl
@[simp] theorem nodes_cons (a : α) (K R : Forest α) : (cons a K R).nodes = 1 + K.nodes + R.nodes := rfl
@[simp] theorem count_cons (a : α) (K R : Forest α) : (cons a K R).count = R.count + 1 := rfl
@[simp] theorem roots_cons (lo : ℕ) (a : α) (K R : Forest α) :
    (cons a K R).roots lo = lo :: R.roots (lo + 1 + K.nodes) := rfl

theorem count_snoc (F : Forest α) (a : α) (K : Forest α) : (F.snoc a K).count = F.count + 1 := by
  induction F with
  | nil => rfl
  | cons b kids rest _ ih => simp only [snoc, count_cons, ih]

theorem length_rows (row : Option ℕ → α → ℕ → β) (p : Option ℕ) (lo : ℕ) (F : Forest α) :
    (F.rows row p lo).length = F.nodes := by
  induction F generalizing p lo with
  | nil => rfl
  | cons a kids rest ihk ihr =>
    simp only [rows, List.length_cons, List.length_append, ihk, ihr, nodes_cons]; omega

theorem rows_snoc (row : Option ℕ → α → ℕ → β) (p : Option ℕ) (lo : ℕ) (F : Forest α) (a : α)
    (K : Forest α) : (F.snoc a K).rows row p lo =
      F.rows row p lo ++ (cons a K nil).rows row p (lo + F.nodes) := by
  induction F generalizing lo with
  | nil => rfl
  | cons b kids rest _ ih =>
    have hlo : lo + 1 + kids.nodes + rest.nodes = lo + (1 + kids.nodes + rest.nodes) := by omega
    simp only [snoc, rows, ih, nodes_cons, hlo, List.cons_append, List.append_assoc]

theorem length_roots (lo : ℕ) (F : Forest α) : (F.roots lo).length = F.count := by
  induction F generalizing lo with
  | nil => rfl
  | cons a kids rest _ ih => rw [roots_cons, List.length_cons, ih, count_cons]

/-! ## Places -/

/-- In the forest `F`, numbered from `lo` on and standing under `p`, number `i` is a node `a`
under `q`, with `K` below it. -/
inductive At : Forest α → Option ℕ → ℕ → Option ℕ → ℕ → α → Forest α → Prop
  | here {a : α} {K R : Forest α} {p : Option ℕ} {lo : ℕ} : At (cons a K R) p lo p lo a K
  | kids {a b : α} {K R L : Forest α} {p q : Option ℕ} {lo i : ℕ} :
      At K (some lo) (lo + 1) q i b L → At (cons a K R) p lo q i b L
  | rest {a b : α} {K R L : Forest α} {p q : Option ℕ} {lo i : ℕ} :
      At R p (lo + 1 + K.nodes) q i b L → At (cons a K R) p lo q i b L

variable {F K L : Forest α} {p q q' : Option ℕ} {lo i j : ℕ} {a b : α}

theorem At.le (h : F.At p lo q i a K) : lo ≤ i ∧ i + 1 + K.nodes ≤ lo + F.nodes := by
  induction h with
  | here => simp only [nodes_cons]; omega
  | kids _ ih => simp only [nodes_cons]; omega
  | rest _ ih => simp only [nodes_cons]; omega

/-- A node stands under the roots' parent, or under a node before it. -/
theorem At.parent (h : F.At p lo q i a K) : q = p ∨ ∃ j, q = some j ∧ lo ≤ j ∧ j < i := by
  induction h with
  | here => exact Or.inl rfl
  | @kids _ _ _ _ _ _ _ lo _ h ih =>
    have hle := h.le
    rcases ih with rfl | ⟨j, rfl, hlo, hji⟩
    · exact Or.inr ⟨lo, rfl, le_rfl, by omega⟩
    · exact Or.inr ⟨j, rfl, by omega, hji⟩
  | rest _ ih =>
    rcases ih with rfl | ⟨j, rfl, hlo, hji⟩
    · exact Or.inl rfl
    · exact Or.inr ⟨j, rfl, by omega, hji⟩

/-- A number has one node. -/
theorem At.unique (h : F.At p lo q i a K) (h' : F.At p lo q' i b L) : q = q' ∧ a = b ∧ K = L := by
  induction h with
  | here =>
    cases h' with
    | here => exact ⟨rfl, rfl, rfl⟩
    | kids h' => have := h'.le; omega
    | rest h' => have := h'.le; omega
  | kids h ih =>
    have hle := h.le
    cases h' with
    | here => omega
    | kids h' => exact ih h'
    | rest h' => have := h'.le; omega
  | rest h ih =>
    have hle := h.le
    cases h' with
    | here => omega
    | kids h' => have := h'.le; omega
    | rest h' => exact ih h'

/-- Every number has a node. -/
theorem exists_at (F : Forest α) (p : Option ℕ) (hlo : lo ≤ i) (hi : i < lo + F.nodes) :
    ∃ q a K, F.At p lo q i a K := by
  induction F generalizing p lo with
  | nil => simp only [nodes_nil] at hi; omega
  | cons a kids rest ihk ihr =>
    simp only [nodes_cons] at hi
    rcases Nat.lt_trichotomy i lo with h | rfl | h
    · omega
    · exact ⟨p, a, kids, .here⟩
    · rcases Nat.lt_or_ge i (lo + 1 + kids.nodes) with hk | hk
      · obtain ⟨q, b, K, hat⟩ := ihk (some lo) (by omega) hk
        exact ⟨q, b, K, .kids hat⟩
      · obtain ⟨q, b, K, hat⟩ := ihr p hk (by omega)
        exact ⟨q, b, K, .rest hat⟩

/-- The parent is a node, and its block holds the node's own. -/
theorem At.block (h : F.At p lo (some j) i a K) (hp : p ≠ some j) :
    ∃ q b L, F.At p lo q j b L ∧ j < i ∧ i + 1 + K.nodes ≤ j + 1 + L.nodes := by
  induction F generalizing p lo with
  | nil => cases h
  | cons c kids rest ihk ihr =>
    cases h with
    | here => exact absurd rfl hp
    | kids h =>
      by_cases hj : j = lo
      · have := h.le
        subst hj
        exact ⟨p, c, kids, .here, by omega, by omega⟩
      · obtain ⟨q, b, L, hat, hlt, hle⟩ := ihk h fun hlo => hj (Option.some.inj hlo).symm
        exact ⟨q, b, L, .kids hat, hlt, hle⟩
    | rest h =>
      obtain ⟨q, b, L, hat, hlt, hle⟩ := ihr h hp
      exact ⟨q, b, L, .rest hat, hlt, hle⟩

/-- Inside a block, every node but the first has its parent in the block. -/
theorem At.inside (h : F.At p lo q i a K) (h' : F.At p lo q' j b L) (hij : i < j)
    (hj : j < i + 1 + K.nodes) : ∃ k, q' = some k ∧ i ≤ k := by
  induction F generalizing p lo with
  | nil => cases h
  | cons c kids rest ihk ihr =>
    cases h with
    | here =>
      cases h' with
      | here => omega
      | kids h' =>
        rcases h'.parent with hq | ⟨k, hq, hk, -⟩
        · exact ⟨_, hq, le_rfl⟩
        · exact ⟨k, hq, by omega⟩
      | rest h' => have := h'.le; omega
    | kids h =>
      have hle := h.le
      cases h' with
      | here => omega
      | kids h' => exact ihk h h'
      | rest h' => have := h'.le; omega
    | rest h =>
      have hle := h.le
      cases h' with
      | here => omega
      | kids h' => have := h'.le; omega
      | rest h' => exact ihr h h'

/-- Blocks are nested. -/
theorem At.block_le (h : F.At none 0 q i a K) (h' : F.At none 0 q' j b L)
    (hij : i ≤ j) (hj : j < i + 1 + K.nodes) : j + 1 + L.nodes ≤ i + 1 + K.nodes := by
  induction j using Nat.strong_induction_on generalizing q' b L with
  | _ j ih =>
    rcases Nat.eq_or_lt_of_le hij with rfl | hlt
    · obtain ⟨-, -, rfl⟩ := h.unique h'; exact le_rfl
    · obtain ⟨k, rfl, hik⟩ := h.inside h' hlt hj
      obtain ⟨q₁, c, M, hat, hkj, hle⟩ := h'.block (by simp)
      exact hle.trans (ih k hkj hat hik (by omega))

/-- A row of the table is a node's. -/
theorem getElem?_rows (row : Option ℕ → α → ℕ → β) {k : ℕ} {t : β} (hi : i = lo + k) :
    (F.rows row p lo)[k]? = some t ↔ ∃ q a K, F.At p lo q i a K ∧ row q a K.count = t := by
  induction F generalizing p lo k with
  | nil =>
    constructor
    · intro h; simp [rows] at h
    · rintro ⟨q, a, K, h, -⟩; cases h
  | cons c kids rest ihk ihr =>
    cases k with
    | zero =>
      subst hi
      simp only [rows, List.getElem?_cons_zero, Option.some.injEq]
      constructor
      · intro h; exact ⟨p, c, kids, .here, h⟩
      · rintro ⟨q, a, K, h, ht⟩
        obtain ⟨rfl, rfl, rfl⟩ := h.unique .here
        exact ht
    | succ k =>
      simp only [rows, List.getElem?_cons_succ, List.getElem?_append, length_rows]
      split
      · rw [ihk (by omega)]
        constructor
        · rintro ⟨q, a, K, h, ht⟩; exact ⟨q, a, K, .kids h, ht⟩
        · rintro ⟨q, a, K, h, ht⟩
          cases h with
          | here => omega
          | kids h => exact ⟨q, a, K, h, ht⟩
          | rest h => have := h.le; omega
      · rw [ihr (by omega)]
        constructor
        · rintro ⟨q, a, K, h, ht⟩; exact ⟨q, a, K, .rest h, ht⟩
        · rintro ⟨q, a, K, h, ht⟩
          cases h with
          | here => omega
          | kids h => have := h.le; omega
          | rest h => exact ⟨q, a, K, h, ht⟩

/-! ## Children -/

theorem mem_roots (hp : ∀ k, p = some k → k < lo) :
    i ∈ F.roots lo ↔ ∃ a K, F.At p lo p i a K := by
  induction F generalizing lo with
  | nil =>
    constructor
    · intro h; simp at h
    · rintro ⟨a, K, h⟩; cases h
  | cons c kids rest _ ih =>
    rw [roots_cons, List.mem_cons, ih fun k hk => by have := hp k hk; omega]
    constructor
    · rintro (rfl | ⟨a, K, h⟩)
      · exact ⟨c, kids, .here⟩
      · exact ⟨a, K, .rest h⟩
    · rintro ⟨a, K, h⟩
      cases h with
      | here => exact Or.inl rfl
      | kids h =>
        rcases h.parent with h' | ⟨k, h', hk, -⟩
        · have := hp lo h'; omega
        · have := hp k h'; omega
      | rest h => exact Or.inr ⟨a, K, h⟩

theorem le_of_mem_roots (h : i ∈ F.roots lo) : lo ≤ i := by
  induction F generalizing lo with
  | nil => simp at h
  | cons c kids rest _ ih =>
    rcases List.mem_cons.mp h with rfl | h
    · exact le_rfl
    · have := ih h; omega

theorem pairwise_roots (F : Forest α) (lo : ℕ) : (F.roots lo).Pairwise (· < ·) := by
  induction F generalizing lo with
  | nil => exact List.Pairwise.nil
  | cons c kids rest _ ih =>
    refine List.pairwise_cons.mpr ⟨?_, ih _⟩
    intro i hi
    have := le_of_mem_roots hi; omega

/-- What is below a node is in the forest. -/
theorem At.sub (h : F.At p lo q i a K) (h' : K.At (some i) (i + 1) q' j b L) :
    F.At p lo q' j b L := by
  induction h with
  | here => exact .kids h'
  | kids _ ih => exact .kids (ih h')
  | rest _ ih => exact .rest (ih h')

/-- A child of a node is found in what is below it. -/
theorem At.child (h : F.At p lo q i a K) (hp : p ≠ some i) (h' : F.At p lo (some i) j b L) :
    K.At (some i) (i + 1) (some i) j b L := by
  obtain ⟨q₁, a₁, K₁, hat, hij, hle⟩ := h'.block hp
  obtain ⟨-, -, rfl⟩ := h.unique hat
  obtain ⟨q₂, b₂, L₂, h₂⟩ := exists_at K (some i) (by omega : i + 1 ≤ j) (by omega)
  obtain ⟨rfl, rfl, rfl⟩ := (h.sub h₂).unique h'
  exact h₂

/-! ## By the parents' numbers -/

/-- `j` is `i`, or below it. -/
def Below (parent : ℕ → Option ℕ) : ℕ → ℕ → Prop :=
  Relation.ReflTransGen fun i j => parent j = some i

/-- The children of `i` among the first `n` numbers. -/
def children (parent : ℕ → Option ℕ) (n i : ℕ) : List ℕ :=
  (List.range n).filter fun j => parent j = some i

/-- The rows name the parents. -/
structure Links (parent : ℕ → Option ℕ) (F : Forest α) : Prop where
  at_eq : ∀ {q i a K}, F.At none 0 q i a K → parent i = q
  outside : ∀ {i}, F.nodes ≤ i → parent i = none

namespace Links

variable {parent : ℕ → Option ℕ}

theorem exists_at (hl : Links parent F) (hj : parent j = some i) :
    ∃ b L, F.At none 0 (some i) j b L := by
  have hlt : j < F.nodes := by
    by_contra h
    rw [hl.outside (by omega)] at hj; exact absurd hj (by simp)
  obtain ⟨q, b, L, hat⟩ := Forest.exists_at F none (Nat.zero_le j) (by omega : j < 0 + F.nodes)
  rw [hl.at_eq hat] at hj
  exact ⟨b, L, hj ▸ hat⟩

/-- What is below a node is the block that begins with it. -/
theorem below_iff (hl : Links parent F) (h : F.At none 0 q i a K) :
    Below parent i j ↔ i ≤ j ∧ j < i + 1 + K.nodes := by
  constructor
  · intro hb
    induction hb with
    | refl => omega
    | @tail k j _ hj ih =>
      obtain ⟨b, L, hat⟩ := hl.exists_at hj
      obtain ⟨q₁, c, M, hat', hkj, hle⟩ := hat.block (by simp)
      have := h.block_le hat' ih.1 ih.2
      omega
  · rintro ⟨hij, hj⟩
    induction j using Nat.strong_induction_on with
    | _ j ih =>
      rcases Nat.eq_or_lt_of_le hij with rfl | hlt
      · exact .refl
      · have hle := h.le
        obtain ⟨q', b, L, hat⟩ := Forest.exists_at F none (Nat.zero_le j) (by omega : j < 0 + F.nodes)
        obtain ⟨k, rfl, hik⟩ := h.inside hat hlt hj
        obtain ⟨q₁, c, M, hat', hkj, -⟩ := hat.block (by simp)
        exact (ih k hkj hik (by omega)).tail (hl.at_eq hat)

/-- The children of a node are the roots of what is below it. -/
theorem children_eq (hl : Links parent F) (h : F.At none 0 q i a K) :
    children parent F.nodes i = K.roots (i + 1) := by
  refine List.Pairwise.eq_of_mem_iff
    ((List.pairwise_lt_range).filter _) (pairwise_roots K (i + 1)) fun j => ?_
  rw [mem_roots (p := some i) fun k hk => by cases hk; omega, children, List.mem_filter,
    List.mem_range, decide_eq_true_eq]
  constructor
  · rintro ⟨-, hj⟩
    obtain ⟨b, L, hat⟩ := hl.exists_at hj
    exact ⟨b, L, h.child (by simp) hat⟩
  · rintro ⟨b, L, hat⟩
    have hat' := h.sub hat
    exact ⟨by have := hat'.le; omega, hl.at_eq hat'⟩

end Links

/-! ## Forward -/

/-- `next` steps over every block. -/
def Steps (next : ℕ → ℕ) (F : Forest α) (p : Option ℕ) (lo : ℕ) : Prop :=
  ∀ ⦃q i a K⦄, F.At p lo q i a K → next i = i + 1 + K.nodes

variable {next : ℕ → ℕ}

theorem Steps.iterate (h : Steps next F p lo) : next^[F.count] lo = lo + F.nodes := by
  induction F generalizing lo with
  | nil => rfl
  | cons a kids rest _ ih =>
    rw [count_cons, Function.iterate_succ_apply, h .here, ih fun _ _ _ _ hat => h (.rest hat), nodes_cons]
    omega

/-- So many steps lead from root to root. -/
theorem Steps.iterate_roots (h : Steps next F p lo) {m : ℕ} (hm : m < F.count) :
    (F.roots lo)[m]? = some (next^[m] lo) ∧ next^[m] lo < lo + F.nodes := by
  induction F generalizing lo m with
  | nil => simp at hm
  | cons a kids rest _ ih =>
    cases m with
    | zero => simp only [roots_cons, List.getElem?_cons_zero, Function.iterate_zero, id_eq, true_and,
        nodes_cons]; omega
    | succ m =>
      rw [count_cons] at hm
      obtain ⟨hget, hlt⟩ := ih (fun _ _ _ _ hat => h (.rest hat)) (by omega : m < rest.count)
      rw [roots_cons, List.getElem?_cons_succ, Function.iterate_succ_apply, h .here, nodes_cons]
      exact ⟨hget, by omega⟩

/-- A node is stepped over by steps over its children. -/
theorem steps_of_iterate
    (h : ∀ ⦃q i a K⦄, F.At p lo q i a K → next i = next^[K.count] (i + 1)) : Steps next F p lo := by
  induction F generalizing p lo with
  | nil => intro q i a K hat; cases hat
  | cons c kids rest ihk ihr =>
    intro q i a K hat
    have hkids : Steps next kids (some lo) (lo + 1) := ihk fun _ _ _ _ hat => h (.kids hat)
    cases hat with
    | here => rw [h .here, hkids.iterate]
    | kids hat => exact hkids hat
    | rest hat => exact ihr (fun _ _ _ _ hat => h (.rest hat)) hat

end Forest

end Waybeam.Trees
