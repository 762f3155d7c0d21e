/-
# `Waybeam.Machine` — deterministic machines, their runs, and monitors over what they emit

A daemon built around a poll loop is a deterministic machine: an event (a datagram, a
timer, a request, together with the answers its I/O calls got) takes a state to the
next one, and on the way a list of observations is emitted.  A *run* is a list of
events.  Three notions are all the developments below need:

    Meets ok s es      every step of the run meets `ok`, a condition on the state
                       before the step and on the event
    Monitor            a history variable folded over the observations, with a check
                       at every observation
    watch M m          the machine paired with the monitor's history variable, so that a
                       condition on a step may also speak about the history

A step is usually put together from smaller ones; `andThen` runs two in order, `walk` visits
the places of a list, and `wp` is what a step guarantees: the monitor accepts what it emits,
and a postcondition holds of the state and history it leaves.  The rules for runs are the two an induction ever gives: what
every step keeps, the run keeps (`run_inv`, `run_wp`), and two step conditions that agree
under an invariant agree over the run (`Meets.iff_of_inv`).  Nothing here names a program.
-/
import Mathlib.Data.List.Basic

namespace Waybeam

/-- A deterministic machine over states `σ`, events `ε` and observations `ο`. -/
structure Machine (σ ε ο : Type) where
  step : σ → ε → σ × List ο

/-- A history variable `μ` folded over observations, and what it demands of each. -/
structure Monitor (ο μ : Type) where
  upd : μ → ο → μ
  ok : μ → ο → Bool

namespace Monitor

variable {ο μ : Type} (m : Monitor ο μ)

/-- The history variable after a list of observations. -/
def after (g : μ) (os : List ο) : μ := os.foldl m.upd g

/-- Every observation passes the check, each against the history before it. -/
def Accepts (g : μ) : List ο → Prop
  | [] => True
  | o :: os => m.ok g o ∧ Accepts (m.upd g o) os

instance decAccepts : ∀ (g : μ) (os : List ο), Decidable (m.Accepts g os)
  | _, [] => inferInstanceAs (Decidable True)
  | g, o :: os =>
      have := decAccepts (m.upd g o) os
      inferInstanceAs (Decidable (m.ok g o = true ∧ m.Accepts (m.upd g o) os))

@[simp] theorem after_nil (g : μ) : m.after g [] = g := rfl

@[simp] theorem after_cons (g : μ) (o : ο) (os : List ο) :
    m.after g (o :: os) = m.after (m.upd g o) os := rfl

@[simp] theorem after_append (g : μ) (os os' : List ο) :
    m.after g (os ++ os') = m.after (m.after g os) os' :=
  List.foldl_append ..

@[simp] theorem accepts_nil (g : μ) : m.Accepts g [] := trivial

@[simp] theorem accepts_cons (g : μ) (o : ο) (os : List ο) :
    m.Accepts g (o :: os) ↔ m.ok g o ∧ m.Accepts (m.upd g o) os := Iff.rfl

theorem accepts_append (g : μ) (os os' : List ο) :
    m.Accepts g (os ++ os') ↔ m.Accepts g os ∧ m.Accepts (m.after g os) os' := by
  induction os generalizing g with
  | nil => simp
  | cons o os ih => simp [ih, and_assoc]

theorem after_of_kept {g : μ} {os : List ο} (h : ∀ o ∈ os, ∀ g, m.upd g o = g) :
    m.after g os = g := by
  induction os with
  | nil => rfl
  | cons o os ih =>
      rw [after_cons, h o List.mem_cons_self]
      exact ih fun o ho => h o (List.mem_cons_of_mem _ ho)

/-- The monitor neither checks nor remembers `o`. -/
def Ignores (o : ο) : Prop := ∀ g, m.ok g o ∧ m.upd g o = g

variable {m}

theorem after_of_ignored {g : μ} {os : List ο} (h : ∀ o ∈ os, m.Ignores o) : m.after g os = g :=
  m.after_of_kept fun o ho g => (h o ho g).2

theorem accepts_of_ignored {g : μ} {os : List ο} (h : ∀ o ∈ os, m.Ignores o) : m.Accepts g os := by
  induction os with
  | nil => trivial
  | cons o os ih =>
      have ho := h o List.mem_cons_self g
      rw [accepts_cons, ho.2]
      exact ⟨ho.1, ih fun o ho => h o (List.mem_cons_of_mem _ ho)⟩

end Monitor

/-! ## Emitting steps -/

section Emit

variable {σ ο μ : Type}

/-- Continue after a step; what it emitted comes first. -/
def andThen (r : σ × List ο) (k : σ → σ × List ο) : σ × List ο :=
  ((k r.1).1, r.2 ++ (k r.1).2)

@[simp] theorem andThen_pure (s : σ) (k : σ → σ × List ο) : andThen (s, []) k = k s := rfl

@[simp] theorem andThen_done (r : σ × List ο) : andThen r (fun s => (s, [])) = r := by
  simp [andThen]

theorem andThen_assoc (r : σ × List ο) (k k' : σ → σ × List ο) :
    andThen (andThen r k) k' = andThen r fun s => andThen (k s) k' := by
  simp [andThen]

/-- From history `g`, the monitor accepts what the step emitted and `Q` holds afterwards. -/
def Monitor.wp (m : Monitor ο μ) (g : μ) (r : σ × List ο) (Q : σ → μ → Prop) : Prop :=
  m.Accepts g r.2 ∧ Q r.1 (m.after g r.2)

variable {m : Monitor ο μ} {g : μ} {Q Q' : σ → μ → Prop}

theorem wp_pure {s : σ} (h : Q s g) : m.wp g (s, []) Q := ⟨trivial, h⟩

theorem wp_emit {s : σ} {o : ο} (ho : m.ok g o) (h : Q s (m.upd g o)) : m.wp g (s, [o]) Q :=
  ⟨⟨ho, trivial⟩, h⟩

theorem wp_mono {r : σ × List ο} (h : m.wp g r Q) (hQ : ∀ s g, Q s g → Q' s g) : m.wp g r Q' :=
  ⟨h.1, hQ _ _ h.2⟩

/-- A step that emits nothing the monitor knows of. -/
theorem wp_ignored {r : σ × List ο} (h : ∀ o ∈ r.2, m.Ignores o) (hQ : Q r.1 g) : m.wp g r Q := by
  refine ⟨m.accepts_of_ignored h, ?_⟩
  rw [m.after_of_ignored h]
  exact hQ

/-- Composition: the continuation starts from the history the first step left. -/
theorem wp_andThen {r : σ × List ο} {k : σ → σ × List ο}
    (h : m.wp g r fun s g => m.wp g (k s) Q) : m.wp g (andThen r k) Q := by
  refine ⟨(m.accepts_append ..).mpr ⟨h.1, h.2.1⟩, ?_⟩
  show Q _ (m.after g (r.2 ++ _))
  rw [m.after_append]
  exact h.2.2

variable {ι : Type} {f : σ → ι → σ × List ο}

/-- A step for each of a list of things, in order. -/
def each (f : σ → ι → σ × List ο) : List ι → σ → σ × List ο
  | [], s => (s, [])
  | i :: is, s => andThen (f s i) (each f is)

/-- What each step hands to the next, with what is left to do, all of them hand to the end. -/
theorem wp_each {P : List ι → σ → μ → Prop}
    (hf : ∀ i is s g, P (i :: is) s g → m.wp g (f s i) (P is)) {is : List ι} {s : σ} (h : P is s g) :
    m.wp g (each f is s) (P []) := by
  induction is generalizing s g with
  | nil => exact wp_pure h
  | cons i is ih => exact wp_andThen (wp_mono (hf i is s g h) fun _ _ h => ih h)

theorem each_singleton (f : σ → ι → σ × List ο) (i : ι) (s : σ) : each f [i] s = f s i :=
  andThen_done (f s i)

theorem each_append (f : σ → ι → σ × List ο) (is js : List ι) (s : σ) :
    each f (is ++ js) s = andThen (each f is s) (each f js) := by
  induction is generalizing s with
  | nil => rfl
  | cons i is ih =>
      rw [List.cons_append, each, each, andThen_assoc]
      congr 1
      exact funext fun s => ih s

/-- The same of the states alone. -/
theorem each_keeps {P : List ι → σ → Prop} (hf : ∀ i is s, P (i :: is) s → P is (f s i).1)
    {is : List ι} {s : σ} (h : P is s) : P [] (each f is s).1 := by
  induction is generalizing s with
  | nil => exact h
  | cons i is ih => exact ih (hf i is s h)

end Emit

/-! ## Emitting walks -/

section Walk

variable {α ρ ο μ : Type}

/-- Visit the places of a list in order, from place `i` on; a resource goes from hand to hand. -/
def walk (f : ℕ → α → ρ → α × ρ × List ο) : ℕ → List α → ρ → List α × ρ × List ο
  | _, [], r => ([], r, [])
  | i, a :: as, r =>
      let (a, r, os) := f i a r
      let (as, r, os') := walk f (i + 1) as r
      (a :: as, r, os ++ os')

variable {m : Monitor ο μ} {g : μ} {f : ℕ → α → ρ → α × ρ × List ο}

/-- What every visit keeps of its place, the walk keeps of all of them. -/
theorem walk_wp {P : ℕ → α → Prop}
    (hf : ∀ i a r, P i a → P i (f i a r).1 ∧ m.Accepts g (f i a r).2.2 ∧
      m.after g (f i a r).2.2 = g) {i : ℕ} {as : List α} {r : ρ}
    (h : ∀ j a, as[j]? = some a → P (i + j) a) :
    (∀ j a, (walk f i as r).1[j]? = some a → P (i + j) a) ∧ m.Accepts g (walk f i as r).2.2 ∧
      m.after g (walk f i as r).2.2 = g := by
  induction as generalizing i r with
  | nil => exact ⟨h, trivial, rfl⟩
  | cons a as ih =>
      obtain ⟨hkeep, hacc, hafter⟩ := hf i a r (h 0 a rfl)
      have hrest : ∀ j b, as[j]? = some b → P (i + 1 + j) b := by
        intro j b hb
        have hj := h (j + 1) b hb
        rwa [← Nat.add_assoc, Nat.add_right_comm] at hj
      obtain ⟨hkeep', hacc', hafter'⟩ := ih (r := (f i a r).2.1) hrest
      refine ⟨?_, ?_, ?_⟩
      · intro j b hb
        cases j with
        | zero => exact Option.some.inj hb ▸ hkeep
        | succ j =>
            have hj := hkeep' j b hb
            rwa [Nat.add_right_comm, Nat.add_assoc] at hj
      · exact (m.accepts_append ..).mpr ⟨hacc, hafter.symm ▸ hacc'⟩
      · exact (m.after_append ..).trans (hafter.symm ▸ hafter')

/-- What holds before the visit of each place, and after it of the next, holds after the walk. -/
theorem walk_inv {P : ℕ → List α → ρ → μ → Prop}
    (hf : ∀ i a as r g, P i as r g → as[i]? = some a → m.Accepts g (f i a r).2.2 ∧
      P (i + 1) (as.set i (f i a r).1) (f i a r).2.1 (m.after g (f i a r).2.2)) {as : List α}
    {r : ρ} (h : P 0 as r g) :
    m.Accepts g (walk f 0 as r).2.2 ∧
      P as.length (walk f 0 as r).1 (walk f 0 as r).2.1 (m.after g (walk f 0 as r).2.2) := by
  suffices hgen : ∀ todo done r g, P done.length (done ++ todo) r g →
      m.Accepts g (walk f done.length todo r).2.2 ∧
        P (done.length + todo.length) (done ++ (walk f done.length todo r).1)
          (walk f done.length todo r).2.1 (m.after g (walk f done.length todo r).2.2) by
    have hall := hgen as [] r g h
    rwa [List.length_nil, Nat.zero_add] at hall
  intro todo
  induction todo with
  | nil => exact fun done r g h => ⟨trivial, h⟩
  | cons a todo ih =>
      intro done r g h
      obtain ⟨hacc, hinv⟩ := hf done.length a _ r g h (by simp)
      rw [List.set_append_right _ _ (Nat.le_refl _), Nat.sub_self, List.set_cons_zero,
        List.append_cons] at hinv
      have hlen : (done ++ [(f done.length a r).1]).length = done.length + 1 := by simp
      obtain ⟨hacc', hinv'⟩ := ih (done ++ [(f done.length a r).1]) _ _ (hlen.symm ▸ hinv)
      rw [hlen] at hacc' hinv'
      rw [← List.append_cons, Nat.add_right_comm] at hinv'
      refine ⟨(m.accepts_append ..).mpr ⟨hacc, hacc'⟩, ?_⟩
      show P _ _ _ (m.after g (_ ++ _))
      rw [m.after_append]
      exact hinv'

/-- A visit that is not accepted, where the others neither touch the resource nor the history. -/
theorem walk_rejects {i j : ℕ} {as : List α} {a : α} {r : ρ}
    (hf : ∀ k a, k ≠ i + j → (f k a r).2.1 = r ∧ m.after g (f k a r).2.2 = g)
    (ha : as[j]? = some a) (hbad : ¬m.Accepts g (f (i + j) a r).2.2) :
    ¬m.Accepts g (walk f i as r).2.2 := by
  induction as generalizing i j with
  | nil => cases ha
  | cons b as ih =>
      intro hacc
      obtain ⟨hb, hrest⟩ := (m.accepts_append ..).mp hacc
      cases j with
      | zero => exact hbad (Option.some.inj ha ▸ hb)
      | succ j =>
          obtain ⟨hr, hg⟩ := hf i b (by omega)
          rw [hr, hg] at hrest
          refine ih ?_ ha ?_ hrest
          · intro k c hk
            exact hf k c (by omega)
          · rwa [Nat.add_right_comm, Nat.add_assoc]

end Walk

namespace Machine

variable {σ ε ο μ : Type} (M : Machine σ ε ο)

/-- The state a run ends in. -/
def run (s : σ) : List ε → σ
  | [] => s
  | e :: es => run (M.step s e).1 es

/-- The observations of a run, in order. -/
def trace (s : σ) : List ε → List ο
  | [] => []
  | e :: es => (M.step s e).2 ++ trace (M.step s e).1 es

/-- Every step of the run meets `ok`. -/
def Meets (ok : σ → ε → Prop) (s : σ) : List ε → Prop
  | [] => True
  | e :: es => ok s e ∧ Meets ok (M.step s e).1 es

@[simp] theorem run_nil (s : σ) : M.run s [] = s := rfl

@[simp] theorem run_cons (s : σ) (e : ε) (es : List ε) :
    M.run s (e :: es) = M.run (M.step s e).1 es := rfl

@[simp] theorem trace_nil (s : σ) : M.trace s [] = [] := rfl

@[simp] theorem trace_cons (s : σ) (e : ε) (es : List ε) :
    M.trace s (e :: es) = (M.step s e).2 ++ M.trace (M.step s e).1 es := rfl

theorem trace_append (s : σ) (es es' : List ε) :
    M.trace s (es ++ es') = M.trace s es ++ M.trace (M.run s es) es' := by
  induction es generalizing s with
  | nil => rfl
  | cons e es ih => rw [List.cons_append, trace_cons, trace_cons, ih, run_cons, List.append_assoc]

theorem run_append (s : σ) (es es' : List ε) : M.run s (es ++ es') = M.run (M.run s es) es' := by
  induction es generalizing s with
  | nil => rfl
  | cons e es ih => exact ih _

@[simp] theorem meets_nil (ok : σ → ε → Prop) (s : σ) : M.Meets ok s [] := trivial

@[simp] theorem meets_cons (ok : σ → ε → Prop) (s : σ) (e : ε) (es : List ε) :
    M.Meets ok s (e :: es) ↔ ok s e ∧ M.Meets ok (M.step s e).1 es := Iff.rfl

instance decMeets {ok : σ → ε → Prop} [∀ s e, Decidable (ok s e)] :
    ∀ (s : σ) (es : List ε), Decidable (M.Meets ok s es)
  | _, [] => inferInstanceAs (Decidable True)
  | s, e :: es =>
      have : Decidable (M.Meets ok (M.step s e).1 es) := decMeets _ es
      inferInstanceAs (Decidable (ok s e ∧ M.Meets ok (M.step s e).1 es))

/-! ## Rules -/

variable {M}

/-- An invariant that every step meeting `ok` keeps is an invariant of the run. -/
theorem run_inv {Inv : σ → Prop} {ok : σ → ε → Prop}
    (hstep : ∀ s e, Inv s → ok s e → Inv (M.step s e).1) {es : List ε} {s : σ}
    (h : Inv s) (hm : M.Meets ok s es) : Inv (M.run s es) := by
  induction es generalizing s with
  | nil => exact h
  | cons e es ih => exact ih (hstep s e h hm.1) hm.2

/-- What every step does under an invariant, the whole run does. -/
theorem Meets.of_inv {Inv : σ → Prop} {ok p : σ → ε → Prop}
    (hstep : ∀ s e, Inv s → ok s e → p s e ∧ Inv (M.step s e).1) :
    ∀ {es : List ε} {s : σ}, Inv s → M.Meets ok s es → M.Meets p s es
  | [], _, _, _ => trivial
  | e :: _, s, h, hm =>
      have hp := hstep s e h hm.1
      ⟨hp.1, Meets.of_inv hstep hp.2 hm.2⟩

/-- Two step conditions that agree under an invariant agree over the run.  The invariant need
only survive the steps that meet them: past the first one that does not, neither holds. -/
theorem Meets.iff_of_inv {Inv : σ → Prop} {legal p q : σ → ε → Prop}
    (hinv : ∀ s e, Inv s → legal s e → q s e → Inv (M.step s e).1)
    (hpq : ∀ s e, Inv s → legal s e → (p s e ↔ q s e)) :
    ∀ {es : List ε} {s : σ}, Inv s → M.Meets legal s es →
      (M.Meets p s es ↔ M.Meets q s es)
  | [], _, _, _ => Iff.rfl
  | e :: _, s, h, hm => by
      rw [meets_cons, meets_cons, hpq s e h hm.1]
      exact and_congr_right fun hq => Meets.iff_of_inv hinv hpq (hinv s e h hm.1 hq) hm.2

/-- The case of `Meets.iff_of_inv` without an invariant. -/
theorem Meets.congr {p q : σ → ε → Prop} (hpq : ∀ s e, p s e ↔ q s e) {s : σ} {es : List ε} :
    M.Meets p s es ↔ M.Meets q s es := by
  induction es generalizing s with
  | nil => exact Iff.rfl
  | cons e es ih => exact and_congr (hpq s e) ih

/-- A condition that always holds. -/
theorem Meets.of_forall {p : σ → ε → Prop} (hp : ∀ s e, p s e) :
    ∀ {es : List ε} {s : σ}, M.Meets p s es
  | [], _ => trivial
  | _ :: _, _ => ⟨hp _ _, Meets.of_forall hp⟩

/-- A condition on the events alone. -/
theorem Meets.of_mem {p : ε → Prop} {es : List ε} {s : σ} (h : ∀ e ∈ es, p e) :
    M.Meets (fun _ e => p e) s es := by
  induction es generalizing s with
  | nil => trivial
  | cons e es ih => exact ⟨h e List.mem_cons_self, ih fun e' he' => h e' (List.mem_cons_of_mem _ he')⟩

theorem Meets.mono {p q : σ → ε → Prop} (hpq : ∀ s e, p s e → q s e) :
    ∀ {es : List ε} {s : σ}, M.Meets p s es → M.Meets q s es
  | [], _, _ => trivial
  | _ :: _, _, h => ⟨hpq _ _ h.1, Meets.mono hpq h.2⟩

theorem Meets.and {p q : σ → ε → Prop} {s : σ} {es : List ε} :
    M.Meets (fun s e => p s e ∧ q s e) s es ↔ M.Meets p s es ∧ M.Meets q s es := by
  induction es generalizing s with
  | nil => simp
  | cons e es ih => simp only [meets_cons, ih]; tauto

/-- What is observed of every step under an invariant is observed of the whole run. -/
theorem forall_mem_trace {Inv : σ → Prop} {p : ο → Prop}
    (hstep : ∀ s e, Inv s → (∀ o ∈ (M.step s e).2, p o) ∧ Inv (M.step s e).1) {s : σ} (h : Inv s)
    (es : List ε) : ∀ o ∈ M.trace s es, p o := by
  induction es generalizing s with
  | nil => intro o ho; cases ho
  | cons e es ih =>
      intro o ho
      rcases List.mem_append.mp ho with ho | ho
      · exact (hstep s e h).1 o ho
      · exact ih (hstep s e h).2 o ho

/-- Every observation of a run of legal steps is as asked iff every step meets `q`, when that is so
step by step under an invariant the steps meeting `q` keep. -/
theorem forall_mem_trace_iff {Inv : σ → Prop} {legal q : σ → ε → Prop} {p : ο → Prop}
    (hinv : ∀ s e, Inv s → legal s e → q s e → Inv (M.step s e).1)
    (hok : ∀ s e, Inv s → legal s e → ((∀ o ∈ (M.step s e).2, p o) ↔ q s e)) {s : σ} (h : Inv s)
    {es : List ε} (hl : M.Meets legal s es) : (∀ o ∈ M.trace s es, p o) ↔ M.Meets q s es := by
  induction es generalizing s with
  | nil => simp
  | cons e es ih =>
      rw [trace_cons, List.forall_mem_append, meets_cons, hok s e h hl.1]
      exact and_congr_right fun hq => ih (hinv s e h hl.1 hq) hl.2

/-- Two machines that stay related under the same events are observed alike. -/
theorem trace_eq_of_related {τ : Type} {N : Machine τ ε ο} {R : σ → τ → Prop}
    (hstep : ∀ s t e, R s t → (M.step s e).2 = (N.step t e).2 ∧ R (M.step s e).1 (N.step t e).1)
    {s : σ} {t : τ} (h : R s t) (es : List ε) : M.trace s es = N.trace t es := by
  induction es generalizing s t with
  | nil => rfl
  | cons e es ih =>
      obtain ⟨hobs, hnext⟩ := hstep s t e h
      rw [trace_cons, trace_cons, hobs, ih hnext]

/-- A step guarantee under an invariant on state and history, over a run. -/
theorem run_wp {m : Monitor ο μ} {Inv : σ → μ → Prop} {ok : σ → ε → Prop}
    (hstep : ∀ s g e, Inv s g → ok s e → m.wp g (M.step s e) Inv) {es : List ε} {s : σ} {g : μ}
    (h : Inv s g) (hm : M.Meets ok s es) :
    m.Accepts g (M.trace s es) ∧ Inv (M.run s es) (m.after g (M.trace s es)) := by
  induction es generalizing s g with
  | nil => exact ⟨trivial, h⟩
  | cons e es ih =>
      have hs := hstep s g e h hm.1
      have hrest := ih hs.2 hm.2
      rw [trace_cons, m.accepts_append, m.after_append]
      exact ⟨⟨hs.1, hrest.1⟩, hrest.2⟩

/-! ## Watched machines -/

variable (M)

/-- The machine together with a monitor's history variable. -/
def watch (m : Monitor ο μ) : Machine (σ × μ) ε ο where
  step sg e := (((M.step sg.1 e).1, m.after sg.2 (M.step sg.1 e).2), (M.step sg.1 e).2)

variable (m : Monitor ο μ)

@[simp] theorem watch_step_state (sg : σ × μ) (e : ε) :
    ((M.watch m).step sg e).1
      = ((M.step sg.1 e).1, m.after sg.2 (M.step sg.1 e).2) := rfl

@[simp] theorem watch_step_obs (sg : σ × μ) (e : ε) :
    ((M.watch m).step sg e).2 = (M.step sg.1 e).2 := rfl

/-- The watched machine takes the steps of the machine it watches. -/
theorem watch_meets (ok : σ → ε → Prop) (s : σ) (g : μ) (es : List ε) :
    (M.watch m).Meets (fun sg e => ok sg.1 e) (s, g) es ↔ M.Meets ok s es := by
  induction es generalizing s g with
  | nil => simp
  | cons e es ih => simp [ih]

variable {M m}

/-- `run_wp` for a condition on the steps that may speak about the history. -/
theorem run_wp_watch {Inv : σ → μ → Prop} {q : σ × μ → ε → Prop}
    (hstep : ∀ s g e, Inv s g → q (s, g) e → m.wp g (M.step s e) Inv) {s : σ} {g : μ}
    (h : Inv s g) {es : List ε} (hq : (M.watch m).Meets q (s, g) es) :
    m.Accepts g (M.trace s es) ∧ Inv (M.run s es) (m.after g (M.trace s es)) := by
  induction es generalizing s g with
  | nil => exact ⟨trivial, h⟩
  | cons e es ih =>
      have hs := hstep s g e h hq.1
      have hrest := ih hs.2 hq.2
      rw [trace_cons, m.accepts_append, m.after_append]
      exact ⟨⟨hs.1, hrest.1⟩, hrest.2⟩

/-- A monitor accepts a run of legal steps iff every step meets `q`, when it does so step by step
under an invariant on state and history that the steps meeting `q` keep. -/
theorem accepts_trace_iff_of {Inv : σ → μ → Prop} {legal : σ → ε → Prop} {q : σ × μ → ε → Prop}
    (hinv : ∀ s g e, Inv s g → legal s e → q (s, g) e →
      Inv (M.step s e).1 (m.after g (M.step s e).2))
    (hok : ∀ s g e, Inv s g → legal s e → (m.Accepts g (M.step s e).2 ↔ q (s, g) e)) {s : σ} {g : μ}
    (h : Inv s g) {es : List ε} (hl : M.Meets legal s es) :
    m.Accepts g (M.trace s es) ↔ (M.watch m).Meets q (s, g) es := by
  induction es generalizing s g with
  | nil => exact Iff.rfl
  | cons e es ih =>
      rw [trace_cons, m.accepts_append, meets_cons, hok s g e h hl.1]
      exact and_congr_right fun hq => ih (hinv s g e h hl.1 hq) hl.2

/-- The case in which every step is legal. -/
theorem accepts_trace_iff {Inv : σ → μ → Prop} {q : σ × μ → ε → Prop}
    (hinv : ∀ s g e, Inv s g → q (s, g) e → Inv (M.step s e).1 (m.after g (M.step s e).2))
    (hok : ∀ s g e, Inv s g → (m.Accepts g (M.step s e).2 ↔ q (s, g) e)) {s : σ} {g : μ}
    (h : Inv s g) (es : List ε) :
    m.Accepts g (M.trace s es) ↔ (M.watch m).Meets q (s, g) es :=
  accepts_trace_iff_of (fun s g e h _ => hinv s g e h) (fun s g e h _ => hok s g e h) h
    (Meets.of_forall fun _ _ => trivial)

end Machine

end Waybeam
