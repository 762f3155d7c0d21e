/-
# `Waybeam.Files` — a file that is replaced while others read it

A directory gives names to files; a file that has lost its name is still there for who has it open.
A file is replaced as a whole: the new content goes to a file of another name, which then takes the
name of the old one.

    creat n        append i …        rename n target

`Held` says who holds what.  A process holds at most one file: one of its own, that it fills under
a name of its own, or one it reads.  There is a rule for every operation, and for each a lemma of
what it leaves alone.  Two things follow, whatever the processes do and wherever they die: what the
target holds changes only when a name changes, from one whole content to another, and nothing
changes a file under its reader.  Nothing here names a program.
-/
import Mathlib.Data.List.Basic

namespace Waybeam

/-- A directory with names in `ν`, and files of elements of `β`; a file has one name at most. -/
structure Files (ν β : Type) where
  dir : ν → Option ℕ
  data : ℕ → List β
  next : ℕ
  named : ∀ n i, dir n = some i → i < next
  one : ∀ n m i, dir n = some i → dir m = some i → n = m

namespace Files

variable {ν β π : Type}

/-! ## Operations -/

/-- What the file of a name holds. -/
def content (f : Files ν β) (n : ν) : Option (List β) := (f.dir n).map f.data

/-- No file yet. -/
def empty : Files ν β where
  dir _ := none
  data _ := []
  next := 0
  named _ _ h := by cases h
  one _ _ _ h := by cases h

def append (f : Files ν β) (i : ℕ) (bs : List β) : Files ν β :=
  { f with data := Function.update f.data i (f.data i ++ bs) }

section Names

variable [DecidableEq ν] (f : Files ν β) (n m : ν)

theorem dir_creat {k : ν} {i : ℕ} (h : Function.update f.dir n (some f.next) k = some i) :
    (k = n ∧ i = f.next) ∨ (k ≠ n ∧ f.dir k = some i) := by
  by_cases hk : k = n
  · subst hk
    rw [Function.update_self] at h
    exact .inl ⟨rfl, (Option.some.inj h).symm⟩
  · rw [Function.update_of_ne hk] at h
    exact .inr ⟨hk, h⟩

/-- A new file, empty. -/
def creat : Files ν β where
  dir := Function.update f.dir n (some f.next)
  data := Function.update f.data f.next []
  next := f.next + 1
  named k i hk := by
    rcases f.dir_creat n hk with ⟨-, rfl⟩ | ⟨-, hk⟩
    · exact Nat.lt_succ_self _
    · exact Nat.lt_succ_of_lt (f.named k i hk)
  one k k' i hk hk' := by
    rcases f.dir_creat n hk with ⟨hkn, hi⟩ | ⟨-, hold⟩ <;> rcases f.dir_creat n hk' with ⟨hkn', hi'⟩ | ⟨-, hold'⟩
    · exact hkn.trans hkn'.symm
    · exact absurd (f.named k' i hold') (by omega)
    · exact absurd (f.named k i hold) (by omega)
    · exact f.one k k' i hold hold'

theorem dir_unlink {k : ν} {i : ℕ} (h : Function.update f.dir n none k = some i) : k ≠ n ∧ f.dir k = some i := by
  by_cases hk : k = n
  · subst hk
    rw [Function.update_self] at h
    cases h
  · rw [Function.update_of_ne hk] at h
    exact ⟨hk, h⟩

def unlink : Files ν β :=
  { f with
    dir := Function.update f.dir n none
    named := fun k i hk => f.named k i (f.dir_unlink n hk).2
    one := fun k k' i hk hk' => f.one k k' i (f.dir_unlink n hk).2 (f.dir_unlink n hk').2 }

theorem dir_rename {k : ν} {i : ℕ} (h : Function.update (Function.update f.dir m (f.dir n)) n none k = some i) :
    k ≠ n ∧ ((k = m ∧ f.dir n = some i) ∨ (k ≠ m ∧ f.dir k = some i)) := by
  by_cases hkn : k = n
  · subst hkn
    rw [Function.update_self] at h
    cases h
  · rw [Function.update_of_ne hkn] at h
    refine ⟨hkn, ?_⟩
    by_cases hkm : k = m
    · subst hkm
      rw [Function.update_self] at h
      exact .inl ⟨rfl, h⟩
    · rw [Function.update_of_ne hkm] at h
      exact .inr ⟨hkm, h⟩

/-- The file of the first name gets the second; the one that had it is left without. -/
def rename : Files ν β :=
  { f with
    dir := Function.update (Function.update f.dir m (f.dir n)) n none
    named := fun k i hk => by
      rcases (f.dir_rename n m hk).2 with ⟨-, hn⟩ | ⟨-, hk⟩
      · exact f.named n i hn
      · exact f.named k i hk
    one := fun k k' i hk hk' => by
      obtain ⟨hkn, ⟨hkm, hn⟩ | ⟨-, hold⟩⟩ := f.dir_rename n m hk <;>
        obtain ⟨hkn', ⟨hkm', hn'⟩ | ⟨-, hold'⟩⟩ := f.dir_rename n m hk'
      · exact hkm.trans hkm'.symm
      · exact absurd (f.one k' n i hold' hn) hkn'
      · exact absurd (f.one k n i hold hn') hkn
      · exact f.one k k' i hold hold' }

end Names

/-! ## Holding files -/

/-- What a process holds: a file it fills, under the name it has, or one it reads. -/
inductive Hold (ν : Type) where
  | nothing
  | temp (name : ν) (file : ℕ)
  | reader (file : ℕ)

def Hold.file : Hold ν → Option ℕ
  | .nothing => none
  | .temp _ i | .reader i => some i

/-- What the processes hold: the files that are filled have names of their own, not the target's,
and no file is filled while it is read. -/
structure Held (target : ν) (f : Files ν β) (hold : π → Hold ν) : Prop where
  temp : ∀ p n i, hold p = .temp n i → f.dir n = some i ∧ n ≠ target
  own : ∀ p q n i j, hold p = .temp n i → hold q = .temp n j → p = q
  reader : ∀ p i, hold p = .reader i → i < f.next ∧ ∀ q n, hold q ≠ .temp n i

variable {target n : ν} {f : Files ν β} {hold : π → Hold ν} {p q : π} {i j : ℕ}

namespace Held

/-- Nobody holds anything yet. -/
theorem start (f : Files ν β) : Held target f fun _ : π => .nothing where
  temp _ _ _ h := by cases h
  own _ _ _ _ _ h := by cases h
  reader _ _ h := by cases h

/-- A file that is filled is not the target. -/
theorem ne_target (h : Held target f hold) (hp : hold p = .temp n i) : f.dir target ≠ some i := by
  intro htarget
  obtain ⟨hn, hne⟩ := h.temp p n i hp
  exact hne (f.one n target i hn htarget)

/-- Two processes fill two files. -/
theorem apart (h : Held target f hold) {m : ν} (hp : hold p = .temp n i) (hq : hold q = .temp m j) (hqp : q ≠ p) :
    j ≠ i := by
  rintro rfl
  have hname : m = n := f.one m n j (h.temp q m j hq).1 (h.temp p n j hp).1
  subst hname
  exact hqp (h.own q p m j j hq hp)

/-- What others hold is not the file a process fills, -/
theorem ne_of_temp (h : Held target f hold) (hp : hold p = .temp n i) (hqp : q ≠ p) (hj : (hold q).file = some j) :
    j ≠ i := by
  cases hq : hold q with
  | nothing =>
      rw [hq] at hj
      cases hj
  | temp m k =>
      rw [hq] at hj
      cases hj
      exact h.apart hp hq hqp
  | reader k =>
      rw [hq] at hj
      cases hj
      rintro rfl
      exact (h.reader q j hq).2 p n hp

/-- nor one that is still to come. -/
theorem ne_next (h : Held target f hold) (hj : (hold q).file = some j) : j ≠ f.next := by
  cases hq : hold q with
  | nothing =>
      rw [hq] at hj
      cases hj
  | temp m k =>
      rw [hq] at hj
      cases hj
      exact Nat.ne_of_lt (f.named m j (h.temp q m j hq).1)
  | reader k =>
      rw [hq] at hj
      cases hj
      exact Nat.ne_of_lt (h.reader q j hq).1

theorem append (h : Held target f hold) (i : ℕ) (bs : List β) : Held target (f.append i bs) hold :=
  ⟨h.temp, h.own, h.reader⟩

theorem append_content (h : Held target f hold) (hp : hold p = .temp n i) (bs : List β) :
    (f.append i bs).content target = f.content target := by
  rw [content, content, show (f.append i bs).dir target = f.dir target from rfl]
  cases hj : f.dir target with
  | none => rfl
  | some j =>
      have hne : j ≠ i := by
        rintro rfl
        exact h.ne_target hp hj
      exact congrArg some (Function.update_of_ne hne ..)

section Update

variable [DecidableEq π]

/-- Of the files that are filled a process that lets go, or takes to reading, keeps none. -/
theorem temp_of_update {x y : Hold ν} (hx : ∀ n i, x ≠ .temp n i) (hy : y = .temp n i)
    (h : Function.update hold p x q = y) : q ≠ p ∧ hold q = .temp n i := by
  subst hy
  by_cases hqp : q = p
  · subst hqp
    rw [Function.update_self] at h
    exact absurd h (hx n i)
  · rw [Function.update_of_ne hqp] at h
    exact ⟨hqp, h⟩

/-- Whatever is let go of, by choice or by dying. -/
theorem release (h : Held target f hold) (p : π) : Held target f (Function.update hold p .nothing) where
  temp q n i hq := h.temp q n i (temp_of_update (by simp) rfl hq).2
  own q r n i j hq hr := h.own q r n i j (temp_of_update (by simp) rfl hq).2 (temp_of_update (by simp) rfl hr).2
  reader q i hq := by
    have hqp : q ≠ p := by
      rintro rfl
      rw [Function.update_self] at hq
      cases hq
    rw [Function.update_of_ne hqp] at hq
    obtain ⟨hi, hidle⟩ := h.reader q i hq
    exact ⟨hi, fun r n hr => hidle r n (temp_of_update (by simp) rfl hr).2⟩

theorem opens (h : Held target f hold) (hi : f.dir target = some i) (p : π) :
    Held target f (Function.update hold p (.reader i)) where
  temp q n j hq := h.temp q n j (temp_of_update (by simp) rfl hq).2
  own q r n j k hq hr := h.own q r n j k (temp_of_update (by simp) rfl hq).2 (temp_of_update (by simp) rfl hr).2
  reader q j hq := by
    by_cases hqp : q = p
    · subst hqp
      rw [Function.update_self] at hq
      cases hq
      exact ⟨f.named target i hi, fun r n hr => h.ne_target (temp_of_update (by simp) rfl hr).2 hi⟩
    · rw [Function.update_of_ne hqp] at hq
      obtain ⟨hj, hidle⟩ := h.reader q j hq
      exact ⟨hj, fun r n hr => hidle r n (temp_of_update (by simp) rfl hr).2⟩

variable [DecidableEq ν]

theorem creat (h : Held target f hold) (hfree : f.dir n = none) (hn : n ≠ target) (p : π) :
    Held target (f.creat n) (Function.update hold p (.temp n f.next)) := by
  have hhold : ∀ q m i, Function.update hold p (.temp n f.next) q = .temp m i →
      (q = p ∧ m = n ∧ i = f.next) ∨ (q ≠ p ∧ hold q = .temp m i) := by
    intro q m i hq
    by_cases hqp : q = p
    · subst hqp
      rw [Function.update_self] at hq
      cases hq
      exact .inl ⟨rfl, rfl, rfl⟩
    · rw [Function.update_of_ne hqp] at hq
      exact .inr ⟨hqp, hq⟩
  have hnew : ∀ q i, hold q ≠ .temp n i := by
    intro q i hq
    have htemp := (h.temp q n i hq).1
    rw [hfree] at htemp
    cases htemp
  refine ⟨?_, ?_, ?_⟩
  · intro q m i hq
    rcases hhold q m i hq with ⟨-, rfl, rfl⟩ | ⟨-, hold⟩
    · exact ⟨Function.update_self .., hn⟩
    · have hmn : m ≠ n := by
        rintro rfl
        exact hnew q i hold
      exact ⟨(Function.update_of_ne hmn ..).trans (h.temp q m i hold).1, (h.temp q m i hold).2⟩
  · intro q r m i j hq hr
    rcases hhold q m i hq with ⟨hqp, hm, -⟩ | ⟨-, hq'⟩ <;> rcases hhold r m j hr with ⟨hrp, hm', -⟩ | ⟨-, hr'⟩
    · exact hqp.trans hrp.symm
    · exact absurd (hm ▸ hr') (hnew r j)
    · exact absurd (hm' ▸ hq') (hnew q i)
    · exact h.own q r m i j hq' hr'
  · intro q i hq
    have hqp : q ≠ p := by
      rintro rfl
      rw [Function.update_self] at hq
      cases hq
    rw [Function.update_of_ne hqp] at hq
    obtain ⟨hi, hidle⟩ := h.reader q i hq
    refine ⟨Nat.lt_succ_of_lt hi, fun r m hr => ?_⟩
    rcases hhold r m i hr with ⟨-, -, rfl⟩ | ⟨-, hr⟩
    · exact Nat.lt_irrefl _ hi
    · exact hidle r m hr

theorem rename (h : Held target f hold) (hp : hold p = .temp n i) :
    Held target (f.rename n target) (Function.update hold p .nothing) := by
  have hrest := h.release p
  refine ⟨?_, hrest.own, hrest.reader⟩
  intro q m j hq
  obtain ⟨hqp, hq⟩ := temp_of_update (by simp) rfl hq
  obtain ⟨hm, hmt⟩ := h.temp q m j hq
  have hmn : m ≠ n := by
    rintro rfl
    exact hqp (h.own q p m j i hq hp)
  refine ⟨?_, hmt⟩
  show Function.update (Function.update f.dir target (f.dir n)) n none m = some j
  rw [Function.update_of_ne hmn, Function.update_of_ne hmt, hm]

theorem unlink (h : Held target f hold) (hp : hold p = .temp n i) :
    Held target (f.unlink n) (Function.update hold p .nothing) := by
  have hrest := h.release p
  refine ⟨?_, hrest.own, hrest.reader⟩
  intro q m j hq
  obtain ⟨hqp, hq⟩ := temp_of_update (by simp) rfl hq
  have hmn : m ≠ n := by
    rintro rfl
    exact hqp (h.own q p m j i hq hp)
  exact ⟨(Function.update_of_ne hmn ..).trans (h.temp q m j hq).1, (h.temp q m j hq).2⟩

end Update

end Held

/-! ## What an operation leaves alone -/

theorem append_data_self (f : Files ν β) (i : ℕ) (bs : List β) : (f.append i bs).data i = f.data i ++ bs :=
  Function.update_self ..

theorem append_data (f : Files ν β) (bs : List β) (hj : j ≠ i) : (f.append i bs).data j = f.data j :=
  Function.update_of_ne hj ..

variable [DecidableEq ν]

theorem creat_data (f : Files ν β) (n : ν) (hi : i ≠ f.next) : (f.creat n).data i = f.data i :=
  Function.update_of_ne hi ..

theorem creat_content (f : Files ν β) (hn : n ≠ target) : (f.creat n).content target = f.content target := by
  have hdir : (f.creat n).dir target = f.dir target := Function.update_of_ne hn.symm ..
  rw [content, content, hdir]
  cases hi : f.dir target with
  | none => rfl
  | some i => exact congrArg some (f.creat_data n (Nat.ne_of_lt (f.named target i hi)))

theorem unlink_content (f : Files ν β) (hn : n ≠ target) : (f.unlink n).content target = f.content target := by
  have hdir : (f.unlink n).dir target = f.dir target := Function.update_of_ne hn.symm ..
  rw [content, content, hdir]
  rfl

/-- From now on the target is the file, as it was filled. -/
theorem rename_content (f : Files ν β) (hn : n ≠ target) (hi : f.dir n = some i) :
    (f.rename n target).content target = some (f.data i) := by
  have hdir : (f.rename n target).dir target = some i := by
    show Function.update (Function.update f.dir target (f.dir n)) n none target = some i
    rw [Function.update_of_ne hn.symm, Function.update_self, hi]
  rw [content, hdir]
  rfl

end Files

end Waybeam
