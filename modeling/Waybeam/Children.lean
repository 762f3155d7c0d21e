/-
# `Waybeam.Children` — a process and the children the kernel keeps for it

    fork      the kernel gives the child a pid that no other one has, or fails
    exits     a running child ends; it stays in the table until it is waited for
    reap      waitpid(-1, .., WNOHANG), until no ended child is left
    wait      waitpid(pid, .., 0): returns when that child has ended

A pid is free again once its child was waited for.
-/
import Mathlib.Data.Fintype.EquivFin

namespace Waybeam

/-- What `waitpid` tells of an ended child. -/
inductive WaitStatus where
  | exited (code : ℕ)
  | signaled (sig : ℕ)
  deriving DecidableEq, Repr

/-- A child that was not waited for; `status` is `none` while it runs. -/
structure Child where
  pid : ℕ
  status : Option WaitStatus := none
  deriving DecidableEq, Repr

/-- The children of a process, oldest first. -/
abbrev Children := List Child

namespace Children

variable (cs : Children)

/-- Some child has the pid. -/
def has (pid : ℕ) : Bool := cs.any fun c => decide (c.pid = pid)

/-- `fork`; `answer` is the pid the kernel picks, if it has room for a child. -/
def fork (answer : Option ℕ) : Option (ℕ × Children) :=
  answer.bind fun pid => if pid = 0 ∨ cs.has pid then none else some (pid, cs ++ [⟨pid, none⟩])

/-- A running child ends. -/
def exits (pid : ℕ) (w : WaitStatus) : Children :=
  cs.map fun c => if c.pid = pid ∧ c.status = none then { c with status := some w } else c

/-- The children that ended, in the order in which they are waited for. -/
def ended : List (ℕ × WaitStatus) := cs.filterMap fun c => c.status.map (c.pid, ·)

/-- The children that run. -/
def running : Children := cs.filter fun c => c.status.isNone

/-- The child is waited for. -/
def wait (pid : ℕ) : Children := cs.filter fun c => decide (c.pid ≠ pid)

variable {cs}

theorem fork_of_free {pid : ℕ} (hpos : pid ≠ 0) (hfree : cs.has pid = false) :
    cs.fork (some pid) = some (pid, cs ++ [⟨pid, none⟩]) := by
  rw [fork, Option.bind_some, if_neg]
  rintro (h | h)
  · exact hpos h
  · exact absurd h (Bool.eq_false_iff.mp hfree)

theorem has_iff {pid : ℕ} : cs.has pid = true ↔ pid ∈ cs.map Child.pid := by
  rw [has, List.any_eq_true, List.mem_map]
  exact exists_congr fun c => and_congr_right fun _ => decide_eq_true_iff

/-- The kernel gives a child a pid of its own. -/
theorem fork_cases {answer : Option ℕ} {pid : ℕ} {cs' : Children}
    (h : cs.fork answer = some (pid, cs')) : cs.has pid = false ∧ cs' = cs ++ [⟨pid, none⟩] := by
  obtain ⟨p, -, hp⟩ := Option.bind_eq_some_iff.mp h
  split at hp
  · cases hp
  · next hfree =>
      cases hp
      exact ⟨Bool.eq_false_iff.mpr fun hhas => hfree (.inr hhas), rfl⟩

theorem pids_append {pid : ℕ} (hpids : (cs.map Child.pid).Nodup) (hnew : cs.has pid = false) :
    ((cs ++ [(⟨pid, none⟩ : Child)]).map Child.pid).Nodup := by
  rw [List.map_append, List.nodup_append]
  refine ⟨hpids, List.nodup_singleton _, ?_⟩
  rintro q hq r hr rfl
  rw [List.mem_singleton.mp hr, ← has_iff, hnew] at hq
  exact absurd hq Bool.false_ne_true

theorem exits_pids (pid : ℕ) (w : WaitStatus) :
    (cs.exits pid w).map Child.pid = cs.map Child.pid := by
  rw [exits, List.map_map]
  refine List.map_congr_left ?_
  intro c _
  rw [Function.comp_apply]
  split <;> rfl

/-- A child that is still in the table after a reap did not end. -/
theorem running_iff (hpids : (cs.map Child.pid).Nodup) {pid : ℕ} :
    cs.running.has pid = true ↔ cs.has pid = true ∧ pid ∉ cs.ended.map Prod.fst := by
  rw [has_iff, has_iff]
  induction cs with
  | nil => simp [running]
  | cons c cs ih =>
      obtain ⟨hfresh, hpids⟩ := List.nodup_cons.mp hpids
      have hended : ∀ q ∈ ended cs, q.1 ∈ cs.map Child.pid := by
        intro q hq
        obtain ⟨d, hd, hq⟩ := List.mem_filterMap.mp hq
        obtain ⟨w, -, rfl⟩ := Option.map_eq_some_iff.mp hq
        exact List.mem_map_of_mem hd
      have hfresh' : c.pid ∉ (ended cs).map Prod.fst := by
        intro hc
        obtain ⟨q, hq, hqc⟩ := List.mem_map.mp hc
        exact hfresh (hqc ▸ hended q hq)
      have ih := ih hpids
      cases hs : c.status with
      | none =>
          have hrun : running (c :: cs) = c :: running cs := List.filter_cons_of_pos (by rw [hs]; rfl)
          have hend : ended (c :: cs) = ended cs := List.filterMap_cons_none (by rw [hs]; rfl)
          rw [hrun, hend, List.map_cons, List.map_cons, List.mem_cons, List.mem_cons, ih]
          constructor
          · rintro (rfl | h)
            · exact ⟨.inl rfl, hfresh'⟩
            · exact ⟨.inr h.1, h.2⟩
          · rintro ⟨rfl | h, hne⟩
            · exact .inl rfl
            · exact .inr ⟨h, hne⟩
      | some w =>
          have hrun : running (c :: cs) = running cs := List.filter_cons_of_neg (by rw [hs]; simp)
          have hend : ended (c :: cs) = (c.pid, w) :: ended cs :=
            List.filterMap_cons_some (by rw [hs]; rfl)
          rw [hrun, hend, List.map_cons, List.map_cons, List.mem_cons, List.mem_cons, ih]
          constructor
          · rintro ⟨h, hne⟩
            refine ⟨.inr h, ?_⟩
            rintro (rfl | hmem)
            · exact hfresh h
            · exact hne hmem
          · rintro ⟨rfl | h, hne⟩
            · exact absurd (.inl rfl) hne
            · exact ⟨h, fun hmem => hne (.inr hmem)⟩

theorem running_pids (hpids : (cs.map Child.pid).Nodup) : (cs.running.map Child.pid).Nodup :=
  hpids.sublist (List.filter_sublist.map _)

/-- There is always a pid to pick. -/
theorem exists_free (cs : Children) : ∃ pid, pid ≠ 0 ∧ cs.has pid = false := by
  obtain ⟨pid, h⟩ := Infinite.exists_notMem_finset (0 :: cs.map Child.pid).toFinset
  rw [List.mem_toFinset, List.mem_cons, not_or] at h
  refine ⟨pid, h.1, ?_⟩
  rw [has, List.any_eq_false]
  intro c hc hpid
  exact h.2 (List.mem_map.mpr ⟨c, hc, of_decide_eq_true hpid⟩)

end Children

end Waybeam
