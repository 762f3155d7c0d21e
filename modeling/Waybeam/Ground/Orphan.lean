/-
# `Waybeam.Ground.Orphan` — no orphan and no double process

A ledger is kept next to the supervisor: every pid `tunnel_spawn` forked, with its tunnel,
until the kernel has no such child any more.  Within one event the waits come before the
forks, so that a ledger entry whose pid is gone after the waits was waited for.  The ledger
and the `pid` fields always say the same (`Owned`):

    a fork finds its tunnel without a pid, and writes down the pid the kernel picked
    a wait clears the pid of the one tunnel that has it, and its entry
-/
import Waybeam.Ground.Stop

namespace Waybeam.Ground.Lifecycle

/-- The pid recorded at place `i`. -/
def pidAt (ts : List Tunnel) (i : ℕ) : Option ℕ := ts[i]?.bind Tunnel.pid

/-- The forks that were not waited for: tunnel and pid. -/
abbrev Ledger := List (ℕ × ℕ)

/-- Every fork is written down; none may find another child of its tunnel. -/
def forks : Monitor Obs Ledger where
  upd
    | g, .spawned i pid => g ++ [(i, pid)]
    | g, _ => g
  ok
    | g, .spawned i _ => g.all fun f => decide (f.1 ≠ i)
    | _, _ => true

/-- What is left of the ledger when these are the children. -/
def Ledger.unreaped (g : Ledger) (cs : Children) : Ledger := g.filter fun f => cs.has f.2

/-- The children after the waits of an event and before its forks. -/
def Sup.waited (s : Sup) : Event → Children
  | .reap dt => (s.wait dt).reap.children
  | .down dt sleeps => ((s.wait dt).stopAllTunnels sleeps).1.children
  | .reinit dt sleeps _ _ _ => ((s.wait dt).stopAllTunnels sleeps).1.children
  | _ => s.children

/-- The supervisor and its ledger. -/
def tracked : Machine (Sup × Ledger) Event Obs where
  step sg e :=
    let (s, os) := sg.1.step e
    ((s, forks.after (sg.2.unreaped (sg.1.waited e)) os), os)

/-- What the forks at boot leave in the ledger. -/
def Boot.forked (b : Boot) : Ledger :=
  let s : Sup := { tunnels := b.autostart.map fun autostart => { autostart }, clock := b.clock }
  if b.ready then forks.after [] ((s.bringUp true).visit (Tunnel.bootspawn b.io)).2 else []

theorem forks_ignores_sigterm (i pid : ℕ) : forks.Ignores (.sigterm i pid) := fun _ => ⟨rfl, rfl⟩

theorem forks_ignores_sigkill (i pid : ℕ) : forks.Ignores (.sigkill i pid) := fun _ => ⟨rfl, rfl⟩

/-! ## The pid fields and the ledger -/

/-- The ledger is the recorded pids, and each is a child of one tunnel. -/
structure Owned (ts : List Tunnel) (cs : Children) (g : Ledger) : Prop where
  recorded : ∀ i pid, (i, pid) ∈ g ↔ pidAt ts i = some pid
  live : ∀ f ∈ g, cs.has f.2 = true
  owner : ∀ i j pid, pidAt ts i = some pid → pidAt ts j = some pid → i = j
  pids : (cs.map Child.pid).Nodup
  parked : ∀ (i : ℕ) (t : Tunnel), ts[i]? = some t → t.Parked

theorem pidAt_set {ts : List Tunnel} {i : ℕ} {t : Tunnel} (ht : ts[i]? = some t) (t' : Tunnel) (j : ℕ) :
    pidAt (ts.set i t') j = if j = i then t'.pid else pidAt ts j := by
  have hlen := (List.getElem?_eq_some_iff.mp ht).1
  rw [pidAt]
  split
  · next h => rw [h, List.getElem?_set_self hlen, Option.bind_some]
  · next h => rw [List.getElem?_set_ne (Ne.symm h), pidAt]

theorem pidAt_of_get {ts : List Tunnel} {i : ℕ} {t : Tunnel} (ht : ts[i]? = some t) :
    pidAt ts i = t.pid := by rw [pidAt, ht, Option.bind_some]

theorem Ledger.mem_unreaped {g : Ledger} {cs : Children} {f : ℕ × ℕ} :
    f ∈ g.unreaped cs ↔ f ∈ g ∧ cs.has f.2 = true := List.mem_filter

/-- A table that has no child of its own to offer leaves nothing new in the ledger. -/
theorem Ledger.unreaped_unreaped {g : Ledger} {cs cs' : Children}
    (h : ∀ pid, cs'.has pid = true → cs.has pid = true) :
    (g.unreaped cs).unreaped cs' = g.unreaped cs' := by
  rw [unreaped, unreaped, List.filter_filter]
  refine List.filter_congr ?_
  intro f _
  rw [Bool.and_eq_left_iff_imp]
  exact h f.2

theorem Owned.unreaped {ts : List Tunnel} {cs : Children} {g : Ledger} (h : Owned ts cs g) :
    g.unreaped cs = g := List.filter_eq_self.mpr h.live

/-! ## One tunnel -/

/-- What a visit may do to a tunnel: its pid stays, or it had none and gets a child's. -/
inductive Visited (i : ℕ) (t : Tunnel) (cs : Children) : Tunnel × Children × List Obs → Prop where
  | kept {t' : Tunnel} {os : List Obs} (hpid : t'.pid = t.pid) (hparked : t'.Parked)
      (hos : ∀ o ∈ os, forks.Ignores o) : Visited i t cs (t', cs, os)
  | forked {t' : Tunnel} {os : List Obs} {pid : ℕ} (hfree : t.pid = none)
      (hpid : t'.pid = some pid) (hnew : cs.has pid = false) (hparked : t'.Parked)
      (hos : ∀ o ∈ os, forks.Ignores o) :
      Visited i t cs (t', cs ++ [⟨pid, none⟩], os ++ [.spawned i pid])

namespace Owned

variable {ts : List Tunnel} {cs : Children} {g : Ledger} {i : ℕ} {t : Tunnel}

theorem parked_set (h : Owned ts cs g) (ht : ts[i]? = some t) {t' : Tunnel} (hparked : t'.Parked) :
    ∀ (j : ℕ) (u : Tunnel), (ts.set i t')[j]? = some u → u.Parked := by
  intro j u hu
  by_cases hji : j = i
  · subst hji
    rw [List.getElem?_set_self (List.getElem?_eq_some_iff.mp ht).1] at hu
    exact Option.some.inj hu ▸ hparked
  · rw [List.getElem?_set_ne (Ne.symm hji)] at hu
    exact h.parked j u hu

/-- A new child is written down where no other one is. -/
theorem fork (h : Owned ts cs g) (ht : ts[i]? = some t) (hfree : t.pid = none) {t' : Tunnel}
    {pid : ℕ} (hpid : t'.pid = some pid) (hnew : cs.has pid = false) (hparked : t'.Parked) :
    forks.ok g (.spawned i pid) = true ∧
      Owned (ts.set i t') (cs ++ [⟨pid, none⟩]) (g ++ [(i, pid)]) := by
  have hnone : pidAt ts i = none := (pidAt_of_get ht).trans hfree
  have hnowhere : ∀ j, pidAt ts j ≠ some pid := by
    intro j hj
    have hlive := h.live _ ((h.recorded j pid).mpr hj)
    exact absurd (hnew.symm.trans hlive) Bool.false_ne_true
  refine ⟨?_, ?_, ?_, ?_, ?_, h.parked_set ht hparked⟩
  · refine List.all_eq_true.mpr ?_
    rintro ⟨j, q⟩ hq
    refine decide_eq_true ?_
    rintro rfl
    exact absurd (hnone.symm.trans ((h.recorded _ _).mp hq)) (Option.some_ne_none q).symm
  · intro j q
    rw [List.mem_append, List.mem_singleton, Prod.mk.injEq, h.recorded, pidAt_set ht, hpid]
    split
    · next hji =>
        subst hji
        rw [hnone, Option.some.injEq]
        constructor
        · rintro (hq | ⟨-, rfl⟩)
          · cases hq
          · rfl
        · rintro rfl
          exact .inr ⟨rfl, rfl⟩
    · next hji => exact ⟨fun hq => hq.resolve_right fun hq => hji hq.1, .inl⟩
  · intro f hf
    rw [Children.has_iff, List.map_append, List.mem_append]
    rcases List.mem_append.mp hf with hf | hf
    · exact .inl (Children.has_iff.mp (h.live f hf))
    · rw [List.mem_singleton.mp hf]
      exact .inr (List.mem_singleton.mpr rfl)
  · intro j k q hj hk
    rw [pidAt_set ht, hpid] at hj hk
    split at hj
    · next hji =>
        split at hk
        · next hki => rw [hji, hki]
        · exact absurd (hk.trans hj.symm) (hnowhere k)
    · split at hk
      · exact absurd (hj.trans hk.symm) (hnowhere j)
      · exact h.owner j k q hj hk
  · exact Children.pids_append h.pids hnew

theorem visit (h : Owned ts cs g) (ht : ts[i]? = some t) {r : Tunnel × Children × List Obs}
    (hr : Visited i t cs r) :
    forks.Accepts g r.2.2 ∧ Owned (ts.set i r.1) r.2.1 (forks.after g r.2.2) := by
  cases hr with
  | @kept t' os hpid hparked hos =>
      refine ⟨Monitor.accepts_of_ignored hos, ?_⟩
      rw [Monitor.after_of_ignored hos]
      have hsame : ∀ j, pidAt (ts.set i t') j = pidAt ts j := by
        intro j
        rw [pidAt_set ht]
        split
        · next hji => rw [hji, pidAt_of_get ht, hpid]
        · rfl
      refine ⟨?_, h.live, ?_, h.pids, h.parked_set ht hparked⟩
      · intro j pid
        rw [hsame, h.recorded]
      · intro j k pid hj hk
        rw [hsame] at hj hk
        exact h.owner j k pid hj hk
  | forked hfree hpid hnew hparked hos =>
      obtain ⟨hok, howned⟩ := h.fork ht hfree hpid hnew hparked
      dsimp only
      rw [Monitor.accepts_append, Monitor.after_append, Monitor.after_of_ignored hos]
      exact ⟨⟨Monitor.accepts_of_ignored hos, hok, trivial⟩, howned⟩

end Owned

namespace Tunnel

theorem spawn_visited (i : ℕ) {t : Tunnel} (cs : Children) (io : SpawnIo) (hfree : t.pid = none) :
    Visited i t cs (t.spawn i cs io) := by
  have hnone : ∀ o ∈ ([] : List Obs), forks.Ignores o := fun _ ho => absurd ho List.not_mem_nil
  rw [spawn]
  split
  · exact .kept rfl TunnelState.noConfusion hnone
  · split
    · exact .kept rfl TunnelState.noConfusion hnone
    · next pid cs' hfork =>
        obtain ⟨hnew, rfl⟩ := Children.fork_cases hfork
        show Visited i t cs (_, _, [] ++ [Obs.spawned i pid])
        exact .forked hfree rfl hnew TunnelState.noConfusion hnone

theorem startOver_visited (i : ℕ) {t : Tunnel} (cs : Children) (io : SpawnIo) (hfree : t.pid = none) :
    Visited i t cs (t.startOver i cs io) := by
  have hspawn := spawn_visited i (t := { t with backoffIdx := 0, nextStartMs := 0 }) cs io hfree
  rw [startOver]
  cases hr : ({ t with backoffIdx := 0, nextStartMs := 0 } : Tunnel).spawn i cs io with
  | mk t' r =>
      rw [hr] at hspawn
      cases hspawn with
      | kept hpid hparked hos => exact .kept hpid hparked hos
      | forked hfree hpid hnew hparked hos => exact .forked hfree hpid hnew hparked hos

/-- A tick respawns from BACKOFF only, where there is no process. -/
theorem tick_visited (now : ℕ) (io : ℕ → SpawnIo) (i : ℕ) {t : Tunnel} (cs : Children)
    (hparked : t.Parked) : Visited i t cs (tick now io i t cs) := by
  obtain ⟨deadline, killed, hkilled, htick⟩ := tick_cases now io i t cs
  have hign : ∀ o ∈ killed, forks.Ignores o := by
    intro o ho
    obtain ⟨pid, rfl⟩ := hkilled o ho
    exact forks_ignores_sigkill i pid
  rw [htick]
  split
  · next hdue =>
      have hspawn := spawn_visited i (t := { t with stopDeadlineMs := deadline }) cs (io i)
        (hparked hdue.1)
      dsimp only
      cases hr : ({ t with stopDeadlineMs := deadline } : Tunnel).spawn i cs (io i) with
      | mk t' r =>
          rw [hr] at hspawn
          cases hspawn with
          | kept hpid hparked hos =>
              refine .kept hpid hparked ?_
              intro o ho
              exact (List.mem_append.mp ho).elim (hign o) (hos o)
          | forked hfree hpid hnew hparked hos =>
              dsimp only
              rw [← List.append_assoc]
              refine .forked hfree hpid hnew hparked ?_
              intro o ho
              exact (List.mem_append.mp ho).elim (hign o) (hos o)
  · exact .kept rfl hparked hign

theorem autospawn_visited (io : ℕ → SpawnIo) (i : ℕ) {t : Tunnel} (cs : Children)
    (hparked : t.Parked) : Visited i t cs (autospawn io i t cs) := by
  rw [autospawn]
  split
  · next h => exact startOver_visited i cs (io i) h.2
  · exact .kept rfl hparked fun _ ho => absurd ho List.not_mem_nil

theorem bootspawn_visited (io : ℕ → SpawnIo) (i : ℕ) {t : Tunnel} (cs : Children)
    (hparked : t.Parked) (hfree : t.pid = none) : Visited i t cs (bootspawn io i t cs) := by
  rw [bootspawn]
  split
  · exact spawn_visited i cs (io i) hfree
  · exact .kept rfl hparked fun _ ho => absurd ho List.not_mem_nil

theorem requestStop_pid (i : ℕ) (t : Tunnel) (now : ℕ) :
    (t.requestStop i now).1.pid = t.pid ∧ ∀ o ∈ (t.requestStop i now).2, forks.Ignores o := by
  rw [requestStop]
  split
  · exact ⟨rfl, fun _ ho => absurd ho List.not_mem_nil⟩
  · next pid hpid =>
      refine ⟨rfl, ?_⟩
      intro o ho
      rw [List.mem_singleton.mp ho]
      exact forks_ignores_sigterm i pid

theorem requestStop_visited (i : ℕ) {t : Tunnel} (cs : Children) (now : ℕ) (hparked : t.Parked) :
    Visited i t cs ((t.requestStop i now).1, cs, (t.requestStop i now).2) :=
  .kept (t.requestStop_pid i now).1 (fun hb => absurd hb (requestStop_quiet hparked i now).noBackoff)
    (t.requestStop_pid i now).2

theorem restart_visited (i : ℕ) {t : Tunnel} (cs : Children) (now : ℕ) (hparked : t.Parked) :
    Visited i t cs ((t.restart i now).1, cs, (t.restart i now).2) := by
  refine .kept ?_ (restart_parked i hparked now) (t.requestStop_pid i now).2
  rw [← (t.requestStop_pid i now).1, restart]
  dsimp only
  split <;> rfl

end Tunnel

/-! ## Waits -/

/-- An exit clears the pid where it is recorded. -/
theorem noteExit_pidAt (now pid : ℕ) (w : WaitStatus) {ts : List Tunnel}
    (howner : ∀ i j, pidAt ts i = some pid → pidAt ts j = some pid → i = j) (i q : ℕ) :
    pidAt (noteExit now pid w ts) i = some q ↔ pidAt ts i = some q ∧ q ≠ pid := by
  induction ts generalizing i with
  | nil => simp [noteExit, pidAt]
  | cons t ts ih =>
      rw [noteExit]
      split
      · next hpid =>
          cases i with
          | zero =>
              have hexit : (t.onExit now w).pid = none := by
                unfold Tunnel.onExit
                dsimp only
                split <;> rfl
              show (t.onExit now w).pid = some q ↔ t.pid = some q ∧ q ≠ pid
              rw [hexit, hpid, Option.some.injEq]
              exact ⟨fun h => absurd h.symm (Option.some_ne_none q), fun h => absurd h.1.symm h.2⟩
          | succ i =>
              show pidAt ts i = some q ↔ pidAt ts i = some q ∧ q ≠ pid
              refine (and_iff_left_of_imp ?_).symm
              rintro hq rfl
              exact absurd (howner 0 (i + 1) hpid hq) (Nat.succ_ne_zero i).symm
      · next hpid =>
          cases i with
          | zero =>
              show t.pid = some q ↔ t.pid = some q ∧ q ≠ pid
              refine (and_iff_left_of_imp ?_).symm
              rintro hq rfl
              exact hpid hq
          | succ i =>
              refine ih ?_ i
              intro j k hj hk
              exact Nat.succ.inj (howner (j + 1) (k + 1) hj hk)

/-- The exits of a reap clear the pids that are waited for. -/
theorem foldl_noteExit_pidAt (now : ℕ) (cs : List (ℕ × WaitStatus)) {ts : List Tunnel}
    (howner : ∀ i j pid, pidAt ts i = some pid → pidAt ts j = some pid → i = j) (i pid : ℕ) :
    pidAt (cs.foldl (fun ts c => noteExit now c.1 c.2 ts) ts) i = some pid ↔
      pidAt ts i = some pid ∧ pid ∉ cs.map Prod.fst := by
  induction cs generalizing ts with
  | nil => simp
  | cons c cs ih =>
      have hnote := noteExit_pidAt now c.1 c.2 fun i j => howner i j c.1
      rw [List.foldl_cons, ih, hnote, List.map_cons, List.mem_cons, not_or, and_assoc]
      intro j k q hj hk
      exact howner j k q ((hnote j q).mp hj).1 ((hnote k q).mp hk).1

/-- The pid fields are those of the ledger that are still children. -/
def Sup.Owns (s : Sup) (g : Ledger) : Prop := Owned s.tunnels s.children (g.unreaped s.children)

namespace Sup

variable {s : Sup} {g : Ledger}

theorem reap_has {pid : ℕ} (h : s.reap.children.has pid = true) : s.children.has pid = true := by
  obtain ⟨c, hc, hpid⟩ := List.any_eq_true.mp h
  exact List.any_eq_true.mpr ⟨c, (List.mem_filter.mp hc).1, hpid⟩

theorem reap_owns (h : s.Owns g) : s.reap.Owns g := by
  have hkeep : ∀ i pid, pidAt s.reap.tunnels i = some pid ↔
      pidAt s.tunnels i = some pid ∧ pid ∉ s.children.ended.map Prod.fst :=
    foldl_noteExit_pidAt s.clock s.children.ended h.owner
  have hgone : (g.unreaped s.children).unreaped s.reap.children = g.unreaped s.reap.children :=
    Ledger.unreaped_unreaped fun _ => reap_has
  refine ⟨?_, fun f hf => (Ledger.mem_unreaped.mp hf).2, ?_, Children.running_pids h.pids, ?_⟩
  · intro i pid
    rw [hkeep, ← h.recorded, ← hgone, Ledger.mem_unreaped]
    refine and_congr_right fun hf => ?_
    have hlive := h.live _ hf
    exact (Children.running_iff h.pids).trans (and_iff_right hlive)
  · intro i j pid hi hj
    exact h.owner i j pid ((hkeep i pid).mp hi).1 ((hkeep j pid).mp hj).1
  · intro i
    refine reap_keeps (P := fun o => ∀ t, o = some t → t.Parked) ?_ (h.parked i)
    rintro t now w - - u ⟨⟩
    exact t.onExit_parked now w

theorem foldl_exits_pids (es : List (ℕ × WaitStatus)) (cs : Children) :
    (es.foldl (fun cs e => cs.exits e.1 e.2) cs).map Child.pid = cs.map Child.pid := by
  induction es generalizing cs with
  | nil => rfl
  | cons e es ih => rw [List.foldl_cons, ih, Children.exits_pids]

theorem has_congr {cs cs' : Children} (h : cs.map Child.pid = cs'.map Child.pid) (pid : ℕ) :
    cs.has pid = cs'.has pid := by
  rw [Bool.eq_iff_iff, Children.has_iff, Children.has_iff, h]

/-- An exit is not a wait: tunnels and ledger speak about the pids of the children only. -/
theorem exits_tidy {g : Ledger} (h : Owned s.tunnels s.children g) (es : List (ℕ × WaitStatus)) :
    Owned (s.exits es).tunnels (s.exits es).children g := by
  have hpids : (s.exits es).children.map Child.pid = s.children.map Child.pid :=
    foldl_exits_pids es s.children
  exact ⟨h.recorded, fun f hf => (has_congr hpids f.2).trans (h.live f hf), h.owner,
    hpids ▸ h.pids, h.parked⟩

theorem exits_owns (h : s.Owns g) (es : List (ℕ × WaitStatus)) : (s.exits es).Owns g := by
  have hledger : g.unreaped (s.exits es).children = g.unreaped s.children :=
    List.filter_congr fun f _ => has_congr (foldl_exits_pids es s.children) f.2
  rw [Owns, hledger]
  exact exits_tidy h es

theorem awaitExits_owns (deadline : ℕ) (sleeps : List Sleep) (h : s.Owns g) :
    (s.awaitExits deadline sleeps).Owns g := by
  induction sleeps generalizing s with
  | nil =>
      rw [awaitExits]
      split
      · split <;> exact reap_owns h
      · exact h
  | cons r rs ih =>
      rw [awaitExits]
      split
      · exact ih (exits_owns (s := s.reap) (reap_owns h) r.exits)
      · exact h

/-! ### Stopping them all -/

theorem termOne_pid (now : ℕ) (cs : Children) (t : Tunnel) : (termOne now cs t).pid = t.pid := by
  rw [termOne]
  split <;> rfl

theorem termOne_parked {t : Tunnel} (h : t.Parked) (now : ℕ) (cs : Children) :
    (termOne now cs t).Parked := by
  rw [termOne]
  split
  · exact h
  · exact h

/-- SIGTERM leaves every process to be waited for. -/
theorem terms_owns (h : s.Owns g) :
    ({ s with tunnels := s.tunnels.map (termOne s.clock s.children) } : Sup).Owns g := by
  have hpid : ∀ i, pidAt (s.tunnels.map (termOne s.clock s.children)) i = pidAt s.tunnels i := by
    intro i
    rw [pidAt, List.getElem?_map, pidAt]
    cases s.tunnels[i]? with
    | none => rfl
    | some t => exact termOne_pid s.clock s.children t
  refine ⟨?_, h.live, ?_, h.pids, ?_⟩
  · intro i pid
    rw [hpid]
    exact h.recorded i pid
  · intro i j pid hi hj
    rw [hpid] at hi hj
    exact h.owner i j pid hi hj
  · intro i t ht
    rw [List.getElem?_map] at ht
    obtain ⟨u, hu, rfl⟩ := Option.map_eq_some_iff.mp ht
    exact termOne_parked (h.parked i u hu) s.clock s.children

theorem foldl_wait_has (ts : List Tunnel) (cs : Children) (pid : ℕ) :
    (ts.foldl (fun cs t => (t.pid.map cs.wait).getD cs) cs).has pid = true ↔
      cs.has pid = true ∧ ∀ t ∈ ts, t.pid ≠ some pid := by
  induction ts generalizing cs with
  | nil => simp
  | cons t ts ih =>
      have hone : ((t.pid.map cs.wait).getD cs).has pid = true ↔
          cs.has pid = true ∧ t.pid ≠ some pid := by
        cases t.pid with
        | none => simp
        | some q =>
            rw [Option.map_some, Option.getD_some, Children.wait, Children.has, List.any_filter,
              List.any_eq_true, Children.has, List.any_eq_true]
            simp only [Bool.and_eq_true, decide_eq_true_eq, ne_eq, Option.some.injEq]
            constructor
            · rintro ⟨c, hc, hne, rfl⟩
              exact ⟨⟨c, hc, rfl⟩, fun h => hne h.symm⟩
            · rintro ⟨⟨c, hc, rfl⟩, hne⟩
              exact ⟨c, hc, fun h => hne h.symm, rfl⟩
      rw [List.foldl_cons, ih, hone, List.forall_mem_cons, and_assoc]

theorem foldl_wait_pids (ts : List Tunnel) (cs : Children) (hpids : (cs.map Child.pid).Nodup) :
    ((ts.foldl (fun cs t => (t.pid.map cs.wait).getD cs) cs).map Child.pid).Nodup := by
  induction ts generalizing cs with
  | nil => exact hpids
  | cons t ts ih =>
      have hone : (((t.pid.map cs.wait).getD cs).map Child.pid).Nodup := by
        cases t.pid with
        | none => exact hpids
        | some q => exact hpids.sublist (List.filter_sublist.map _)
      exact ih _ hone

/-- In the end no tunnel has a process, and the ledger is empty. -/
theorem stopAllTunnels_owns (h : s.Owns g) (sleeps : List Sleep) :
    (s.stopAllTunnels sleeps).1.Owns g := by
  set s' : Sup := ({ s with tunnels := s.tunnels.map (termOne s.clock s.children) } : Sup).awaitExits
    (s.clock + stopGraceMs + 500) sleeps with hs'
  have howns : s'.Owns g := awaitExits_owns _ sleeps (terms_owns h)
  set cs := s'.tunnels.foldl (fun cs t => (t.pid.map cs.wait).getD cs) s'.children with hcs
  have hnone : ∀ i, pidAt (s'.tunnels.map fun t => { t with pid := none }) i = none := by
    intro i
    rw [pidAt, List.getElem?_map]
    cases s'.tunnels[i]? <;> rfl
  have hhas : ∀ pid, cs.has pid = true ↔
      s'.children.has pid = true ∧ ∀ t ∈ s'.tunnels, t.pid ≠ some pid := foldl_wait_has _ _
  have hempty : g.unreaped cs = [] := by
    rw [← Ledger.unreaped_unreaped fun pid hpid => ((hhas pid).mp hpid).1, Ledger.unreaped,
      List.filter_eq_nil_iff]
    rintro ⟨i, pid⟩ hf hpid
    obtain ⟨t, ht, hrec⟩ := Option.bind_eq_some_iff.mp ((howns.recorded i pid).mp hf)
    exact ((hhas pid).mp hpid).2 t (List.mem_of_getElem? ht) hrec
  show Owned (s'.tunnels.map fun t => { t with pid := none }) cs (g.unreaped cs)
  rw [hempty]
  refine ⟨?_, fun _ hf => absurd hf List.not_mem_nil, ?_, foldl_wait_pids _ _ howns.pids, ?_⟩
  · intro i pid
    rw [hnone]
    exact ⟨fun hf => absurd hf List.not_mem_nil, fun hf => absurd hf.symm (Option.some_ne_none pid)⟩
  · intro i j pid hi
    exact absurd ((hnone i).symm.trans hi).symm (Option.some_ne_none pid)
  · intro i t ht
    rw [List.getElem?_map] at ht
    obtain ⟨u, -, rfl⟩ := Option.map_eq_some_iff.mp ht
    exact fun _ => rfl

end Sup

/-! ## Events -/

namespace Sup

variable {s : Sup} {g : Ledger}

/-- What an event leaves when the waits left `g`. -/
def Tidy (s : Sup) (g : Ledger) : Prop := Owned s.tunnels s.children g

theorem visit_tidy {f : ℕ → Tunnel → Children → Tunnel × Children × List Obs}
    (hf : ∀ i t cs, t.Parked → Visited i t cs (f i t cs)) (h : s.Tidy g) :
    forks.wp g (s.visit f) Tidy := by
  refine walk_inv (P := fun _ => Owned) ?_ h
  intro i t ts cs g h ht
  exact h.visit ht (hf i t cs (h.parked i t ht))

theorem onTunnel_tidy {r : Request} {i : ℕ} {f : Tunnel → Children → Tunnel × Children × List Obs}
    (hf : ∀ t, t.Parked → Visited i t s.children (f t s.children)) (h : s.Tidy g) :
    forks.wp g (s.onTunnel r i f) Tidy := by
  rw [onTunnel]
  split
  · exact wp_pure h
  · next t ht =>
      obtain ⟨hacc, howned⟩ := h.visit ht (hf t (h.parked i t ht))
      exact ⟨⟨rfl, hacc⟩, howned⟩

theorem start_tidy (h : s.Tidy g) (i : ℕ) (io : SpawnIo) : forks.wp g (s.start i io) Tidy := by
  refine onTunnel_tidy ?_ h
  intro t hparked
  split
  · exact .kept rfl hparked fun _ ho => absurd ho List.not_mem_nil
  · next hpid => exact Tunnel.startOver_visited i _ io (Option.not_isSome_iff_eq_none.mp hpid)

theorem upAndSpawn_tidy (h : s.Tidy g) (ready : Bool) (io : ℕ → SpawnIo) :
    forks.wp g (s.upAndSpawn ready io) Tidy := by
  rw [upAndSpawn]
  split
  · exact visit_tidy (s := s.bringUp ready)
      (fun i t cs hparked => Tunnel.autospawn_visited io i cs hparked) h
  · exact wp_pure h

theorem up_tidy (h : s.Tidy g) (ready : Bool) (io : ℕ → SpawnIo) :
    forks.wp g (s.up ready io) Tidy := by
  refine wp_andThen (wp_emit rfl ?_)
  split
  · exact wp_pure h
  · exact upAndSpawn_tidy h ready io

theorem stopAllTunnels_ignores (s : Sup) (sleeps : List Sleep) :
    ∀ o ∈ (s.stopAllTunnels sleeps).2, forks.Ignores o := by
  intro o ho
  rcases List.mem_append.mp ho with ho | ho
  · obtain ⟨⟨t, i⟩, -, ho⟩ := List.mem_filterMap.mp ho
    obtain ⟨pid, -, rfl⟩ := Option.map_eq_some_iff.mp ho
    exact forks_ignores_sigterm i pid
  · obtain ⟨⟨t, i⟩, -, ho⟩ := List.mem_filterMap.mp ho
    obtain ⟨pid, -, rfl⟩ := Option.map_eq_some_iff.mp ho
    exact forks_ignores_sigkill i pid

/-- Every event keeps the pids and the ledger together. -/
theorem step_tidy (h : s.Tidy g) (e : Event) :
    forks.wp (g.unreaped (s.waited e)) (s.step e) Tidy := by
  have hkept : g.unreaped s.children = g := Owned.unreaped h
  have howns : s.Owns g := by rwa [Owns, hkept]
  cases e with
  | exits dt pid w =>
      refine wp_pure ?_
      show Owned _ _ (g.unreaped s.children)
      rw [hkept]
      exact exits_tidy (s := s.wait dt) h [(pid, w)]
  | helper pid =>
      refine wp_pure ?_
      show Owned _ _ (g.unreaped s.children)
      rw [hkept]
      split
      · exact h
      · next cs hfork =>
          obtain ⟨hnew, rfl⟩ := Children.fork_cases hfork
          refine ⟨h.recorded, ?_, h.owner, Children.pids_append h.pids hnew, h.parked⟩
          intro f hf
          rw [Children.has, List.any_append, Bool.or_eq_true]
          exact .inl (h.live f hf)
  | reap dt => exact wp_pure (reap_owns (s := s.wait dt) howns)
  | tick dt io =>
      exact visit_tidy (s := s.wait dt) (fun i t cs hparked => Tunnel.tick_visited _ io i cs hparked)
        howns
  | start dt i io => exact start_tidy (s := s.wait dt) howns i io
  | stop dt i =>
      exact onTunnel_tidy (s := s.wait dt)
        (fun t hparked => Tunnel.requestStop_visited i _ _ hparked) howns
  | restart dt i =>
      exact onTunnel_tidy (s := s.wait dt)
        (fun t hparked => Tunnel.restart_visited i _ _ hparked) howns
  | up dt ready io => exact up_tidy (s := s.wait dt) howns ready io
  | down dt sleeps =>
      refine wp_andThen (wp_ignored ((s.wait dt).stopAllTunnels_ignores sleeps) (wp_emit rfl ?_))
      exact stopAllTunnels_owns (s := s.wait dt) howns sleeps
  | reinit dt sleeps dt₁ ready io =>
      refine wp_andThen (wp_emit rfl (wp_andThen ?_))
      refine wp_ignored ((s.wait dt).stopAllTunnels_ignores sleeps) ?_
      exact upAndSpawn_tidy (s := ((s.wait dt).stopAllTunnels sleeps).1.wait dt₁)
        (stopAllTunnels_owns (s := s.wait dt) howns sleeps) ready io

end Sup

/-! ## Runs -/

/-- At boot no tunnel has a process before its turn. -/
theorem Boot.init_tidy (b : Boot) : b.init.Tidy b.forked := by
  have hnone : ∀ i, pidAt (b.autostart.map fun autostart => ({ autostart } : Tunnel)) i = none := by
    intro i
    rw [pidAt, List.getElem?_map]
    cases b.autostart[i]? <;> rfl
  have hstart : Owned (b.autostart.map fun autostart => ({ autostart } : Tunnel)) [] [] := by
    refine ⟨?_, fun _ hf => absurd hf List.not_mem_nil, ?_, List.nodup_nil, ?_⟩
    · intro i pid
      rw [hnone]
      exact ⟨fun hf => absurd hf List.not_mem_nil, fun hf => absurd hf.symm (Option.some_ne_none pid)⟩
    · intro i j pid hi
      exact absurd ((hnone i).symm.trans hi).symm (Option.some_ne_none pid)
    · intro i t ht
      rw [List.getElem?_map] at ht
      obtain ⟨autostart, -, rfl⟩ := Option.map_eq_some_iff.mp ht
      exact fun _ => rfl
  unfold init forked
  dsimp only
  split
  · refine (walk_inv (m := forks) (P := fun i ts cs g =>
      Owned ts cs g ∧ ∀ j, i ≤ j → pidAt ts j = none) ?_ ⟨hstart, fun j _ => hnone j⟩).2.1
    rintro i t ts cs g ⟨h, hfree⟩ ht
    have hpid : t.pid = none := (pidAt_of_get ht).symm.trans (hfree i (Nat.le_refl i))
    obtain ⟨hacc, howned⟩ := h.visit ht
      (Tunnel.bootspawn_visited b.io i cs (h.parked i t ht) hpid)
    refine ⟨hacc, howned, ?_⟩
    intro j hj
    rw [pidAt_set ht, if_neg (by omega)]
    exact hfree j (Nat.le_of_succ_le hj)
  · exact hstart

/-- No orphan and no double process: in every run, each fork that was not waited for is a child
recorded in its own tunnel and nowhere else, a recorded pid is such a fork, no tunnel has two, a
tunnel in BACKOFF has none, and no event forks for a tunnel that has one. -/
theorem no_orphan (b : Boot) (es : List Event) :
    let (s, g) := tracked.run (b.init, b.forked) es
    (∀ i pid, (i, pid) ∈ g → s.children.has pid = true ∧
        ∀ j, pidAt s.tunnels j = some pid ↔ j = i) ∧
      (∀ i pid, pidAt s.tunnels i = some pid → (i, pid) ∈ g) ∧
      (∀ i pid pid', (i, pid) ∈ g → (i, pid') ∈ g → pid = pid') ∧
      (∀ (i : ℕ) (t : Tunnel), s.tunnels[i]? = some t → t.state = .backoff → t.pid = none) ∧
      ∀ e, forks.Accepts (g.unreaped (s.waited e)) (s.step e).2 := by
  have hstep : ∀ (sg : Sup × Ledger) (e : Event), sg.1.Tidy sg.2 → True →
      (tracked.step sg e).1.1.Tidy (tracked.step sg e).1.2 := by
    intro sg e h _
    exact (Sup.step_tidy h e).2
  have htidy : (tracked.run (b.init, b.forked) es).1.Tidy (tracked.run (b.init, b.forked) es).2 :=
    Machine.run_inv hstep b.init_tidy (Machine.Meets.of_forall fun _ _ => trivial)
  generalize tracked.run (b.init, b.forked) es = sg at htidy
  obtain ⟨s, g⟩ := sg
  refine ⟨?_, ?_, ?_, htidy.parked, fun e => (Sup.step_tidy htidy e).1⟩
  · intro i pid hf
    have hpid := (htidy.recorded i pid).mp hf
    refine ⟨htidy.live _ hf, fun j => ⟨fun hj => htidy.owner j i pid hj hpid, ?_⟩⟩
    rintro rfl
    exact hpid
  · exact fun i pid hpid => (htidy.recorded i pid).mpr hpid
  · intro i pid pid' hf hf'
    exact Option.some.inj (((htidy.recorded i pid).mp hf).symm.trans ((htidy.recorded i pid').mp hf'))

end Waybeam.Ground.Lifecycle
