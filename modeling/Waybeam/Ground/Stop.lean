/-
# `Waybeam.Ground.Stop` — a stop lasts until the next start

A tunnel that an operator stopped, by itself or with the system, is spawned again only after
a start, a restart, an up or a reinit.  What keeps it down is one of two things:

    no process    its state is not BACKOFF, so that no tick respawns it
    a process     `autostart_on_exit` is off, so that its exit leads to STOPPED

A stop of one tunnel makes it so from every state.  `down` makes it so for the tunnels that
have a process and passes the others by: one it finds in BACKOFF is respawned by the tick
that ends its backoff (`stop_sticks`).
-/
import Waybeam.Ground.Lifecycle

namespace Waybeam.Ground.Lifecycle

/-- Whether tunnel `i` is stopped, and no spawn of it while it is; a `down` counts as a stop of
it if `system` is set. -/
def stopped (system : Bool) (i : ℕ) : Monitor Obs Bool where
  upd
    | g, .request (.stop j) => g || decide (j = i)
    | g, .request .down => g || system
    | g, .request (.start j) | g, .request (.restart j) => g && decide (j ≠ i)
    | _, .request .up | _, .request .reinit => false
    | g, _ => g
  ok
    | g, .spawned j _ => !(g && decide (j = i))
    | _, _ => true

theorem sigterm_ignored (system : Bool) (i j pid : ℕ) :
    (stopped system i).Ignores (.sigterm j pid) := fun _ => ⟨rfl, rfl⟩

theorem sigkill_ignored (system : Bool) (i j pid : ℕ) :
    (stopped system i).Ignores (.sigkill j pid) := fun _ => ⟨rfl, rfl⟩

/-! ## One tunnel -/

namespace Tunnel

/-- Neither a tick nor an exit will bring it back. -/
structure Quiet (t : Tunnel) : Prop where
  noBackoff : t.state ≠ .backoff
  noRespawn : t.pid ≠ none → t.autostartOnExit = false

/-- A tunnel in BACKOFF has no process. -/
def Parked (t : Tunnel) : Prop := t.state = .backoff → t.pid = none

/-- What the history of tunnel `i` says of the tunnel at place `j`. -/
structure Good (i : ℕ) (g : Bool) (j : ℕ) (t : Tunnel) : Prop where
  parked : t.Parked
  quiet : g = true → j = i → t.Quiet

theorem onExit_parked (t : Tunnel) (now : ℕ) (w : WaitStatus) : (t.onExit now w).Parked := by
  intro _
  unfold onExit
  dsimp only
  split <;> rfl

theorem Quiet.onExit {t : Tunnel} (h : t.Quiet) (hp : t.pid ≠ none) (now : ℕ) (w : WaitStatus) :
    (t.onExit now w).Quiet := by
  unfold Tunnel.onExit
  dsimp only
  rw [h.noRespawn hp]
  exact ⟨TunnelState.noConfusion, fun hn => absurd rfl hn⟩

theorem spawn_parked (i : ℕ) (t : Tunnel) (cs : Children) (io : SpawnIo) :
    (t.spawn i cs io).1.Parked := by
  rw [spawn]
  split
  · exact TunnelState.noConfusion
  · split <;> exact TunnelState.noConfusion

/-- A spawn is seen at its own place. -/
theorem spawn_obs (i : ℕ) (t : Tunnel) (cs : Children) (io : SpawnIo) :
    (t.spawn i cs io).2.2 = [] ∨ ∃ pid, (t.spawn i cs io).2.2 = [.spawned i pid] := by
  rw [spawn]
  split
  · exact .inl rfl
  · split
    · exact .inl rfl
    · exact .inr ⟨_, rfl⟩

theorem spawn_good {system g : Bool} {i j : ℕ} (hg : g = true → j ≠ i) (t : Tunnel) (cs : Children)
    (io : SpawnIo) :
    (t.spawn j cs io).1.Good i g j ∧ (stopped system i).Accepts g (t.spawn j cs io).2.2 ∧
      (stopped system i).after g (t.spawn j cs io).2.2 = g := by
  refine ⟨⟨spawn_parked j t cs io, fun h hj => absurd hj (hg h)⟩, ?_⟩
  rcases spawn_obs j t cs io with h | ⟨pid, h⟩
  · rw [h]
    exact ⟨trivial, rfl⟩
  · rw [h]
    refine ⟨⟨?_, trivial⟩, rfl⟩
    show (!(g && decide (j = i))) = true
    cases g with
    | false => rfl
    | true => rw [decide_eq_false (hg rfl)]; rfl

/-- A stop makes a tunnel quiet whatever state it is in. -/
theorem requestStop_quiet {t : Tunnel} (h : t.Parked) (i now : ℕ) :
    (t.requestStop i now).1.Quiet := by
  rw [requestStop]
  split
  · next hp => exact ⟨TunnelState.noConfusion, fun hn => absurd hp hn⟩
  · next pid hp =>
      refine ⟨?_, fun _ => rfl⟩
      intro hb
      exact absurd (hp.symm.trans (h hb)) (Option.some_ne_none pid)

theorem requestStop_ignored (system : Bool) (i j : ℕ) (t : Tunnel) (now : ℕ) :
    ∀ o ∈ (t.requestStop j now).2, (stopped system i).Ignores o := by
  intro o ho
  rw [requestStop] at ho
  split at ho
  · exact absurd ho List.not_mem_nil
  · rw [List.mem_singleton.mp ho]
    exact sigterm_ignored system i j _

theorem restart_parked (j : ℕ) {t : Tunnel} (h : t.Parked) (now : ℕ) :
    (t.restart j now).1.Parked := by
  have hquiet := requestStop_quiet h j now
  rw [restart]
  dsimp only
  split
  · next hp => exact fun _ => hp
  · exact fun hb => absurd hb hquiet.noBackoff

/-- A tick may escalate a stop, and spawns a tunnel whose backoff is over. -/
theorem tick_cases (now : ℕ) (io : ℕ → SpawnIo) (j : ℕ) (t : Tunnel) (cs : Children) :
    ∃ deadline, ∃ killed : List Obs, (∀ o ∈ killed, ∃ pid, o = .sigkill j pid) ∧
      tick now io j t cs =
        if t.state = .backoff ∧ t.nextStartMs ≤ now then
          let r := { t with stopDeadlineMs := deadline }.spawn j cs (io j)
          (r.1, r.2.1, killed ++ r.2.2)
        else ({ t with stopDeadlineMs := deadline }, cs, killed) := by
  unfold tick
  dsimp only
  generalize hkilled : (if t.stopDeadlineMs ≠ 0 ∧ t.stopDeadlineMs ≤ now then
    (t.pid.map (Obs.sigkill j)).toList else []) = killed
  refine ⟨if killed = [] then t.stopDeadlineMs else 0, killed, ?_, ?_⟩
  · intro o ho
    rw [← hkilled] at ho
    split at ho
    · obtain ⟨pid, -, rfl⟩ := Option.map_eq_some_iff.mp (Option.mem_toList.mp ho)
      exact ⟨pid, rfl⟩
    · exact absurd ho List.not_mem_nil
  · by_cases hnil : killed = []
    · rw [if_pos hnil, if_pos hnil]
    · rw [if_neg hnil, if_neg hnil]

theorem Good.set_stopDeadline {i j : ℕ} {g : Bool} {t : Tunnel} (h : t.Good i g j) (deadline : ℕ) :
    { t with stopDeadlineMs := deadline }.Good i g j where
  parked := h.parked
  quiet hg hj := ⟨(h.quiet hg hj).noBackoff, (h.quiet hg hj).noRespawn⟩

/-- A tick respawns no tunnel that is stopped. -/
theorem tick_good {system g : Bool} {i j : ℕ} (now : ℕ) (io : ℕ → SpawnIo) {t : Tunnel}
    (cs : Children) (h : t.Good i g j) :
    (tick now io j t cs).1.Good i g j ∧ (stopped system i).Accepts g (tick now io j t cs).2.2 ∧
      (stopped system i).after g (tick now io j t cs).2.2 = g := by
  obtain ⟨deadline, killed, hkilled, htick⟩ := tick_cases now io j t cs
  have hign : ∀ o ∈ killed, (stopped system i).Ignores o := by
    intro o ho
    obtain ⟨pid, rfl⟩ := hkilled o ho
    exact sigkill_ignored system i j pid
  have hkeep := (stopped system i).after_of_ignored (g := g) hign
  rw [htick]
  split
  · next hdue =>
      have hg : g = true → j ≠ i := fun hg hj => (h.quiet hg hj).noBackoff hdue.1
      obtain ⟨hgood, hacc, hafter⟩ : _ ∧ (stopped system i).Accepts g _ ∧ _ :=
        spawn_good hg { t with stopDeadlineMs := deadline } cs (io j)
      refine ⟨hgood, ?_, ?_⟩
      · exact (Monitor.accepts_append ..).mpr ⟨Monitor.accepts_of_ignored hign, hkeep.symm ▸ hacc⟩
      · exact (Monitor.after_append ..).trans (hkeep.symm ▸ hafter)
  · exact ⟨h.set_stopDeadline deadline, Monitor.accepts_of_ignored hign, hkeep⟩

theorem autospawn_good {system : Bool} {i j : ℕ} (io : ℕ → SpawnIo) {t : Tunnel} (cs : Children)
    (h : t.Parked) :
    (autospawn io j t cs).1.Good i false j ∧
      (stopped system i).Accepts false (autospawn io j t cs).2.2 ∧
      (stopped system i).after false (autospawn io j t cs).2.2 = false := by
  rw [autospawn]
  split
  · exact spawn_good (fun hg => absurd hg Bool.false_ne_true) _ cs (io j)
  · exact ⟨⟨h, fun hg => absurd hg Bool.false_ne_true⟩, trivial, rfl⟩

/-- Where the fork fails, a tick adds no child. -/
theorem tick_idle {system g : Bool} {i j : ℕ} (now : ℕ) {io : ℕ → SpawnIo} (t : Tunnel)
    (cs : Children) (hio : (io j).fork = none) :
    (tick now io j t cs).2.1 = cs ∧ (stopped system i).after g (tick now io j t cs).2.2 = g := by
  obtain ⟨deadline, killed, hkilled, htick⟩ := tick_cases now io j t cs
  have hkeep : (stopped system i).after g killed = g := by
    refine Monitor.after_of_ignored ?_
    intro o ho
    obtain ⟨pid, rfl⟩ := hkilled o ho
    exact sigkill_ignored system i j pid
  have hspawn : ({ t with stopDeadlineMs := deadline }.spawn j cs (io j)).2 = (cs, []) := by
    rw [spawn, hio]
    split <;> rfl
  rw [htick]
  split
  · dsimp only
    rw [hspawn, List.append_nil]
    exact ⟨rfl, hkeep⟩
  · exact ⟨rfl, hkeep⟩

/-- The tick that ends a backoff spawns, if the fork is granted. -/
theorem tick_respawns {system : Bool} {now : ℕ} {io : ℕ → SpawnIo} {j pid : ℕ} {t : Tunnel}
    {cs : Children} (hb : t.state = .backoff) (hdue : t.nextStartMs ≤ now)
    (hio : io j = { fork := some pid }) (hpos : pid ≠ 0) (hfree : cs.has pid = false) :
    ¬(stopped system j).Accepts true (tick now io j t cs).2.2 := by
  obtain ⟨deadline, killed, hkilled, htick⟩ := tick_cases now io j t cs
  have hspawn : ({ t with stopDeadlineMs := deadline }.spawn j cs (io j)).2.2 = [.spawned j pid] := by
    rw [hio, spawn, Children.fork_of_free hpos hfree]
    rfl
  rw [htick, if_pos ⟨hb, hdue⟩]
  dsimp only
  rw [hspawn, Monitor.accepts_append, Monitor.after_of_ignored fun o ho => ?_]
  · rintro ⟨-, hok, -⟩
    have hdiff : (!(true && decide (j = j))) = true := hok
    rw [decide_eq_true rfl] at hdiff
    exact absurd hdiff Bool.false_ne_true
  · obtain ⟨pid, rfl⟩ := hkilled o ho
    exact sigkill_ignored system j j pid

theorem bootspawn_good {system : Bool} {i j : ℕ} (io : ℕ → SpawnIo) {t : Tunnel} (cs : Children)
    (h : t.Good i false j) :
    (bootspawn io j t cs).1.Good i false j ∧
      (stopped system i).Accepts false (bootspawn io j t cs).2.2 ∧
      (stopped system i).after false (bootspawn io j t cs).2.2 = false := by
  rw [bootspawn]
  split
  · exact spawn_good (fun hg => absurd hg Bool.false_ne_true) _ cs (io j)
  · exact ⟨h, trivial, rfl⟩

end Tunnel

/-! ## Exits -/

/-- What an exit cannot break. -/
def KeptByExit (P : Option Tunnel → Prop) : Prop :=
  ∀ t now w, P (some t) → t.pid ≠ none → P (some (t.onExit now w))

section Exits

variable {P : Option Tunnel → Prop} (hP : KeptByExit P) {j : ℕ}

include hP

theorem noteExit_keeps (now pid : ℕ) (w : WaitStatus) {ts : List Tunnel} (h : P ts[j]?) :
    P (noteExit now pid w ts)[j]? := by
  induction ts generalizing j with
  | nil => exact h
  | cons t ts ih =>
      rw [noteExit]
      split
      · next hpid =>
          cases j with
          | zero => exact hP t now w h fun hn => Option.some_ne_none pid (hpid.symm.trans hn)
          | succ j => exact h
      · cases j with
        | zero => exact h
        | succ j => exact ih h

theorem foldl_noteExit_keeps (now : ℕ) (cs : List (ℕ × WaitStatus)) {ts : List Tunnel} (h : P ts[j]?) :
    P (cs.foldl (fun ts c => noteExit now c.1 c.2 ts) ts)[j]? := by
  induction cs generalizing ts with
  | nil => exact h
  | cons c cs ih => exact ih (noteExit_keeps hP now c.1 c.2 h)

theorem Sup.reap_keeps {s : Sup} (h : P s.tunnels[j]?) : P s.reap.tunnels[j]? :=
  foldl_noteExit_keeps hP s.clock s.children.ended h

theorem Sup.awaitExits_keeps (deadline : ℕ) (sleeps : List Sleep) {s : Sup} (h : P s.tunnels[j]?) :
    P (s.awaitExits deadline sleeps).tunnels[j]? := by
  induction sleeps generalizing s with
  | nil =>
      rw [awaitExits]
      split
      · split <;> exact reap_keeps hP h
      · exact h
  | cons r rs ih =>
      rw [awaitExits]
      split
      · exact ih (reap_keeps hP h)
      · exact h

end Exits

/-! ## The supervisor -/

/-- The history of tunnel `i` is right about every tunnel. -/
def Sup.Inv (i : ℕ) (s : Sup) (g : Bool) : Prop :=
  ∀ (j : ℕ) (t : Tunnel), s.tunnels[j]? = some t → t.Good i g j

namespace Sup

variable {s : Sup} {system g : Bool} {i : ℕ}

theorem reap_inv (h : s.Inv i g) : s.reap.Inv i g := by
  intro j
  refine reap_keeps (P := fun o => ∀ t, o = some t → t.Good i g j) ?_ (h j)
  rintro t now w ht hp u ⟨⟩
  exact ⟨t.onExit_parked now w, fun hg hj => ((ht t rfl).quiet hg hj).onExit hp now w⟩

theorem visit_wp {m : Monitor Obs Bool} {f : ℕ → Tunnel → Children → Tunnel × Children × List Obs}
    (hf : ∀ j t cs, t.Good i g j → (f j t cs).1.Good i g j ∧ m.Accepts g (f j t cs).2.2 ∧
      m.after g (f j t cs).2.2 = g) (h : s.Inv i g) : m.wp g (s.visit f) (Inv i) := by
  have hfrom : ∀ (j : ℕ) (t : Tunnel), s.tunnels[j]? = some t → t.Good i g (0 + j) := by
    intro j t ht
    rw [Nat.zero_add]
    exact h j t ht
  obtain ⟨hkeep, hacc, hafter⟩ :=
    walk_wp (P := fun (j : ℕ) (t : Tunnel) => t.Good i g j) (r := s.children) hf hfrom
  refine ⟨hacc, ?_⟩
  intro j t ht
  show t.Good i (m.after g (walk f 0 s.tunnels s.children).2.2) j
  rw [hafter]
  exact Nat.zero_add j ▸ hkeep j t ht

/-- A request for one tunnel, told by what it does to that tunnel and its history. -/
theorem onTunnel_wp {r : Request} {k : ℕ} {f : Tunnel → Children → Tunnel × Children × List Obs}
    (h : s.Inv i g)
    (hf : ∀ t cs, t.Good i g k →
      (f t cs).1.Good i ((stopped system i).upd g (.request r)) k ∧
        (stopped system i).Accepts ((stopped system i).upd g (.request r)) (f t cs).2.2 ∧
        (stopped system i).after ((stopped system i).upd g (.request r)) (f t cs).2.2
          = (stopped system i).upd g (.request r))
    (hother : i ≠ k → (stopped system i).upd g (.request r) = true → g = true) :
    (stopped system i).wp g (s.onTunnel r k f) (Inv i) := by
  rw [onTunnel]
  split
  · exact wp_pure h
  · next t ht =>
      obtain ⟨hgood, hacc, hafter⟩ := hf t s.children (h k t ht)
      refine ⟨⟨rfl, hacc⟩, ?_⟩
      intro j u hu
      show u.Good i ((stopped system i).after _ _) j
      rw [Monitor.after_cons, hafter]
      by_cases hjk : j = k
      · subst hjk
        rw [List.getElem?_set_self (List.getElem?_eq_some_iff.mp ht).1] at hu
        exact Option.some.inj hu ▸ hgood
      · rw [List.getElem?_set_ne (Ne.symm hjk)] at hu
        have hu := h j u hu
        exact ⟨hu.parked, fun hg hj => hu.quiet (hother (hj ▸ hjk) hg) hj⟩

/-- A start or a restart of a tunnel lifts no stop of another one. -/
theorem of_released {k : ℕ} (h : (g && decide (k ≠ i)) = true) : g = true ∧ k ≠ i := by
  rw [Bool.and_eq_true, decide_eq_true_eq] at h
  exact h

theorem start_wp (h : s.Inv i g) (k : ℕ) (io : SpawnIo) :
    (stopped system i).wp g (s.start k io) (Inv i) := by
  refine onTunnel_wp h ?_ fun _ hk => (of_released hk).1
  intro t cs ht
  split
  · exact ⟨⟨ht.parked, fun hk => ht.quiet (of_released hk).1⟩, trivial, rfl⟩
  · exact Tunnel.spawn_good (fun hk => (of_released hk).2) _ cs io

theorem stop_wp (h : s.Inv i g) (k : ℕ) : (stopped system i).wp g (s.stop k) (Inv i) := by
  refine onTunnel_wp h ?_ ?_
  · intro t cs ht
    have hquiet := Tunnel.requestStop_quiet ht.parked k s.clock
    have hign := Tunnel.requestStop_ignored system i k t s.clock
    exact ⟨⟨fun hb => absurd hb hquiet.noBackoff, fun _ _ => hquiet⟩,
      Monitor.accepts_of_ignored hign, Monitor.after_of_ignored hign⟩
  · intro hik hg
    rcases (Bool.or_eq_true ..).mp hg with hg | hki
    · exact hg
    · exact absurd (of_decide_eq_true hki).symm hik

theorem restart_wp (h : s.Inv i g) (k : ℕ) : (stopped system i).wp g (s.restart k) (Inv i) := by
  refine onTunnel_wp h ?_ fun _ hk => (of_released hk).1
  intro t cs ht
  have hign : ∀ o ∈ (t.restart k s.clock).2, (stopped system i).Ignores o :=
    Tunnel.requestStop_ignored system i k t s.clock
  exact ⟨⟨Tunnel.restart_parked k ht.parked s.clock, fun hk hki => absurd hki (of_released hk).2⟩,
    Monitor.accepts_of_ignored hign, Monitor.after_of_ignored hign⟩

theorem upAndSpawn_wp (h : s.Inv i false) (ready : Bool) (io : ℕ → SpawnIo) :
    (stopped system i).wp false (s.upAndSpawn ready io) (Inv i) := by
  rw [upAndSpawn]
  split
  · exact visit_wp (s := s.bringUp ready) (fun j t cs ht => Tunnel.autospawn_good io cs ht.parked) h
  · exact wp_pure h

theorem Inv.release (h : s.Inv i g) : s.Inv i false :=
  fun j t ht => ⟨(h j t ht).parked, fun hg => absurd hg Bool.false_ne_true⟩

theorem up_wp (h : s.Inv i g) (ready : Bool) (io : ℕ → SpawnIo) :
    (stopped system i).wp g (s.up ready io) (Inv i) := by
  refine wp_andThen (wp_emit rfl ?_)
  split
  · exact wp_pure h.release
  · exact upAndSpawn_wp h.release ready io

/-! ### Stopping them all -/

theorem termOne_quiet {t : Tunnel} (h : t.state ≠ .backoff) (now : ℕ) (cs : Children) :
    (termOne now cs t).Quiet := by
  rw [termOne]
  split
  · next hp => exact ⟨h, fun hn => absurd hp hn⟩
  · exact ⟨h, fun _ => rfl⟩

theorem stopAllTunnels_ignored (s : Sup) (system : Bool) (i : ℕ) (sleeps : List Sleep) :
    ∀ o ∈ (s.stopAllTunnels sleeps).2, (stopped system i).Ignores o := by
  intro o ho
  rcases List.mem_append.mp ho with ho | ho
  · obtain ⟨⟨t, j⟩, -, ho⟩ := List.mem_filterMap.mp ho
    obtain ⟨pid, -, rfl⟩ := Option.map_eq_some_iff.mp ho
    exact sigterm_ignored system i j pid
  · obtain ⟨⟨t, j⟩, -, ho⟩ := List.mem_filterMap.mp ho
    obtain ⟨pid, -, rfl⟩ := Option.map_eq_some_iff.mp ho
    exact sigkill_ignored system i j pid

/-- What every exit and SIGTERM keep of a tunnel, its stop keeps; in the end it has no process. -/
theorem stopAllTunnels_keeps {P : Option Tunnel → Prop} (hP : KeptByExit P) {j : ℕ}
    (h : P (s.tunnels[j]?.map (termOne s.clock s.children))) (sleeps : List Sleep) :
    ∃ o, P o ∧ (s.stopAllTunnels sleeps).1.tunnels[j]? = o.map fun t => { t with pid := none } := by
  rw [← List.getElem?_map] at h
  exact ⟨_, awaitExits_keeps hP _ sleeps (s := { s with tunnels := s.tunnels.map _ }) h,
    List.getElem?_map ..⟩

theorem stopAllTunnels_noPid (sleeps : List Sleep) {j : ℕ} {t : Tunnel}
    (ht : (s.stopAllTunnels sleeps).1.tunnels[j]? = some t) : t.pid = none := by
  obtain ⟨o, -, ho⟩ :=
    stopAllTunnels_keeps (P := fun _ => True) (fun _ _ _ _ _ => trivial) trivial sleeps
  obtain ⟨u, -, rfl⟩ := Option.map_eq_some_iff.mp (ho.symm.trans ht)
  rfl

/-- A tunnel that is not in BACKOFF is quiet afterwards. -/
theorem stopAllTunnels_quiet {j : ℕ} (h : s.tunnels[j]?.map Tunnel.state ≠ some .backoff)
    (sleeps : List Sleep) {t : Tunnel}
    (ht : (s.stopAllTunnels sleeps).1.tunnels[j]? = some t) : t.Quiet := by
  have hexit : KeptByExit fun o => ∀ t, o = some t → t.Quiet := by
    rintro t now w ht hp u ⟨⟩
    exact (ht t rfl).onExit hp now w
  obtain ⟨o, hquiet, ho⟩ := stopAllTunnels_keeps hexit (s := s) (j := j) (by
    intro t ht
    obtain ⟨u, hu, rfl⟩ := Option.map_eq_some_iff.mp ht
    refine termOne_quiet ?_ s.clock s.children
    intro hb
    exact h (by rw [hu, Option.map_some, hb])) sleeps
  obtain ⟨u, hu, rfl⟩ := Option.map_eq_some_iff.mp (ho.symm.trans ht)
  exact ⟨(hquiet u hu).noBackoff, fun hn => absurd rfl hn⟩

/-- A tunnel without a process is passed by. -/
theorem stopAllTunnels_passes {j : ℕ} {t : Tunnel} (ht : s.tunnels[j]? = some t)
    (hp : t.pid = none) (sleeps : List Sleep) :
    (s.stopAllTunnels sleeps).1.tunnels[j]? = some t := by
  have hexit : KeptByExit fun o => o = some t := by
    rintro u now w ⟨⟩ hn
    exact absurd hp hn
  have hterm : termOne s.clock s.children t = t := by rw [termOne, hp]
  obtain ⟨o, rfl, ho⟩ := stopAllTunnels_keeps hexit (s := s) (j := j) (by
    rw [ht, Option.map_some, hterm]) sleeps
  rw [ho, Option.map_some, ← hp]

theorem reinit_wp (s : Sup) (sleeps : List Sleep) (dt : ℕ) (ready : Bool) (io : ℕ → SpawnIo) :
    (stopped system i).wp g (s.reinit sleeps dt ready io) (Inv i) := by
  refine wp_andThen (wp_emit rfl (wp_andThen ?_))
  refine wp_ignored (s.stopAllTunnels_ignored system i sleeps) ?_
  refine upAndSpawn_wp ?_ ready io
  intro j t ht
  exact ⟨fun _ => stopAllTunnels_noPid sleeps ht, fun hg => absurd hg Bool.false_ne_true⟩

/-- Where `down` counts as a stop of tunnel `i`, it does not find it in BACKOFF. -/
def DownCatches (system : Bool) (i : ℕ) (s : Sup) : Event → Prop
  | .down _ _ => system = true → s.tunnels[i]?.map Tunnel.state ≠ some .backoff
  | _ => True

theorem down_wp (h : s.Inv i g) (sleeps : List Sleep)
    (hcatch : system = true → s.tunnels[i]?.map Tunnel.state ≠ some .backoff) :
    (stopped system i).wp g (s.down sleeps) (Inv i) := by
  refine wp_andThen (wp_ignored (s.stopAllTunnels_ignored system i sleeps) (wp_emit rfl ?_))
  intro j t ht
  refine ⟨fun _ => stopAllTunnels_noPid sleeps ht, ?_⟩
  rintro hg rfl
  refine stopAllTunnels_quiet ?_ sleeps ht
  rcases (Bool.or_eq_true ..).mp hg with hg | hsystem
  · intro hb
    obtain ⟨u, hu, hb⟩ := Option.map_eq_some_iff.mp hb
    exact ((h j u hu).quiet hg rfl).noBackoff hb
  · exact hcatch hsystem

end Sup

/-! ## Runs -/

theorem machine_wp {s : Sup} {system g : Bool} {i : ℕ} {e : Event} (h : s.Inv i g)
    (hcatch : s.DownCatches system i e) :
    (stopped system i).wp g (machine.step s e) (Sup.Inv i) := by
  cases e with
  | exits dt pid w => exact wp_pure h
  | helper pid =>
      refine wp_pure ?_
      split <;> exact h
  | reap dt => exact wp_pure (Sup.reap_inv (s := s.wait dt) h)
  | tick dt io =>
      exact Sup.visit_wp (s := s.wait dt) (fun j t cs ht => Tunnel.tick_good _ io cs ht) h
  | start dt k io => exact Sup.start_wp (s := s.wait dt) h k io
  | stop dt k => exact Sup.stop_wp (s := s.wait dt) h k
  | restart dt k => exact Sup.restart_wp (s := s.wait dt) h k
  | up dt ready io => exact Sup.up_wp (s := s.wait dt) h ready io
  | down dt sleeps => exact Sup.down_wp (s := s.wait dt) h sleeps hcatch
  | reinit dt sleeps dt₁ ready io => exact (s.wait dt).reinit_wp sleeps dt₁ ready io

theorem Boot.init_inv (b : Boot) (i : ℕ) : b.init.Inv i false := by
  have hstart : ({ tunnels := b.autostart.map fun autostart => { autostart }
                   clock := b.clock } : Sup).Inv i false := by
    intro j t ht
    rw [List.getElem?_map] at ht
    obtain ⟨autostart, -, rfl⟩ := Option.map_eq_some_iff.mp ht
    exact ⟨fun _ => rfl, fun hg => absurd hg Bool.false_ne_true⟩
  unfold init
  dsimp only
  split
  · exact (Sup.visit_wp (m := stopped false i)
      (fun j t cs ht => Tunnel.bootspawn_good b.io cs ht) hstart).2.release
  · exact hstart

/-- A tunnel that `down` finds in BACKOFF comes back with the tick that ends its backoff. -/
theorem down_misses {s : Sup} {i : ℕ} {t : Tunnel} (ht : s.tunnels[i]? = some t)
    (hb : t.state = .backoff) (hp : t.pid = none) (g : Bool) (dt : ℕ) (sleeps : List Sleep) :
    ∃ dt' io, ¬(stopped true i).Accepts g (machine.trace s [.down dt sleeps, .tick dt' io]) := by
  set s₁ := (machine.step s (.down dt sleeps)).1 with hs₁
  have hfound : s₁.tunnels[i]? = some t :=
    Sup.stopAllTunnels_passes (s := s.wait dt) ht hp sleeps
  have hstopped : (stopped true i).after g (machine.step s (.down dt sleeps)).2 = true := by
    show (stopped true i).after g (((s.wait dt).stopAllTunnels sleeps).2 ++ [.request .down]) = true
    rw [Monitor.after_append]
    exact Bool.or_true _
  obtain ⟨pid, hpos, hfree⟩ := Children.exists_free s₁.children
  let io : ℕ → SpawnIo := fun j => { fork := if j = i then some pid else none }
  refine ⟨t.nextStartMs, io, ?_⟩
  rw [Machine.trace_cons, Monitor.accepts_append, hstopped, Machine.trace_cons,
    Monitor.accepts_append]
  rintro ⟨-, htick, -⟩
  have hwalk : (stopped true i).Accepts true
      (walk (Tunnel.tick (s₁.clock + t.nextStartMs) io) 0 s₁.tunnels s₁.children).2.2 := htick
  refine walk_rejects ?_ hfound ?_ hwalk
  · intro k u hk
    rw [Nat.zero_add] at hk
    exact Tunnel.tick_idle _ u s₁.children (if_neg hk)
  · rw [Nat.zero_add]
    refine Tunnel.tick_respawns hb (Nat.le_add_left ..) ?_ hpos hfree
    exact congrArg (fun fork => ({ fork } : SpawnIo)) (if_pos rfl)

/-- A stop of a tunnel lasts until the next start of it, in every run; `down` is a stop of every
tunnel it does not find in BACKOFF, and of no other. -/
theorem stop_sticks (b : Boot) (es : List Event) (i : ℕ) :
    (stopped false i).Accepts false (machine.trace b.init es) ∧
      (machine.Meets (Sup.DownCatches true i) b.init es →
        (stopped true i).Accepts false (machine.trace b.init es)) ∧
      ∀ t, (machine.run b.init es).tunnels[i]? = some t → t.state = .backoff →
        ∀ dt sleeps, ∃ dt' io, ¬(stopped true i).Accepts false
          (machine.trace b.init (es ++ [.down dt sleeps, .tick dt' io])) := by
  have hrun : ∀ system, machine.Meets (Sup.DownCatches system i) b.init es →
      (stopped system i).Accepts false (machine.trace b.init es) ∧
        (machine.run b.init es).Inv i
          ((stopped system i).after false (machine.trace b.init es)) := by
    intro system
    exact Machine.run_wp (fun s g e => machine_wp) (b.init_inv i)
  have hstop := hrun false (Machine.Meets.of_forall (by
    intro s e
    cases e with
    | down dt sleeps => exact fun h => absurd h Bool.false_ne_true
    | _ => trivial))
  refine ⟨hstop.1, fun hcatch => (hrun true hcatch).1, ?_⟩
  intro t ht hb dt sleeps
  have hp := (hstop.2 i t ht).parked hb
  obtain ⟨dt', io, hbad⟩ := down_misses ht hb hp
    ((stopped true i).after false (machine.trace b.init es)) dt sleeps
  refine ⟨dt', io, ?_⟩
  rw [Machine.trace_append, Monitor.accepts_append]
  exact fun h => hbad h.2

/-- A tunnel that crashes 10 ms after the boot. -/
def crashing : Boot where
  autostart := [true]
  io := fun _ => { fork := some 7 }

/-- The crash. -/
def crash : List Event := [.exits 10 7 (.exited 1), .reap 0]

/-- Taken down before the crash, it stays down; after it, it does not. -/
theorem crash_sticks :
    (stopped true 0).Accepts false
        (machine.trace crashing.init ([.down 0 [⟨50, [(7, .exited 0)]⟩]] ++ crash)) ∧
      ∃ dt io, ¬(stopped true 0).Accepts false
        (machine.trace crashing.init (crash ++ [.down 0 [], .tick dt io])) :=
  ⟨(stop_sticks crashing _ 0).2.1 ⟨fun _ => by decide, trivial, trivial, trivial⟩,
    (stop_sticks crashing crash 0).2.2 _ rfl rfl 0 []⟩

/-- It is back half a second after the crash. -/
theorem crash_comes_back :
    ¬∀ (b : Boot) (es : List Event) (i : ℕ),
      (stopped true i).Accepts false (machine.trace b.init es) := by
  intro hall
  have hrun := hall crashing
    (crash ++ [.down 100 [], .tick 400 fun _ => { fork := some 8 }]) 0
  revert hrun
  decide

end Waybeam.Ground.Lifecycle
