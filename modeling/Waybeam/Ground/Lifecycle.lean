/-
# `Waybeam.Ground.Lifecycle` — the processes of the tunnels

One wfb_rx or wfb_tx per tunnel, forked by `tunnel_spawn` and waited for by `supervisor_reap`:

    STOPPED ──start, up, reinit──▶ RUNNING ──exit──▶ BACKOFF ──tick──▶ RUNNING
    RUNNING ──stop, down, then exit──▶ STOPPED          FAILED: the fork failed

A stop of a tunnel without a process clears its state on the spot; one of a tunnel with a
process clears `autostart_on_exit` and leaves the rest to the reaper.  `down` does the second
only.  Requests name a tunnel by its place; the iface commands around `up` and `down` are
their verdict `ready`.
-/
import Waybeam.Children
import Waybeam.Machine

namespace Waybeam.Ground.Lifecycle

/-- `TunnelState`. -/
inductive TunnelState where
  | stopped
  | starting
  | running
  | backoff
  | failed
  deriving DecidableEq, Repr

/-- `SystemState`. -/
inductive SystemState where
  | down
  | up
  | upFailed
  deriving DecidableEq, Repr

/-- The runtime state of a tunnel; a `pid` of `-1` is `none`. -/
structure Tunnel where
  autostart : Bool
  state : TunnelState := .stopped
  pid : Option ℕ := none
  exitCode : ℤ := 0
  restartCount : ℕ := 0
  backoffIdx : ℕ := 0
  nextStartMs : ℕ := 0
  autostartOnExit : Bool := false
  /-- when SIGTERM turns into SIGKILL; `0` while no stop is under way -/
  stopDeadlineMs : ℕ := 0

/-- What an operator asks for. -/
inductive Request where
  | start (i : ℕ)
  | stop (i : ℕ)
  | restart (i : ℕ)
  | up
  | down
  | reinit

/-- What the supervisor does, in order. -/
inductive Obs where
  /-- a request that reached its handler; `down` when it returns -/
  | request (r : Request)
  /-- `tunnel_spawn` forked -/
  | spawned (i pid : ℕ)
  | sigterm (i pid : ℕ)
  | sigkill (i pid : ℕ)

/-- What `tunnel_spawn` meets: whether the arguments fit, and what `fork` answers. -/
structure SpawnIo where
  argv : Bool := true
  fork : Option ℕ := none

/-- `GS_BACKOFF_MS`. -/
def GS_BACKOFF_MS : List ℕ := [500, 1000, 2000, 4000, 8000, 16000, 30000]

/-- `GS_STOP_GRACE_MS`. -/
def stopGraceMs : ℕ := 1500

/-! ## One tunnel -/

namespace Tunnel

/-- `tunnel_spawn`. -/
def spawn (i : ℕ) (t : Tunnel) (cs : Children) (io : SpawnIo) : Tunnel × Children × List Obs :=
  if !io.argv then ({ t with state := .failed }, cs, [])
  else
    match cs.fork io.fork with
    | none => ({ t with state := .failed }, cs, [])
    | some (pid, cs) =>
        ({ t with
          pid := some pid, state := .running, autostartOnExit := true, stopDeadlineMs := 0
          restartCount := t.restartCount + 1 }, cs, [.spawned i pid])

/-- A start that forgets the backoff. -/
def startOver (i : ℕ) (t : Tunnel) (cs : Children) (io : SpawnIo) : Tunnel × Children × List Obs :=
  { t with backoffIdx := 0, nextStartMs := 0 }.spawn i cs io

/-- `tunnel_request_stop`. -/
def requestStop (i : ℕ) (t : Tunnel) (now : ℕ) : Tunnel × List Obs :=
  match t.pid with
  | none => ({ t with state := .stopped, autostartOnExit := false }, [])
  | some pid =>
      ({ t with autostartOnExit := false, stopDeadlineMs := now + stopGraceMs }, [.sigterm i pid])

/-- The `restart` handler. -/
def restart (i : ℕ) (t : Tunnel) (now : ℕ) : Tunnel × List Obs :=
  let (t, os) := t.requestStop i now
  let t := { t with autostartOnExit := true, backoffIdx := 0 }
  -- without a process to wait for, a respawn is queued
  (if t.pid = none then { t with state := .backoff, nextStartMs := now } else t, os)

/-- `tunnel_on_exit`. -/
def onExit (t : Tunnel) (now : ℕ) (w : WaitStatus) : Tunnel :=
  let exitCode : ℤ := match w with
    | .exited code => code
    | .signaled sig => -sig
  let t := { t with exitCode, pid := none, stopDeadlineMs := 0 }
  if !t.autostartOnExit then { t with state := .stopped, backoffIdx := 0 }
  else
    let last := GS_BACKOFF_MS.length - 1
    { t with
      nextStartMs := now + GS_BACKOFF_MS.getD (if last < t.backoffIdx then last else t.backoffIdx) 0
      backoffIdx := if t.backoffIdx < last then t.backoffIdx + 1 else t.backoffIdx
      state := .backoff }

/-- What a tick does to a tunnel: escalate a stop, respawn. -/
def tick (now : ℕ) (io : ℕ → SpawnIo) (i : ℕ) (t : Tunnel) (cs : Children) :
    Tunnel × Children × List Obs :=
  let killed : List Obs :=
    if t.stopDeadlineMs ≠ 0 ∧ t.stopDeadlineMs ≤ now then (t.pid.map (Obs.sigkill i)).toList else []
  let t := if killed = [] then t else { t with stopDeadlineMs := 0 }
  if t.state = .backoff ∧ t.nextStartMs ≤ now then
    let (t, cs, os) := t.spawn i cs (io i)
    (t, cs, killed ++ os)
  else (t, cs, killed)

/-- The spawn loop of `up` and `reinit`. -/
def autospawn (io : ℕ → SpawnIo) (i : ℕ) (t : Tunnel) (cs : Children) :
    Tunnel × Children × List Obs :=
  if t.autostart ∧ t.pid = none then t.startOver i cs (io i) else (t, cs, [])

/-- The spawn loop at boot. -/
def bootspawn (io : ℕ → SpawnIo) (i : ℕ) (t : Tunnel) (cs : Children) :
    Tunnel × Children × List Obs :=
  if t.autostart then t.spawn i cs (io i) else (t, cs, [])

end Tunnel

/-! ## The supervisor -/

/-- The supervisor with its children between two events. -/
structure Sup where
  tunnels : List Tunnel
  systemState : SystemState := .down
  children : Children := []
  /-- the last reading of `now_ms()` -/
  clock : ℕ := 0

/-- One sleep of the wait for the tunnels to go: how long, and which children end in it. -/
structure Sleep where
  dt : ℕ
  exits : List (ℕ × WaitStatus) := []

/-- The tunnel whose process was waited for notes it; nobody knows another child. -/
def noteExit (now pid : ℕ) (w : WaitStatus) : List Tunnel → List Tunnel
  | [] => []
  | t :: ts => if t.pid = some pid then t.onExit now w :: ts else t :: noteExit now pid w ts

namespace Sup

variable (s : Sup)

/-- `supervisor_reap`. -/
def reap : Sup :=
  { s with
    tunnels := s.children.ended.foldl (fun ts c => noteExit s.clock c.1 c.2 ts) s.tunnels
    children := s.children.running }

/-- Some tunnel has a process. -/
def anyPid : Bool := s.tunnels.any fun t => t.pid.isSome

/-- Children end. -/
def exits (es : List (ℕ × WaitStatus)) : Sup :=
  { s with children := es.foldl (fun cs e => cs.exits e.1 e.2) s.children }

/-- Time passes. -/
def wait (dt : ℕ) : Sup := { s with clock := s.clock + dt }

/-- The wait for the tunnels to go.  After the sleeps that are listed no child ends before the
deadline. -/
def awaitExits (deadline : ℕ) : List Sleep → Sup → Sup
  | [], s =>
      if s.clock < deadline ∧ s.anyPid then
        if s.reap.anyPid then { s.reap with clock := deadline } else s.reap.wait 50
      else s
  | r :: rs, s =>
      if s.clock < deadline ∧ s.anyPid then
        awaitExits deadline rs ((s.reap.exits r.exits).wait r.dt)
      else s

/-- SIGTERM of `supervisor_stop_all_tunnels`: the deadline is set if the process is there. -/
def termOne (now : ℕ) (cs : Children) (t : Tunnel) : Tunnel :=
  match t.pid with
  | none => t
  | some pid =>
      { t with
        autostartOnExit := false
        stopDeadlineMs := if cs.has pid then now + stopGraceMs else t.stopDeadlineMs }

/-- `supervisor_stop_all_tunnels`: SIGTERM, wait, then SIGKILL and wait for what is left. -/
def stopAllTunnels (sleeps : List Sleep) : Sup × List Obs :=
  let terms := s.tunnels.zipIdx.filterMap fun (t, i) => t.pid.map (Obs.sigterm i)
  let s' := { s with tunnels := s.tunnels.map (termOne s.clock s.children) }.awaitExits
    (s.clock + stopGraceMs + 500) sleeps
  let kills := s'.tunnels.zipIdx.filterMap fun (t, i) => t.pid.map (Obs.sigkill i)
  ({ s' with
    tunnels := s'.tunnels.map fun t => { t with pid := none }
    children := s'.tunnels.foldl (fun cs t => (t.pid.map cs.wait).getD cs) s'.children },
    terms ++ kills)

/-- Visit the tunnels in order, the children at hand. -/
def visit (f : ℕ → Tunnel → Children → Tunnel × Children × List Obs) : Sup × List Obs :=
  let (tunnels, children, os) := walk f 0 s.tunnels s.children
  ({ s with tunnels, children }, os)

/-- `supervisor_bring_up`; `ready` is the verdict of `wait_iface_state`. -/
def bringUp (ready : Bool) : Sup := { s with systemState := if ready then .up else .upFailed }

/-- What `up` and `reinit` have in common. -/
def upAndSpawn (ready : Bool) (io : ℕ → SpawnIo) : Sup × List Obs :=
  if ready then (s.bringUp ready).visit (Tunnel.autospawn io) else (s.bringUp ready, [])

/-- A request for one tunnel; there may be none of that name. -/
def onTunnel (r : Request) (i : ℕ) (f : Tunnel → Children → Tunnel × Children × List Obs) :
    Sup × List Obs :=
  match s.tunnels[i]? with
  | none => (s, [])
  | some t =>
      let (t, children, os) := f t s.children
      ({ s with tunnels := s.tunnels.set i t, children }, .request r :: os)

/-- `start`; no-op if running. -/
def start (i : ℕ) (io : SpawnIo) : Sup × List Obs :=
  s.onTunnel (.start i) i fun t cs => if t.pid.isSome then (t, cs, []) else t.startOver i cs io

/-- `stop`. -/
def stop (i : ℕ) : Sup × List Obs :=
  s.onTunnel (.stop i) i fun t cs => ((t.requestStop i s.clock).1, cs, (t.requestStop i s.clock).2)

/-- `restart`. -/
def restart (i : ℕ) : Sup × List Obs :=
  s.onTunnel (.restart i) i fun t cs => ((t.restart i s.clock).1, cs, (t.restart i s.clock).2)

/-- `/system/up`; refused while the system is up. -/
def up (ready : Bool) (io : ℕ → SpawnIo) : Sup × List Obs :=
  andThen (s, [.request .up]) fun s =>
    if s.systemState = .up then (s, []) else s.upAndSpawn ready io

/-- `supervisor_take_down`. -/
def takeDown (sleeps : List Sleep) : Sup × List Obs :=
  let (s, os) := s.stopAllTunnels sleeps
  ({ s with systemState := .down }, os)

/-- `/system/down`. -/
def down (sleeps : List Sleep) : Sup × List Obs :=
  andThen (s.takeDown sleeps) fun s => (s, [.request .down])

/-- `/system/reinit`; `dt` is what the iface commands take. -/
def reinit (sleeps : List Sleep) (dt : ℕ) (ready : Bool) (io : ℕ → SpawnIo) : Sup × List Obs :=
  andThen (s, [.request .reinit]) fun s =>
    andThen (s.stopAllTunnels sleeps) fun s => (s.wait dt).upAndSpawn ready io

end Sup

/-! ## Events -/

/-- What happens to the supervisor; `dt` is the time since the event before. -/
inductive Event where
  /-- a child ends -/
  | exits (dt pid : ℕ) (w : WaitStatus)
  /-- a helper of the supervisor is left behind in the table -/
  | helper (pid : ℕ)
  | reap (dt : ℕ)
  | tick (dt : ℕ) (io : ℕ → SpawnIo)
  | start (dt i : ℕ) (io : SpawnIo)
  | stop (dt i : ℕ)
  | restart (dt i : ℕ)
  | up (dt : ℕ) (ready : Bool) (io : ℕ → SpawnIo)
  | down (dt : ℕ) (sleeps : List Sleep)
  | reinit (dt : ℕ) (sleeps : List Sleep) (dt₁ : ℕ) (ready : Bool) (io : ℕ → SpawnIo)

/-- One event. -/
def Sup.step (s : Sup) : Event → Sup × List Obs
  | .exits dt pid w => ((s.wait dt).exits [(pid, w)], [])
  | .helper pid =>
      (match s.children.fork (some pid) with
        | none => s
        | some (_, children) => { s with children }, [])
  | .reap dt => ((s.wait dt).reap, [])
  | .tick dt io => (s.wait dt).visit (Tunnel.tick (s.clock + dt) io)
  | .start dt i io => (s.wait dt).start i io
  | .stop dt i => (s.wait dt).stop i
  | .restart dt i => (s.wait dt).restart i
  | .up dt ready io => (s.wait dt).up ready io
  | .down dt sleeps => (s.wait dt).down sleeps
  | .reinit dt sleeps dt₁ ready io => (s.wait dt).reinit sleeps dt₁ ready io

/-- The supervisor, its requests and its children in any order. -/
def machine : Machine Sup Event Obs := ⟨Sup.step⟩

/-- What the supervisor is started with: the `autostart` flags of its tunnels. -/
structure Boot where
  autostart : List Bool
  ready : Bool := true
  io : ℕ → SpawnIo
  clock : ℕ := 0

/-- The state in which the loop begins. -/
def Boot.init (b : Boot) : Sup :=
  let s : Sup := { tunnels := b.autostart.map fun autostart => { autostart }, clock := b.clock }
  if b.ready then ((s.bringUp true).visit (Tunnel.bootspawn b.io)).1 else s.bringUp false

end Waybeam.Ground.Lifecycle
