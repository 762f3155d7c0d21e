/-
# `Waybeam.Ground.State` — the ground supervisor, its tunnels and their stats

The supervisor runs one wfb_rx or wfb_tx per tunnel.  A wfb_rx counts what it receives and
reports once per log interval:

    process_packet   count_p_all += 1
    dump_stats       one `rx_ant` record to the tunnel's stats socket, then clear_stats
    stats_drain      reads every record that waits; `st_pkt_all` keeps the last one's count

A record that does not fit its datagram, or finds the socket full, is lost; its counts are
cleared all the same.  Of a record's fields `pkt.all` is the one a channel switch reads.
-/
import Waybeam.Machine
import Waybeam.Text

namespace Waybeam.Ground

/-! ## Tunnels -/

/-- Which of the two programs a tunnel runs: cfg_load accepts no other role. -/
inductive Role where
  | rx
  | tx
  deriving DecidableEq, Repr

/-- An `rx_ant` record. -/
structure RxRecord where
  /-- `pkt.all` -/
  all : UInt32

/-- A tunnel, with the wfb_rx behind it and the records that wait on its stats socket. -/
structure Tunnel where
  name : String
  role : Role
  ifaces : List Bytes := []
  udpInPort : ℤ := 0
  stPktAll : UInt32 := 0
  /-- `count_p_all` of the running wfb_rx; `none` while none runs -/
  countPAll : Option UInt32 := none
  socket : List RxRecord := []

/-- What can happen to a tunnel. -/
inductive TunnelEvent where
  /-- a packet reaches its wfb_rx -/
  | packet
  /-- the log interval of its wfb_rx ends; whether the record reaches the socket -/
  | dump (sent : Bool)
  /-- the process is gone -/
  | exit
  /-- it gets a new one -/
  | spawn
  /-- its stats socket is readable -/
  | drain
  /-- a scan hop empties the socket -/
  | scanDrain

/-- What is seen of it. -/
inductive Stat where
  | received
  | recorded (sent : Bool)
  | drained
  | discarded
  | spawned
  deriving DecidableEq, Repr

namespace Tunnel

/-- `Aggregator::process_packet`: the packet is counted before it is looked at. -/
def processPacket (t : Tunnel) (all : UInt32) : Tunnel := { t with countPAll := some (all + 1) }

/-- `Aggregator::dump_stats`: report the interval and clear its counters. -/
def dumpStats (t : Tunnel) (all : UInt32) (sent : Bool) : Tunnel :=
  { t with countPAll := some 0, socket := if sent then t.socket ++ [⟨all⟩] else t.socket }

/-- What a record leaves in the tunnel. -/
def takeRecord (t : Tunnel) (r : RxRecord) : Tunnel := { t with stPktAll := r.all }

/-- `stats_drain`: take every record that waits, in order. -/
def statsDrain (t : Tunnel) : Tunnel := { t.socket.foldl takeRecord t with socket := [] }

/-- One event. -/
def step (t : Tunnel) : TunnelEvent → Tunnel × List Stat
  | .packet =>
      match t.countPAll with
      | some all => (t.processPacket all, [.received])
      | none => (t, [])
  | .dump sent =>
      match t.countPAll with
      | some all => (t.dumpStats all sent, [.recorded sent])
      | none => (t, [])
  -- the counts of the running interval go with the process
  | .exit => ({ t with countPAll := none }, [])
  -- `tunnel_spawn`, as far as a channel switch can see it: the counters start over; the
  -- socket is the supervisor's own, and what the last process sent still waits there
  | .spawn =>
      match t.role with
      | .rx => ({ t with stPktAll := 0, countPAll := some 0 }, [.spawned])
      | .tx => (t, [])
  | .drain => (t.statsDrain, [.drained])
  | .scanDrain => ({ t with socket := [] }, [.discarded])

end Tunnel

/-! ## Channel switch announcements -/

/-- `CsaPhase`. -/
inductive CsaPhase where
  | idle
  | burst
  | armed
  | verify
  deriving DecidableEq, Repr

/-- The number of a phase in a reply. -/
def CsaPhase.code : CsaPhase → ℕ
  | .idle => 0
  | .burst => 1
  | .armed => 2
  | .verify => 3

/-- `CsaState`: the session in flight, or what the last one left. -/
structure CsaState where
  phase : CsaPhase := .idle
  sess : UInt32 := 0
  tSwitchUs : ℕ := 0
  tRevertUs : ℕ := 0
  nextFrameUs : ℕ := 0
  framesSent : ℕ := 0
  framesTotal : ℕ := 0
  targetChan : ℤ := 0
  targetHt : Bytes := []
  prevChan : ℤ := 0
  prevHt : Bytes := []
  ifaces : List Bytes := []
  baselinePktUs : ℕ := 0
  baselinePktAll : UInt32 := 0
  /-- the rx tunnel whose counter is watched; `-1` is `none` -/
  baselineRxIdx : Option ℕ := none
  noRevert : Bool := false

/-- `iw dev <iface> set channel <chan> <ht>`. -/
structure IwCmd where
  iface : Bytes
  chan : ℤ
  ht : Bytes
  deriving DecidableEq, Repr

/-- The commands that bring the session's interfaces to its target. -/
def CsaState.hop (c : CsaState) : List IwCmd := c.ifaces.map (⟨·, c.targetChan, c.targetHt⟩)

/-- The commands that bring them back to where they were. -/
def CsaState.back (c : CsaState) : List IwCmd := c.ifaces.map (⟨·, c.prevChan, c.prevHt⟩)

/-- A `csa_commit` frame. -/
structure CsaCommit where
  sess : UInt32
  seq : UInt32
  targetChan : ℤ
  targetHt : Bytes
  dtToSwitchMs : ℕ
  tRevertMs : ℕ
  prevChan : ℤ
  prevHt : Bytes

/-! ## The supervisor -/

/-- The supervisor between two events. -/
structure Sup where
  tunnels : List Tunnel
  vencCmdUplink : String
  csa : CsaState := {}
  csaSeqInBurst : UInt32 := 0
  scanRunning : Bool := false
  scanSess : UInt32 := 0
  clock : ℕ := 0

/-- Why a channel switch is refused. -/
inductive CsaRefusal where
  | active (phase : CsaPhase) (sess : UInt32)
  | scanning (sess : UInt32)
  | chan
  | ifaceOrHt
  | badIface
  | tooManyIfaces
  | noIface
  | unknownIface (iface : Bytes)
  | ht
  | noUplink

/-- What the supervisor and its wfb_rx do, in order. -/
inductive Obs where
  | tunnel (i : ℕ) (what : Stat)
  /-- a csa_commit frame to the uplink's port and whether it was sent -/
  | frame (port : ℤ) (f : CsaCommit) (sent : Bool)
  /-- T_switch: the session as it goes into VERIFY, and the commands of the hop -/
  | switched (csa : CsaState) (iw : List IwCmd)
  /-- the revert deadline in VERIFY: the session, and the commands run -/
  | verified (csa : CsaState) (iw : List IwCmd)
  | armed (csa : CsaState)
  | refused (why : CsaRefusal)

end Waybeam.Ground
