/-
# `Waybeam.Ground.Scan` — the channel scanner and the stats sockets

A scan takes interfaces through a list of channels and stays on each for a while.  What ends it
is a record of any rx tunnel with a unique packet, taken from its socket more than 200 ms
after the hop; the deadline of the step looks at that flag.

    arm      the request's interfaces and channels, the first hop
    tick     at the deadline: FOUND if the flag is set, else the next hop, or STOPPED
    hop      `iw` on every interface, then the socket of the first rx tunnel is emptied
    drain    `stats_drain` of one tunnel

A wfb_rx counts the unique packets of its interval and reports them at the end of it.  What was
heard, where and when is kept beside each record; no step of the supervisor looks at it.
-/
import Waybeam.Ground.Config
import Waybeam.Ground.Query
import Waybeam.Ground.Record

namespace Waybeam.Ground.Stats

open Text

/-! ## State -/

/-- A packet at a wfb_rx. -/
structure Reception where
  iface : Bytes
  /-- what the interface was tuned to -/
  tuned : Option ScanStep
  us : ℕ
  nonce : ℕ
  deriving DecidableEq

/-- A datagram on a stats socket and, if wfb_rx sent it, what it counts. -/
structure Report where
  dgram : Bytes
  heard : Option (List Reception) := none
  deriving DecidableEq

/-- A tunnel, with the wfb_rx behind it. -/
structure Node where
  cfg : TunnelCfg
  listener : Listener
  /-- `stats_local_fd >= 0` -/
  fdOpen : Bool := false
  /-- the packets of the interval; `none` while no wfb_rx runs -/
  interval : Option (List Reception) := none
  socket : List Report := []

/-- The supervisor as far as a scan goes, and the interfaces. -/
structure Scanner where
  nodes : List Node
  scan : ScanState := {}
  tuned : Bytes → Option ScanStep := fun _ => none
  clock : ℕ := 0

/-- The answers of `iw`, interface by interface, and how long all of it took. -/
structure IwIo where
  ok : List Bool
  us : ℕ

/-- What can happen. -/
inductive ScanEvent where
  | wait (us : ℕ)
  /-- a tunnel is spawned; whether its socket could be opened -/
  | spawn (i : ℕ) (opened : Bool)
  /-- its process is gone -/
  | exit (i : ℕ)
  /-- a packet reaches its wfb_rx on an interface -/
  | packet (i : ℕ) (iface : Bytes) (nonce : ℕ)
  /-- an interval ends; the counts but `uniq` come with the event -/
  | report (i : ℕ) (r : RxAnt) (sent : Bool)
  /-- some other datagram reaches its socket -/
  | arrive (i : ℕ) (dgram : Bytes)
  | drain (i : ℕ) (tsMs : ℕ)
  | tick (io : IwIo)
  /-- `GET /api/v1/system/scan`; whether a channel switch is in flight -/
  | arm (csaIdle : Bool) (req : Bytes) (io : IwIo)
  /-- `GET /api/v1/system/scan/cancel` -/
  | cancel
  /-- an interface is tuned by somebody else -/
  | retune (iface : Bytes) (tuned : Option ScanStep)

/-- Why a scan is refused. -/
inductive ScanRefusal where
  | csaActive
  | running
  | needIfaceAndChans
  | badIface
  | tooManyIfaces
  | unknownIface (iface : Bytes)
  | emptyChan
  | chanRange
  | tooManyChans
  | badHt
  | htsCount
  | htName
  deriving DecidableEq

/-- What is seen of it, in order. -/
inductive ScanObs where
  | sent (i : ℕ) (what : Sent)
  | received (i : ℕ) (r : Reception)
  /-- the record of an interval, and whether it reached the socket -/
  | reported (i : ℕ) (rep : Report) (sent : Bool)
  /-- a datagram was taken by `stats_drain` -/
  | took (i : ℕ) (rep : Report) (us : ℕ)
  /-- the scan is at this step from now on -/
  | hopped (scan : ScanState)
  /-- the step's deadline: the scan as it was, and what became of it -/
  | decided (before after : ScanState)
  | armed (scan : ScanState)
  | refused (why : ScanRefusal)

/-! ## The request -/

/-- The query of a request: what follows the question mark, up to the blank. -/
def query (req : Bytes) : Bytes := (cstr req).takeWhile (· ≠ ' ')

/-- The pieces of a comma-separated list; nothing follows a comma at the end. -/
def pieces (s : Bytes) : List Bytes :=
  let ps := s.splitOn ','
  if ps.getLast? = some [] then ps.dropLast else ps

/-- The `iface` list: at most four names. -/
def parseIfaces (s : Bytes) : Except ScanRefusal (List Bytes) :=
  if (pieces s).take 4 |>.any fun f => f = [] || 16 ≤ f.length then .error .badIface
  else if 4 < (pieces s).length then .error .tooManyIfaces
  else .ok (pieces s)

/-- The `chans` list.  A channel is read from seven characters at most; the one behind it is
passed over whatever it is. -/
def parseChans (long : ℕ) : ℕ → Bytes → Except ScanRefusal (List ℤ)
  | _, [] => .ok []
  | 0, _ :: _ => .error .tooManyChans
  | n + 1, c :: s =>
      let buf := ((c :: s).takeWhile (· ≠ ',')).take 7
      if buf = [] then .error .emptyChan
      else
        match strtol long buf with
        | none => .error .chanRange
        | some ch =>
            if ch < 1 ∨ 200 < ch then .error .chanRange
            else (parseChans long n ((c :: s).drop (buf.length + 1))).map (ch :: ·)

theorem parseChans_cons {c : Char} {s : Bytes} (n : ℕ) {ch : ℤ}
    (hbuf : ((c :: s).takeWhile (· ≠ ',')).take 7 ≠ [])
    (hread : strtol long (((c :: s).takeWhile (· ≠ ',')).take 7) = some ch)
    (hrange : ¬(ch < 1 ∨ 200 < ch)) :
    parseChans long (n + 1) (c :: s) =
      (parseChans long n ((c :: s).drop ((((c :: s).takeWhile (· ≠ ',')).take 7).length + 1))).map
        (ch :: ·) := by
  simp only [parseChans, if_neg hbuf, hread, if_neg hrange]

/-- `hts`, one for each channel or one for all; or `ht`; or HT20. -/
def parseHts (hts ht : Option Bytes) (n : ℕ) : Except ScanRefusal (List Bytes) :=
  let given := hts.filter (· ≠ [])
  let parsed : Except ScanRefusal (List Bytes) :=
    match given with
    | some s =>
        let ps := (pieces s).take 32
        if ps.any fun h => h = [] || 8 ≤ h.length then .error .badHt
        else
          let decoded := ps.map fun h => cstr (qsPctDecode 7 h)
          if ps.length = 1 then .ok (List.replicate n (decoded.headD []))
          else if ps.length = n then .ok decoded
          else .error .htsCount
    | none =>
        match ht.filter fun h => h ≠ [] && h.length < 8 with
        | some h => .ok (List.replicate n (cstr (qsPctDecode 7 h)))
        | none => .ok (List.replicate n "HT20".toList)
  parsed.bind fun hts =>
    if hts.all (· ∈ ["HT20".toList, "HT40+".toList, "HT40-".toList]) then .ok hts
    else .error .htName

/-- The dwell: what the request says, within its bounds. -/
def dwellMs (qs : Bytes) : ℕ :=
  let dwell := (qsGetInt qs "dwell_ms".toList).getD 600
  (if 10000 < (if dwell < 100 then 100 else dwell) then 10000 else if dwell < 100 then 100 else dwell).toNat

/-- The request as far as it can be refused: interfaces, steps and dwell. -/
def parseScan (long : ℕ) (known : List Bytes) (qs : Bytes) :
    Except ScanRefusal (List Bytes × List ScanStep × ℕ) := do
  let some istr := (qsGet qs "iface".toList).filter (· ≠ []) | .error .needIfaceAndChans
  let some chstr := (qsGet qs "chans".toList).filter (· ≠ []) | .error .needIfaceAndChans
  let ifaces ← parseIfaces istr
  match ifaces.find? (· ∉ known) with
  | some f => .error (.unknownIface f)
  | none =>
      let chans ← parseChans long 32 chstr
      let hts ← parseHts (qsGet qs "hts".toList) (qsGet qs "ht".toList) chans.length
      return (ifaces, chans.zipWith ScanStep.mk hts, dwellMs qs)

namespace Scanner

variable (s : Scanner)

/-! ## Tunnels -/

/-- Something happens to one tunnel. -/
def onNode (i : ℕ) (f : Node → Node × List ScanObs) : Scanner × List ScanObs :=
  match s.nodes[i]? with
  | none => (s, [])
  | some n => ({ s with nodes := s.nodes.set i (f n).1 }, (f n).2)

/-- `csa_pick_rx_tunnel_idx` -/
def csaPickRxTunnelIdx : Option ℕ := s.nodes.findIdx? fun n => n.listener.role = .rx

end Scanner

namespace Node

variable (n : Node)

/-- `tunnel_spawn`: the socket is opened once, the counters start over. -/
def spawn (long : ℕ) (opened : Bool) : Node :=
  let n := if !n.fdOpen && opened then
      { n with fdOpen := true, listener := n.cfg.statsListenerOpen long n.listener }
    else n
  let l := { n.listener with stMsgCount := 0, stIntervalMs := 0, stFirstUs := 0, stLastUs := 0 }
  match l.role with
  | .rx =>
      { n with
        interval := some []
        listener := { l with
          stPktAll := 0, stPktLost := 0, stPktFec := 0, stPktOutgoing := 0, stPktDecErr := 0
          stPktBytes := 0, stPktUniq := 0, stAntCount := 0, stRssiBest := Probe.intMin
          stMcsWin := fun _ _ => 0, stMcsWinSec := fun _ => 0 } }
  | .tx =>
      { n with
        listener := { l with
          tx := { l.tx with
            stTxPktsIn := 0, stTxPktsOut := 0, stTxBytesIn := 0, stTxBytesOut := 0, stTxDrop := 0
            stTxTrunc := 0, stTxFecTimeouts := 0 } } }

/-- A packet reaches wfb_rx, on an interface it listens to. -/
def packet (i : ℕ) (r : Reception) : Node × List ScanObs :=
  match n.interval with
  | some heard =>
      if r.iface ∈ n.cfg.ifaces then ({ n with interval := some (heard ++ [r]) }, [.received i r])
      else (n, [])
  | none => (n, [])

/-- `count_p_uniq.size()` -/
def uniq (heard : List Reception) : UInt32 := UInt32.ofNat (heard.map Reception.nonce).dedup.length

/-- `Aggregator::dump_stats`: the record of the interval, and a new interval. -/
def report (i : ℕ) (r : RxAnt) (sent : Bool) : Node × List ScanObs :=
  match n.interval with
  | some heard =>
      match { r with uniq := uniq heard }.datagram with
      | some dgram =>
          let arrived := sent && n.fdOpen
          ({ n with
              interval := some []
              socket := if arrived then n.socket ++ [⟨dgram, some heard⟩] else n.socket },
            [.reported i ⟨dgram, some heard⟩ arrived])
      | none => ({ n with interval := some [] }, [])
  | none => (n, [])

end Node

namespace Scanner

variable (s : Scanner)

/-! ## Draining -/

/-- `stats_drain` over what waits. -/
def takeAll (i : ℕ) (now tsMs : ℕ) : List Report → Listener × ScanState →
    (Listener × ScanState) × List ScanObs
  | [], lg => (lg, [])
  | rep :: reps, (l, g) =>
      andThen
        ((l.takeDatagram g rep.dgram now tsMs).1,
          .took i rep now :: (l.takeDatagram g rep.dgram now tsMs).2.map (.sent i))
        (takeAll i now tsMs reps)

/-- `stats_drain` -/
def statsDrain (i : ℕ) (tsMs : ℕ) : Scanner × List ScanObs :=
  match s.nodes[i]? with
  | some n =>
      if n.fdOpen then
        let r := takeAll i s.clock tsMs n.socket (n.listener, s.scan)
        ({ s with
            nodes := s.nodes.set i { n with listener := r.1.1, socket := [] }
            scan := r.1.2 }, r.2)
      else (s, [])
  | none => (s, [])

/-! ## Hopping -/

/-- `run_iw_set_channel` on each interface. -/
def iwAll (step : ScanStep) : List Bytes → List Bool → (Bytes → Option ScanStep) →
    Bytes → Option ScanStep
  | f :: fs, ok :: oks, tuned =>
      iwAll step fs oks (if ok then Function.update tuned f (some step) else tuned)
  | _, _, tuned => tuned

/-- The socket of the first rx tunnel is emptied, up to an empty datagram; what it had goes to
`stats_out`. -/
def hopDrain (i : ℕ) (n : Node) : Node × List ScanObs :=
  if n.fdOpen then
    let taken := n.socket.takeWhile fun rep => rep.dgram ≠ []
    ({ n with socket := n.socket.drop (taken.length + 1) },
      if n.listener.producer.statsFwdActive then
        taken.map fun rep => .sent i (.fwd (rep.dgram.take 4096))
      else [])
  else (n, [])

/-- The interfaces are tuned, and the step is at its start. -/
def tuneTo (i : ℕ) (step : ScanStep) (io : IwIo) : Scanner :=
  { s with
    tuned := iwAll step s.scan.ifaces io.ok s.tuned
    scan := { s.scan with curStep := i, stepSawTraffic := false } }

/-- What waits at the first rx tunnel is from before the hop. -/
def drainBaseline : Scanner × List ScanObs :=
  match s.scan.baselineRxIdx with
  | some k => s.onNode k (hopDrain k)
  | none => (s, [])

/-- The dwell starts. -/
def startDwell (us : ℕ) : Scanner × List ScanObs :=
  let now := s.clock + us
  let scan := { s.scan with stepStartedUs := now }
  ({ s with clock := now, scan }, [.hopped scan])

/-- `scan_apply_step_drained` -/
def scanApplyStepDrained (i : ℕ) (io : IwIo) : Scanner × List ScanObs :=
  match s.scan.steps[i]? with
  | none => (s, [])
  | some step => andThen (s.tuneTo i step io).drainBaseline fun s => s.startDwell io.us

/-- `scan_tick` -/
def scanTick (io : IwIo) : Scanner × List ScanObs :=
  if s.scan.phase ≠ .running ∨ s.clock < s.scan.stepStartedUs + s.scan.stepDwellUs then (s, [])
  else
    let hopsDone := s.scan.hopsDone + 1
    if s.scan.stepSawTraffic then
      let scan := { s.scan with hopsDone, phase := .found, found := s.scan.steps[s.scan.curStep]? }
      ({ s with scan }, [.decided s.scan scan])
    else if s.scan.steps.length ≤ s.scan.curStep + 1 then
      let scan := { s.scan with hopsDone, phase := .stopped }
      ({ s with scan }, [.decided s.scan scan])
    else
      let scan := { s.scan with hopsDone }
      andThen ({ s with scan }, [.decided s.scan { scan with curStep := s.scan.curStep + 1 }]) fun s =>
        s.scanApplyStepDrained (s.scan.curStep + 1) io

/-- The scan that a request arms. -/
def armed (ifaces : List Bytes) (steps : List ScanStep) (dwell : ℕ) : ScanState where
  sess := 1
  ifaces := ifaces
  steps := steps
  stepDwellUs := dwell * 1000
  baselineRxIdx := s.csaPickRxTunnelIdx
  phase := .running

/-- `GET /api/v1/system/scan` -/
def armScan (long : ℕ) (csaIdle : Bool) (req : Bytes) (io : IwIo) : Scanner × List ScanObs :=
  if !csaIdle then (s, [.refused .csaActive])
  else if s.scan.phase = .running then (s, [.refused .running])
  else
    match parseScan long (s.nodes.flatMap (·.cfg.ifaces)) (query req) with
    | .error why => (s, [.refused why])
    | .ok (ifaces, steps, dwell) =>
        let scan := s.armed ifaces steps dwell
        andThen ({ s with scan }, [.armed scan]) fun s => s.scanApplyStepDrained 0 io

/-- `GET /api/v1/system/scan/cancel` -/
def cancelScan : Scanner :=
  if s.scan.phase = .running then { s with scan := { s.scan with phase := .stopped } } else s

end Scanner

/-! ## The machine -/

/-- The supervisor as a machine. -/
def scanMachine (long : ℕ) : Machine Scanner ScanEvent ScanObs where
  step s
    | .wait us => ({ s with clock := s.clock + us }, [])
    | .spawn i opened => s.onNode i fun n => (n.spawn long opened, [])
    | .exit i => s.onNode i fun n => ({ n with interval := none }, [])
    | .packet i iface nonce => s.onNode i fun n => n.packet i ⟨iface, s.tuned iface, s.clock, nonce⟩
    | .report i r sent => s.onNode i fun n => n.report i r sent
    | .arrive i dgram =>
        s.onNode i fun n => ({ n with socket := if n.fdOpen then n.socket ++ [⟨dgram, none⟩] else n.socket }, [])
    | .drain i tsMs => s.statsDrain i tsMs
    | .tick io => s.scanTick io
    | .arm csaIdle req io => s.armScan long csaIdle req io
    | .cancel => (s.cancelScan, [])
    | .retune iface tuned => ({ s with tuned := Function.update s.tuned iface tuned }, [])

/-- The supervisor at its start. -/
def Scanner.start (cfg : List TunnelCfg) : Scanner where
  nodes := cfg.map fun t => { cfg := t, listener := t.listener }

end Waybeam.Ground.Stats
