/-
# `Waybeam.Vehicle.Loop` — the main loop as a machine over events

Each path of the loop body is a step `Lc → Lc × List Obs`; an event names the path, how
long after the last clock reading it runs, and the answers its requests get.

    pendingTick   deferred SET_RADIO         httpSet   /set           probeRec  probe record
    probeTick     commit gate, retune        httpCmd   /cmd           rxAnt     rx_ant record
    subscribe     sidecar keepalive          txStats   tx_stats       sidecar   sidecar frame
    watchdog      clamp, failsafe            stale     stats age      external  wfb_tx changed by others
    radioPoll     GET_RADIO fallback         wcmd      UDP command

`machine` runs events in any order.  One turn of the loop is an `Iter`: its timers, then
the HTTP requests and the datagrams drained in the source's order; `loopRun` are the runs
made of whole turns.  What holds of every list of events holds of those.
-/
import Waybeam.Vehicle.State

namespace Waybeam.Vehicle

/-! ## Timers -/

/-- The deferred SET_RADIO: sent at the deadline, retried every 100 ms until acked. -/
def Lc.pendingTick (s : Lc) (now : ℕ) (reply : SetReply) : Lc × List Obs :=
  match s.pending with
  | none => (s, [])
  | some p =>
      if now < p.deadlineUs then (s, [])
      else
        let (acked, air, obs) := wfbSetRadio now .pendingTick p.pendingRadio reply s.air
        if acked then
          ({ s with air, radioBody := p.pendingRadio, pending := none }.observe
            p.pendingRadio.params now, obs)
        else ({ s with air, pending := some { p with deadlineUs := now + 100000 } }, obs)

/-- The body the probe wfb_tx should transmit with: the video's, two rungs up. -/
def Lc.probeWant (s : Lc) : RadioBody :=
  let desired := if s.sel.currentMcs + 2 > 7 then 7 else s.sel.currentMcs + 2
  let body : RadioBody :=
    if s.radioBodyValid then s.radioBody
    else { stbc := 1, ldpc := 1, bandwidth := 20, vhtNss := 1 }
  body.withMcs desired

/-- The commit gate and the retune reconciler. -/
def Lc.probeTick (s : Lc) (now : ℕ) (acked : Bool) : Lc × List Obs :=
  let s :=
    if s.sel.currentMcs ≠ s.probeGateMcs then
      { s with probe := { s.probe with gateUs := now }, probeGateMcs := s.sel.currentMcs }
    else s
  if s.cfg.mcs.enabled && !s.cfg.dryRun && s.cfg.probePort != 0 &&
      decide (0 ≤ s.sel.currentMcs) && decide (s.probeRetryUs ≤ now) then
    if s.probeSent = some s.probeWant then (s, [])
    else if acked then
      ({ s with probeSent := some s.probeWant }, [.setProbe now s.probeWant true])
    else ({ s with probeRetryUs := now + 1000000 }, [.setProbe now s.probeWant false])
  else (s, [])

/-- The sidecar keepalive. -/
def Lc.subscribe (s : Lc) (now : ℕ) : Lc × List Obs :=
  if s.cfg.fec.enabled && decide (s.nextSubscribeUs ≤ now) then
    ({ s with nextSubscribeUs := now + usOf s.cfg.fec.subscribeS }, [.subscribe now])
  else (s, [])

/-- The watchdog's selector part: re-clamp after a live `/set`, else check for silence. -/
def watchdogSelect (sel : Selector) (cfg : McsConfig) (now : ℕ) : Selector × SelectDecision :=
  if 0 ≤ sel.currentMcs ∧ (sel.currentMcs < cfg.mcsMin ∨ cfg.mcsMax < sel.currentMcs) then
    (sel.commit cfg sel.currentMcs now, if cfg.mcsMax < sel.currentMcs then .down else .up)
  else sel.tickNoData cfg now

/-- The answers a commit with its GET_RADIO before it may need. -/
structure SyncIo where
  getRadio : Bool := true
  commit : CommitIo := {}

/-- The watchdog's radio part: sync the cache if it was never synced, then commit.  A failed
SET_RADIO is left to the realign of the next record. -/
def Lc.watchdogCommit (s : Lc) (now : ℕ) (io : SyncIo) : Lc × List Obs :=
  if s.cfg.dryRun then (s, [])
  else andThen (s.syncBody io.getRadio) fun s =>
    if s.radioBodyValid then s.commitStored s.sel.currentMcs .watchdog now now io.commit
    else (s, [])

/-- The period of the watchdog: a quarter of the timeout, at least 50 ms. -/
def watchdogPeriodUs (cfg : McsConfig) : ℕ :=
  let periodS := cfg.failsafeTimeoutS / 4
  usOf (if periodS < 5 / 100 then 5 / 100 else periodS)

/-- The MCS watchdog. -/
def Lc.watchdog (s : Lc) (now : ℕ) (io : SyncIo) : Lc × List Obs :=
  if !s.cfg.mcs.enabled || decide (now < s.nextWatchdogUs) then (s, [])
  else
    let (sel, sd) := watchdogSelect s.sel s.cfg.mcs now
    let s := { s with sel, nextWatchdogUs := now + watchdogPeriodUs s.cfg.mcs }
    match sd with
    | .none => (s, [])
    | .failsafe =>
        andThen (s, [.failsafe now s.sel.currentMcs (usOf s.cfg.mcs.failsafeTimeoutS)]) fun s =>
          s.watchdogCommit now io
    | _ => s.watchdogCommit now io

/-- The GET_RADIO fallback while no `tx_stats` stream drives the radio. -/
def Lc.radioPoll (s : Lc) (now : ℕ) (getRadio venc : Bool) : Lc × List Obs :=
  if s.cfg.fec.enabled && (s.cfg.fec.wfbStatsPort == 0 || s.statsWasStale) &&
      decide (s.nextRadioUs ≤ now) then
    let s := { s with nextRadioUs := now + usOf s.cfg.fec.radioPollS }
    andThen (if getRadio then (s.observe s.air.params now, [.radioSeen s.air.mcs]) else (s, []))
      fun s => s.assertBitrate now venc
  else (s, [])

/-! ## Operator -/

/-- `/set`. -/
def Lc.httpSet (s : Lc) (qs : List (String × TunableVal)) : Lc × List Obs :=
  ({ s with cfg := applyQuery s.cfg qs }, [])

/-- `wcmd_dispatch` on the live state. -/
def Lc.dispatch (s : Lc) (req : WcmdReq) (peerIsLoopback : Bool) (now : ℕ) (io : CmdIo) :
    Lc × List Obs :=
  let o := wcmdDispatch s.cfg s.wcmd s.air req peerIsLoopback now io
  ({ s with cfg := o.cfg, wcmd := o.st, air := o.air }, o.obs)

/-- `/cmd`: the dispatch of a frame with a fresh local sequence number, without the adoption
that follows a dispatch on the UDP path. -/
def Lc.httpCmd (s : Lc) (key value : ℤ) (now : ℕ) (io : CmdIo) : Lc × List Obs :=
  if key < 1 ∨ 20 < key then (s, [])
  else
    let seq := s.localCmdSeq + 1
    { s with localCmdSeq := seq }.dispatch ⟨seq, u8 key, i32 value⟩ true now io

/-- Carry an operator's body into the queued drop, which keeps its own MCS. -/
def PendingMcsDown.carry (p : PendingMcsDown) (wb : RadioBody) : PendingMcsDown :=
  { p with pendingRadio := { wb with mcsIndex := p.pendingRadio.mcsIndex } }

/-- Adopt the body a radio key wrote: cache, queued drop, selector, mirror. -/
def Lc.adoptWritten (s : Lc) (wb : RadioBody) (now nowObs : ℕ) : Lc :=
  let s : Lc := { s with
    wcmd := { s.wcmd with radioWritten := none }
    radioBody := wb, radioBodyValid := true
    pending := s.pending.map fun p => p.carry wb }
  let s :=
    if s.cfg.mcs.enabled && decide (0 ≤ s.sel.currentMcs) && !s.coveredByPending s.sel.currentMcs &&
        decide (wb.mcs ≠ s.sel.currentMcs) then
      { s with sel := s.sel.commit s.cfg.mcs wb.mcs now }
    else s
  s.observe wb.params nowObs

/-- Adopt the body that is outstanding, if one is. -/
def Lc.adoptOutstanding (s : Lc) (now nowObs : ℕ) : Lc :=
  match s.wcmd.radioWritten with
  | none => s
  | some wb => s.adoptWritten wb now nowObs

/-- A WCMD frame on the rx_ant socket: dispatch, then adopt. -/
def Lc.wcmdFrame (s : Lc) (req : WcmdReq) (peerIsLoopback : Bool) (now nowAdopt nowObs : ℕ)
    (io : CmdIo) : Lc × List Obs :=
  if !s.rxAntOpen then (s, [])
  else
    let (s, obs) := s.dispatch req peerIsLoopback now io
    (s.adoptOutstanding nowAdopt nowObs, obs)

/-! ## tx_stats -/

/-- The radio parameters of a datagram, if it carries all seven. -/
def TxStats.params (d : TxStats) : Option RadioParams := do
  let mcs ← d.mcs
  let bw ← d.bw
  let gi ← d.shortGi
  let stbc ← d.stbc
  let ldpc ← d.ldpc
  let vhtMode ← d.vhtMode
  let vhtNss ← d.vhtNss
  return {
    mcs := i32 mcs, bandwidth := i32 bw, shortGi := i32 gi, stbc := i32 stbc, ldpc := i32 ldpc
    vhtMode := i32 vhtMode, vhtNss := i32 vhtNss }

/-- `wfb_stats_handle_datagram` and the bookkeeping of the stream. -/
def Lc.txStats (s : Lc) (d : TxStats) (now nowDone : ℕ) (venc : Bool) : Lc × List Obs :=
  match d.params with
  | none => (s, [])
  | some p =>
      if !s.statsOpen then (s, [])
      else
        let s := { s.observe p now with
          lastWrittenFec :=
            radioTrackExternalFec (i32 (d.fecK.getD (-1))) (i32 (d.fecN.getD (-1)))
              s.lastWrittenFec
          lastStatsUs := nowDone, statsWasStale := false }
        andThen (s, [.radioSeen p.mcs]) fun s => s.assertBitrate now venc

/-- `STATS_STALE_US`. -/
def statsStaleUs : ℕ := 3000000

/-- The stats age check. -/
def Lc.stale (s : Lc) (now : ℕ) : Lc × List Obs :=
  if s.cfg.fec.enabled && s.cfg.fec.wfbStatsPort != 0 && s.lastStatsUs != 0 &&
      decide (statsStaleUs < now - s.lastStatsUs) then
    ({ s with statsWasStale := true }, [])
  else (s, [])

/-! ## rx_ant -/

/-- A probe record. -/
def Lc.probeRec (s : Lc) (r : ProbeRec) (now : ℕ) : Lc × List Obs :=
  if s.rxAntOpen then ({ s with probe := s.probe.ingest r now }, []) else (s, [])

/-- The clock readings and answers of an rx_ant record. -/
structure RxIo where
  getRadio : Bool := true
  commit : CommitIo := {}
  readBack : Bool := true

/-- No decision: bring wfb_tx back to the selector's rung if the cache says it left it. -/
def Lc.realign (s : Lc) (nowCommit nowObs : ℕ) (io : CommitIo) : Lc × List Obs :=
  let want := s.sel.currentMcs
  if decide (0 ≤ want) && s.radioBodyValid && !s.cfg.dryRun &&
      decide (want ≠ s.radioBody.mcs) && !s.coveredByPending want then
    s.commitStored want .realign nowCommit nowObs io
  else (s, [])

/-- Read back what wfb_tx latched of an acked commit of `m`; keep the optimistic body if that
fails. -/
def Lc.readBack (s : Lc) (m : ℤ) (ok : Bool) (nowObs : ℕ) : Lc × List Obs :=
  andThen ({ s with radioBody := s.radioBody.withMcs m }.adopt ok) fun s =>
    (s.observe s.radioBody.params nowObs, [])

/-- The commit of a decision: an acked one is read back, a failed one is undone. -/
def Lc.commitDecision (s : Lc) (snap : Selector) (nowCommit nowObs : ℕ) (io : RxIo) :
    Lc × List Obs :=
  let m := s.sel.currentMcs
  let (rc, out) := s.commitTo m .decision nowCommit io.commit
  andThen out fun s =>
    match rc with
    | .failed => ({ s with sel := snap }, [.rolledBack])
    | .deferred => (s, [])
    | .acked => s.readBack m io.readBack nowObs

/-- A decision: commit it, or restore the selector from its snapshot. -/
def Lc.decision (s : Lc) (snap : Selector) (nowCommit nowObs : ℕ) (io : RxIo) : Lc × List Obs :=
  if s.cfg.dryRun then (s, [])
  else andThen (s.syncBody io.getRadio) fun s =>
    if s.radioBodyValid then s.commitDecision snap nowCommit nowObs io
    else ({ s with sel := snap }, [.rolledBack])

/-- A clean record of one antenna. -/
def RxAnt.clean : RxAnt where
  pkt := some { uniq := some 100, lost := some 0 }
  ants := [{ avg := some (-50), max := some (-50) }]

/-- The packet counts of a record, `none` when it names neither `uniq` nor `data`. -/
def RxAnt.uniq (r : RxAnt) : Option ℤ :=
  r.pkt.bind fun p =>
    let uniq := p.uniq.getD (-1)
    let uniq := if uniq < 0 then p.data.getD (-1) else uniq
    if uniq < 0 then none else some uniq

/-- The score of a record, with the scorer after it. -/
def Lc.scoreOf (s : Lc) (r : RxAnt) (now : ℕ) : Scorer × Option Score :=
  match r.pkt, r.uniq with
  | some p, some uniq =>
      scorerUpdate s.scorer s.cfg.mcs r.ants uniq (p.lost.getD 0) (p.fecRecovered.getD 0)
        (p.diversity.getD 0) (max (p.adapters.getD (-1)) (-1)) now
  | _, _ => (s.scorer, none)

/-- What the law's answer drives: a realign if it decided nothing, else the commit. -/
def Lc.act (s : Lc) (snap : Selector) (sd : SelectDecision) (nowCommit nowObs : ℕ) (io : RxIo) :
    Lc × List Obs :=
  if sd = .none then s.realign nowCommit nowObs io.commit
  else s.decision snap nowCommit nowObs io

/-- An rx_ant record: score it, put it to the law, act on the answer. -/
def Lc.rxAnt (s : Lc) (r : RxAnt) (now nowCommit nowObs : ℕ) (io : RxIo) : Lc × List Obs :=
  if !s.rxAntOpen || !r.ver1 then (s, [])
  else
    match s.scoreOf r now with
    | (scorer, none) => ({ s with scorer }, [])
    | (scorer, some score) =>
        let snap := s.sel
        let inPressure := s.transport.inPressure
        let (sel, sd) := s.sel.update s.cfg.mcs score s.probe inPressure now
        andThen ({ s with scorer, sel }, [.selectorUpdate now inPressure sd]) fun s =>
          s.act snap sd nowCommit nowObs io

/-! ## Sidecar -/

/-- A frame of the given size without a transport trailer. -/
def SidecarDgram.sized (readyUs size : ℕ) : SidecarDgram where
  len := 64
  isFrame := true
  flagEncInfo := true
  flagTransportInfo := false
  frameReadyUs := readyUs
  frameSizeBytes := size
  transport := ⟨0, false, 0⟩

/-- The trailer is present: flagged, and the datagram is long enough for it. -/
def SidecarDgram.hasTransport (d : SidecarDgram) : Bool :=
  d.flagTransportInfo &&
    decide (sidecarFrameLen + (if d.flagEncInfo then sidecarEncInfoLen else 0)
      + sidecarTransportLen ≤ d.len)

/-- The frame carries a size. -/
def SidecarDgram.hasSize (d : SidecarDgram) : Bool :=
  d.flagEncInfo && decide (sidecarFrameLen + sidecarEncInfoLen ≤ d.len) && d.frameSizeBytes != 0

/-- Pressure drops since the last trailer; the first one, and a wrapped counter, count none. -/
def TransportState.pdDelta (t : TransportState) (d : SidecarTransport) : ℕ :=
  if t.present && decide (t.pressureDrops ≤ d.pressureDrops)
  then d.pressureDrops - t.pressureDrops else 0

/-- Whether this frame's size is not to be trusted: the producer's queue is filled or it is
dropping. -/
def Lc.skipFec (s : Lc) (d : SidecarDgram) : Bool :=
  d.hasTransport && s.cfg.fec.skipOnBackpressure &&
    (decide (s.cfg.fec.backpressureFillPct ≤ d.transport.fillPct) ||
      decide (0 < s.transport.pdDelta d.transport))

/-- Read the transport trailer. -/
def Lc.readTransport (s : Lc) (d : SidecarDgram) (now : ℕ) : Lc × List Obs :=
  if d.hasTransport then
    ({ s with
      transport := {
        present := true, fillPct := d.transport.fillPct, inPressure := d.transport.inPressure
        pressureDrops := d.transport.pressureDrops, lastUs := now } },
      [.trailer now d.transport.inPressure])
  else (s, [])

/-- The wedge watchdog writes: enabled, stuck long enough, and not written recently. -/
def Lc.wedgeDue (s : Lc) (now : ℕ) : Bool :=
  let since := if s.bpSkipSinceUs = 0 then now else s.bpSkipSinceUs
  decide (s.cfg.fec.backpressureRecoverS ≤ secsOf (now - since)) &&
    (decide (s.bpRecoverUs = 0) ||
      decide (s.cfg.fec.backpressureRecoverS ≤ secsOf (now - s.bpRecoverUs)))

/-- The wedge watchdog is armed. -/
def Lc.wedgeArmed (s : Lc) : Bool :=
  s.cfg.fec.skipOnBackpressure && !s.cfg.dryRun && s.cfg.fec.enabled &&
    s.cfg.fec.safeStartupEnabled && decide (0 < s.cfg.fec.backpressureRecoverS)

/-- A skipped frame: after long enough without a clean one, re-apply the safe pair. -/
def Lc.skipped (s : Lc) (now : ℕ) (venc : Bool) : Lc × List Obs :=
  if s.wedgeArmed then
    let due := s.wedgeDue now
    let s := { s with bpSkipSinceUs := if s.bpSkipSinceUs = 0 then now else s.bpSkipSinceUs }
    if due then
      let (_, obs) := vencApply now .wedge s.cfg.fec.safeStartupBitrateKbps
        s.cfg.fec.safeStartupPayload venc
      ({ s with bpRecoverUs := now }, obs)
    else (s, [])
  else (s, [])

/-- `wfb_send_set_fec` of a committed block. -/
def Lc.sendFec (s : Lc) (p : FecParams) (sent : Bool) : Lc × List Obs :=
  if s.cfg.dryRun then (s, [])
  else (if sent then { s with lastWrittenFec := (p.k, p.n) } else s, [.lawFec p.k p.n sent])

/-- A clean frame: one tick of the FEC controller, its SET_FEC, the bitrate it implies. -/
def Lc.cleanFrame (s : Lc) (frameSize : ℕ) (now : ℕ) (setFec venc : Bool) : Lc × List Obs :=
  let s := { s with bpSkipSinceUs := 0, bpRecoverUs := 0 }
  let (ctrl, ring, emit) := controllerUpdate s.fec.ctrl s.cfg.fec frameSize s.ring now s.fps.get
    s.fec.lastWrittenKbps
  let s := { s with fec := { s.fec with ctrl }, ring }
  match emit with
  | none => (s, [])
  | some p => andThen (s.sendFec p setFec) fun s => s.assertBitrate now venc

/-- The socket is open and the datagram is a frame. -/
def Lc.hears (s : Lc) (d : SidecarDgram) : Bool :=
  s.sidecarOpen && !decide (d.len < sidecarFrameLen) && d.isFrame

/-- What every frame brings: its timestamp and its transport trailer. -/
def Lc.heard (s : Lc) (d : SidecarDgram) (now : ℕ) : Lc × List Obs :=
  { s with fps := s.fps.feed d.frameReadyUs }.readTransport d now

/-- What the size of a frame drives: the wedge watchdog or the FEC tick. -/
def Lc.sizeTick (s : Lc) (d : SidecarDgram) (skip : Bool) (now : ℕ) (setFec venc : Bool) :
    Lc × List Obs :=
  if !d.hasSize then (s, [])
  else if skip then s.skipped now venc
  else s.cleanFrame d.frameSizeBytes now setFec venc

/-- A sidecar datagram; it is skipped by the drop counter of the trailer before its own. -/
def Lc.sidecar (s : Lc) (d : SidecarDgram) (now nowFec : ℕ) (setFec venc : Bool) : Lc × List Obs :=
  if !s.hears d then (s, [])
  else andThen (s.heard d now) fun s' => s'.sizeTick d (s.skipFec d) nowFec setFec venc

/-! ## Events -/

/-- One path of the loop body.  `dt`, `dt₁`, `dt₂` separate its clock readings from the one
before. -/
inductive Event where
  | pendingTick (dt : ℕ) (reply : SetReply)
  | probeTick (dt : ℕ) (acked : Bool)
  | subscribe (dt : ℕ)
  | watchdog (dt : ℕ) (io : SyncIo)
  | radioPoll (dt : ℕ) (getRadio venc : Bool)
  | httpSet (qs : List (String × TunableVal))
  | httpCmd (dt : ℕ) (key value : ℤ) (io : CmdIo)
  | txStats (dt dt₁ : ℕ) (d : TxStats) (venc : Bool)
  | stale (dt : ℕ)
  | wcmd (dt dt₁ dt₂ : ℕ) (req : WcmdReq) (peerIsLoopback : Bool) (io : CmdIo)
  | probeRec (dt : ℕ) (r : ProbeRec)
  | rxAnt (dt dt₁ dt₂ : ℕ) (r : RxAnt) (io : RxIo)
  | sidecar (dt dt₁ : ℕ) (d : SidecarDgram) (setFec venc : Bool)
  /-- another party changed wfb_tx -/
  | external (air : RadioBody)

/-- How far the clock moves over an event. -/
def Event.elapsed : Event → ℕ
  | .pendingTick dt _ | .probeTick dt _ | .subscribe dt | .watchdog dt _ | .radioPoll dt _ _
  | .httpCmd dt _ _ _ | .stale dt | .probeRec dt _ => dt
  | .txStats dt dt₁ _ _ | .sidecar dt dt₁ _ _ _ => dt + dt₁
  | .wcmd dt dt₁ dt₂ _ _ _ | .rxAnt dt dt₁ dt₂ _ _ => dt + dt₁ + dt₂
  | .httpSet _ | .external _ => 0

/-- The path an event takes, at the clock of the state. -/
def Lc.handle (s : Lc) : Event → Lc × List Obs
  | .pendingTick dt reply => s.pendingTick (s.clock + dt) reply
  | .probeTick dt acked => s.probeTick (s.clock + dt) acked
  | .subscribe dt => s.subscribe (s.clock + dt)
  | .watchdog dt io => s.watchdog (s.clock + dt) io
  | .radioPoll dt getRadio venc => s.radioPoll (s.clock + dt) getRadio venc
  | .httpSet qs => s.httpSet qs
  | .httpCmd dt key value io => s.httpCmd key value (s.clock + dt) io
  | .txStats dt dt₁ d venc => s.txStats d (s.clock + dt) (s.clock + dt + dt₁) venc
  | .stale dt => s.stale (s.clock + dt)
  | .wcmd dt dt₁ dt₂ req loop io =>
      s.wcmdFrame req loop (s.clock + dt) (s.clock + dt + dt₁) (s.clock + dt + dt₁ + dt₂) io
  | .probeRec dt r => s.probeRec r (s.clock + dt)
  | .rxAnt dt dt₁ dt₂ r io =>
      s.rxAnt r (s.clock + dt) (s.clock + dt + dt₁) (s.clock + dt + dt₁ + dt₂) io
  | .sidecar dt dt₁ d setFec venc =>
      s.sidecar d (s.clock + dt) (s.clock + dt + dt₁) setFec venc
  | .external air => ({ s with air }, [])

/-- The link controller. -/
def machine : Machine Lc Event Obs where
  step s e :=
    let (s', obs) := s.handle e
    ({ s' with clock := s.clock + e.elapsed }, obs)

/-- The place of a served event in a turn: HTTP first, the sidecar frame last.  Timers are
not served, and another party's doings have no place. -/
def Event.rank : Event → Option ℕ
  | .httpSet _ | .httpCmd .. => some 0
  | .txStats .. => some 1
  | .stale .. => some 2
  | .wcmd .. | .probeRec .. | .rxAnt .. => some 3
  | .sidecar .. => some 4
  | .external .. => none
  | _ => some 5

/-- Requests served and datagrams drained after a poll, in the source's order. -/
def servedInOrder (es : List Event) : Bool :=
  decide ((es.filterMap Event.rank).Pairwise (· ≤ ·)) &&
    (es.filterMap Event.rank).all (decide <| · < 5)

theorem servedInOrder_nil : servedInOrder [] = true := rfl

/-- One turn of the loop. -/
structure Iter where
  dt : ℕ := 0
  pending : SetReply := .acked
  probe : Bool := true
  sync : SyncIo := {}
  getRadio : Bool := true
  venc : Bool := true
  served : List Event := []
  inOrder : servedInOrder served = true := by decide

/-- The events of a turn: the timers share one clock reading. -/
def Iter.events (i : Iter) : List Event :=
  [.pendingTick i.dt i.pending, .probeTick 0 i.probe, .subscribe 0, .watchdog 0 i.sync,
    .radioPoll 0 i.getRadio i.venc] ++ i.served

/-- The run made of the given turns. -/
def loopRun (is : List Iter) : List Event := is.flatMap Iter.events

end Waybeam.Vehicle
