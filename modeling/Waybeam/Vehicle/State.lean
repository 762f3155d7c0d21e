/-
# `Waybeam.Vehicle.State` — the link controller's state and the shared ends of its paths

`Lc` is everything `main` keeps between two turns of its loop, together with two things
that are not its own: the body wfb_tx transmits with (`air`) and the monotonic clock.

    cfg                      live configuration, written by /set and by two command keys
    fec, ring, fps           FEC controller, frame-size window, frame rate
    radio                    RadioState: what tx_stats, the poll and own commits reported
    radioBody, …Valid        the body the law builds its next SET_RADIO from
    pending                  the queued drop
    sel, scorer, probe       MCS selector and its inputs
    wcmd                     command proxy
    transport, bp…           producer backpressure

The three places that end a path through the radio are here: `observe` mirrors a body into
`RadioState`, `commitTo` runs `commit_mcs_change`, `commitStored` keeps an acknowledged one.
-/
import Waybeam.Machine
import Waybeam.Vehicle.Wcmd
import Waybeam.Vehicle.Selector

namespace Waybeam.Vehicle

/-- What the last transport trailer said. -/
structure TransportState where
  present : Bool := false
  fillPct : ℕ := 0
  inPressure : Bool := false
  pressureDrops : ℕ := 0
  lastUs : ℕ := 0

/-- The link controller between two events. -/
structure Lc where
  cfg : Config
  fec : FecState := {}
  ring : HeadroomRing := HeadroomRing.init
  fps : FpsEst := {}
  lastWrittenFec : ℤ × ℤ := (-1, -1)
  radio : RadioState := {}
  radioBody : RadioBody := {}
  radioBodyValid : Bool := false
  pending : Option PendingMcsDown := none
  sel : Selector := {}
  scorer : Scorer := {}
  probe : ProbeState := {}
  probeGateMcs : ℤ := -2
  probeSent : Option RadioBody := none
  probeRetryUs : ℕ := 0
  wcmd : WcmdState := {}
  localCmdSeq : UInt16 := 0
  transport : TransportState := {}
  bpSkipSinceUs : ℕ := 0
  bpRecoverUs : ℕ := 0
  nextSubscribeUs : ℕ := 0
  nextRadioUs : ℕ := 0
  nextWatchdogUs : ℕ := 0
  lastStatsUs : ℕ := 0
  statsWasStale : Bool := false
  sidecarOpen : Bool := false
  statsOpen : Bool := false
  rxAntOpen : Bool := false
  /-- what wfb_tx transmits with -/
  air : RadioBody := {}
  /-- the last reading of `now_us()` -/
  clock : ℕ := 0

namespace Lc

/-- Mirror a radio observation. -/
def observe (s : Lc) (p : RadioParams) (now : ℕ) : Lc :=
  let (radio, ctrl) := radioApplyObservation s.radio s.fec.ctrl s.cfg p now
  { s with radio, fec := { s.fec with ctrl } }

/-- `wfb_get_radio` into the cache; a failed GET leaves it alone. -/
def adopt (s : Lc) (ok : Bool) : Lc × List Obs :=
  if ok then ({ s with radioBody := s.air, radioBodyValid := true }, [.adopted s.air])
  else (s, [])

/-- Sync a cache that was never valid. -/
def syncBody (s : Lc) (ok : Bool) : Lc × List Obs :=
  if s.radioBodyValid then (s, []) else s.adopt ok

/-- `commit_mcs_change` on the live state. -/
def commitTo (s : Lc) (newMcs : ℤ) (who : SetBy) (now : ℕ) (io : CommitIo) :
    CommitRc × Lc × List Obs :=
  let o := commitMcsChange s.cfg s.radioBody newMcs s.radio s.fec s.air who now io
  (o.rc, { s with pending := o.pending, fec := o.fec, air := o.air }, o.obs)

/-- The cache and the mirror after an acknowledged SET of `newMcs`. -/
def stored (s : Lc) (newMcs : ℤ) (now : ℕ) : Lc :=
  let r := s.radioBody.withMcs newMcs
  { s with radioBody := r }.observe r.params now

/-- `commit_mcs_change`, kept if acknowledged. -/
def commitStored (s : Lc) (newMcs : ℤ) (who : SetBy) (now nowObs : ℕ) (io : CommitIo) :
    Lc × List Obs :=
  let (rc, s, obs) := s.commitTo newMcs who now io
  (if rc = .acked then s.stored newMcs nowObs else s, obs)

/-- A queued drop already targets `mcs`. -/
def coveredByPending (s : Lc) (mcs : ℤ) : Bool :=
  (s.pending.map fun p => decide (p.targetMcs = mcs)).getD false

/-- `bitrate_assert` on the live state. -/
def assertBitrate (s : Lc) (now : ℕ) (answer : Bool) : Lc × List Obs :=
  let (fec, obs) := bitrateAssert s.radio s.cfg s.fec now answer
  ({ s with fec }, obs)

/-! ## What each of them touches -/

@[simp] theorem observe_cfg (s : Lc) (p : RadioParams) (now : ℕ) : (s.observe p now).cfg = s.cfg := rfl
@[simp] theorem observe_radioBody (s : Lc) (p : RadioParams) (now : ℕ) :
    (s.observe p now).radioBody = s.radioBody := rfl
@[simp] theorem observe_radioBodyValid (s : Lc) (p : RadioParams) (now : ℕ) :
    (s.observe p now).radioBodyValid = s.radioBodyValid := rfl
@[simp] theorem observe_pending (s : Lc) (p : RadioParams) (now : ℕ) :
    (s.observe p now).pending = s.pending := rfl
@[simp] theorem observe_sel (s : Lc) (p : RadioParams) (now : ℕ) : (s.observe p now).sel = s.sel := rfl
@[simp] theorem observe_wcmd (s : Lc) (p : RadioParams) (now : ℕ) :
    (s.observe p now).wcmd = s.wcmd := rfl
@[simp] theorem observe_air (s : Lc) (p : RadioParams) (now : ℕ) : (s.observe p now).air = s.air := rfl
@[simp] theorem observe_clock (s : Lc) (p : RadioParams) (now : ℕ) :
    (s.observe p now).clock = s.clock := rfl
@[simp] theorem observe_transport (s : Lc) (p : RadioParams) (now : ℕ) :
    (s.observe p now).transport = s.transport := rfl
@[simp] theorem observe_lastWrittenKbps (s : Lc) (p : RadioParams) (now : ℕ) :
    (s.observe p now).fec.lastWrittenKbps = s.fec.lastWrittenKbps := rfl

end Lc

/-! ## Boot -/

/-- What the process is started with, and the answers it gets before its loop begins. -/
structure Boot where
  cfg : Config
  inRange : cfg.InRange
  now : ℕ
  air : RadioBody
  getRadio : Bool := true
  venc : Bool := true

/-- A boot with the default configuration. -/
def Boot.withDefaults (air : RadioBody) : Boot where
  cfg := {}
  inRange := Config.default_inRange
  now := 1000000
  air := air

namespace Boot

variable (b : Boot)

/-- `main` before its loop: sockets, the bootstrap GET_RADIO, the boot-armed failsafe. -/
def init : Lc :=
  let mcsOn := b.cfg.mcs.enabled
  let synced := mcsOn && b.getRadio
  let s : Lc := {
    -- the proxy has no socket without rx_ant
    cfg := { b.cfg with cmd := { b.cfg.cmd with enabled := mcsOn && b.cfg.cmd.enabled } }
    radioBody := if synced then b.air else {}
    radioBodyValid := synced
    -- pretend a record at boot, so that the watchdog fires without a ground station
    sel := { lastDatagramUs := b.now }
    nextWatchdogUs := b.now + usOf (b.cfg.mcs.failsafeTimeoutS / 4)
    sidecarOpen := b.cfg.fec.enabled
    statsOpen := b.cfg.fec.enabled && b.cfg.fec.wfbStatsPort != 0
    rxAntOpen := mcsOn
    air := b.air
    clock := b.now }
  if synced then s.observe b.air.params b.now else s

/-- The safe-startup write. -/
def obs : List Obs :=
  if b.cfg.fec.enabled && b.cfg.fec.safeStartupEnabled && !b.cfg.dryRun then
    (vencApply b.now .startup b.cfg.fec.safeStartupBitrateKbps b.cfg.fec.safeStartupPayload
      b.venc).2
  else []

end Boot

end Waybeam.Vehicle
