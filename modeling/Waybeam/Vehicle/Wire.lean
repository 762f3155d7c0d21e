/-
# `Waybeam.Vehicle.Wire` — what the link controller exchanges with its peers

The process talks to four peers, each behind a socket:

    wfb_tx        SET_RADIO / GET_RADIO / SET_FEC / GET_FEC / SET_PEEK, and `tx_stats` datagrams
    venc          HTTP writes of bitrate and payload size, and sidecar frames
    ground side   rx_ant records, probe records and WCMD requests on one UDP socket
    operator      the local HTTP console (`/set`, `/cmd`)

Datagrams are given by the fields the handlers read; a missing JSON field is `none`.  `Obs`
lists what a handler emits: requests to a peer with the peer's answer, and the events a run
is judged by.
-/
import Waybeam.Numeric

namespace Waybeam.Vehicle

/-! ## wfb_tx control -/

/-- The seven radio parameters of SET_RADIO and GET_RADIO. -/
structure RadioBody where
  stbc : UInt8 := 0
  ldpc : UInt8 := 0
  shortGi : UInt8 := 0
  bandwidth : UInt8 := 0
  mcsIndex : UInt8 := 0
  vhtMode : UInt8 := 0
  vhtNss : UInt8 := 0
  deriving DecidableEq, Repr

/-- What became of a SET_RADIO: the ack is not the effect. -/
inductive SetReply where
  | acked
  /-- applied, but the answer did not arrive in time -/
  | lost
  | refused
  deriving DecidableEq, Repr

namespace RadioBody

/-- The flags are normalised on the wire. -/
def onWire (r : RadioBody) : RadioBody :=
  { r with
    ldpc := if r.ldpc ≠ 0 then 1 else 0
    shortGi := if r.shortGi ≠ 0 then 1 else 0
    vhtMode := if r.vhtMode ≠ 0 then 1 else 0 }

/-- `r.mcs_index = (uint8_t)m`. -/
def withMcs (r : RadioBody) (m : ℤ) : RadioBody := { r with mcsIndex := u8 m }

/-- `(int)r.mcs_index`. -/
def mcs (r : RadioBody) : ℤ := r.mcsIndex.toNat

/-- The body without its MCS: the fields an operator sets and no law computes. -/
def phy (r : RadioBody) : RadioBody := { r with mcsIndex := 0 }

@[simp] theorem mcs_onWire (r : RadioBody) : r.onWire.mcs = r.mcs := rfl

@[simp] theorem phy_withMcs (r : RadioBody) (m : ℤ) : (r.withMcs m).phy = r.phy := rfl

@[simp] theorem mcsIndex_withMcs (r : RadioBody) (m : ℤ) : (r.withMcs m).mcsIndex = u8 m := rfl

theorem mcs_withMcs (r : RadioBody) {m : ℤ} (h0 : 0 ≤ m) (h : m < 256) : (r.withMcs m).mcs = m :=
  u8_toNat h0 h

end RadioBody

/-- Who asked for a SET_RADIO. -/
inductive SetBy where
  | pendingTick
  | watchdog
  | realign
  | decision
  | operator
  deriving DecidableEq, Repr

/-- Every sender but the operator is the control law. -/
def SetBy.isLaw : SetBy → Bool
  | .operator => false
  | _ => true

/-- A `tx_stats` datagram of wfb_tx. -/
structure TxStats where
  mcs : Option ℤ := none
  bw : Option ℤ := none
  shortGi : Option ℤ := none
  stbc : Option ℤ := none
  ldpc : Option ℤ := none
  vhtMode : Option ℤ := none
  vhtNss : Option ℤ := none
  fecK : Option ℤ := none
  fecN : Option ℤ := none
  seq : Option ℤ := none

/-! ## venc -/

/-- Who wrote to the encoder. -/
inductive VencBy where
  | startup
  | assert
  | wedge
  | operator
  deriving DecidableEq, Repr

/-- A write to `/api/v1/set`: the fields that made it into the query. -/
structure VencReq where
  bitrateKbps : Option ℤ := none
  payloadBytes : Option ℤ := none
  deriving DecidableEq, Repr

/-- The transport trailer of a sidecar frame. -/
structure SidecarTransport where
  fillPct : ℕ
  inPressure : Bool
  pressureDrops : ℕ

/-- A sidecar datagram.  `len` is its length and decides which optional parts are read. -/
structure SidecarDgram where
  len : ℕ
  /-- magic, version and message type are those of a frame -/
  isFrame : Bool
  flagEncInfo : Bool
  flagTransportInfo : Bool
  frameReadyUs : ℕ
  frameSizeBytes : ℕ
  transport : SidecarTransport

/-- `sizeof(SidecarFrame)`, `sizeof(SidecarEncInfo)`, `sizeof(SidecarTransportInfo)`. -/
def sidecarFrameLen : ℕ := 52

@[inherit_doc sidecarFrameLen]
def sidecarEncInfoLen : ℕ := 12

@[inherit_doc sidecarFrameLen]
def sidecarTransportLen : ℕ := 16

/-- How long venc keeps a subscriber: `RTP_SIDECAR_SUB_TTL_US`. -/
def sidecarSubTtlUs : ℕ := 5 * 1000000

/-! ## The ground side -/

/-- One antenna entry of an rx_ant record. -/
structure AntEntry where
  id : String := ""
  avg : Option ℤ
  max : Option ℤ := none

/-- The `pkt` block of an rx_ant record. -/
structure PktBlock where
  uniq : Option ℤ := none
  data : Option ℤ := none
  lost : Option ℤ := none
  fecRecovered : Option ℤ := none
  diversity : Option ℤ := none
  adapters : Option ℤ := none

/-- An rx_ant record. -/
structure RxAnt where
  ver1 : Bool := true
  pkt : Option PktBlock
  ants : List AntEntry

/-- A boundary-probe record. -/
structure ProbeRec where
  mcs : Option ℤ := none
  accounted : Option ℤ := none
  lost : Option ℤ := none
  tsMs : Option ℤ := none

/-- What the selector decided. -/
inductive SelectDecision where
  | none
  | init
  | down
  | up
  | failsafe
  deriving DecidableEq, Repr

/-! ## Observations -/

/-- What the controller emits, in order. -/
inductive Obs where
  /-- a SET_RADIO to the video wfb_tx and whether its ack arrived -/
  | setRadio (now : ℕ) (who : SetBy) (body : RadioBody) (acked : Bool)
  /-- a GET_RADIO answer stored as the cached body -/
  | adopted (body : RadioBody)
  /-- an observation of the radio by `tx_stats` or by the poll -/
  | radioSeen (mcs : ℤ)
  /-- a SET_FEC of the control law and whether it was sent -/
  | lawFec (k n : ℤ) (sent : Bool)
  /-- a SET_FEC of the operator and whether it was sent -/
  | operatorFec (k n : ℤ) (sent : Bool)
  /-- a write to the encoder and whether it was acknowledged -/
  | venc (now : ℕ) (who : VencBy) (req : VencReq) (ok : Bool)
  /-- a `bitrate_assert` that reached its write decision -/
  | asserted (now : ℕ) (target : ℤ)
  /-- the pre-drop `bitrate_assert` of an ordered drop to `mcs` -/
  | preDrop (now : ℕ) (mcs : ℤ)
  /-- a SET_RADIO deferred to the pending tick -/
  | queued (now : ℕ) (mcs : ℤ)
  /-- a transport trailer was read -/
  | trailer (now : ℕ) (inPressure : Bool)
  /-- `selector_update` ran -/
  | selectorUpdate (now : ℕ) (inPressure : Bool) (decision : SelectDecision)
  /-- the selector was restored from its snapshot -/
  | rolledBack
  /-- the watchdog committed SD_FAILSAFE to `mcs`, `timeoutUs` being the silence it requires -/
  | failsafe (now : ℕ) (mcs : ℤ) (timeoutUs : ℕ)
  /-- a SUBSCRIBE keepalive -/
  | subscribe (now : ℕ)
  /-- a SET_RADIO to the probe wfb_tx and whether it was acked -/
  | setProbe (now : ℕ) (body : RadioBody) (acked : Bool)

end Waybeam.Vehicle
