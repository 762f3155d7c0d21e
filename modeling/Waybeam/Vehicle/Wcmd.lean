/-
# `Waybeam.Vehicle.Wcmd` — the operator command proxy

One request frame goes through a fixed sequence of gates, then to the peer its key names:

    gate          cmd.enabled, peer, key known, infrastructure keys (18, 19), allow mask,
                  burst dedup, return-to-APFPV (20), tx power owned by the driver, clamp, rate
    toggle        12, 13          flips fec.enabled / mcs.enabled
    peek          16              SET_PEEK
    tx power      14              iw
    radio, fec    5 .. 11         read, change one field, write back
    venc          1 .. 4, 15      HTTP

A radio key that wfb_tx acknowledged leaves its body in `radioWritten` for the main loop to
adopt.  The frames arrive by UDP on the rx_ant socket or from the local HTTP console.
-/
import Waybeam.Vehicle.Commit

namespace Waybeam.Vehicle

/-- `WCMD_KEY_*` up to `WCMD_NUM_KEYS`. -/
inductive WcmdKey where
  | bitrateKbps
  | fps
  | payloadBytes
  | forceIdr
  | wfbFecK
  | wfbFecN
  | wfbMcs
  | wfbBandwidth
  | wfbLdpc
  | wfbStbc
  | wfbShortGi
  | fecEnabled
  | mcsEnabled
  | wfbTxpower
  | record
  | peekEnabled
  | reserved17
  | logSync
  | logControl
  | returnApfpv
  deriving DecidableEq, Repr

/-- The keys in wire order, from 1. -/
def WcmdKey.all : List WcmdKey :=
  [.bitrateKbps, .fps, .payloadBytes, .forceIdr, .wfbFecK, .wfbFecN, .wfbMcs, .wfbBandwidth,
    .wfbLdpc, .wfbStbc, .wfbShortGi, .fecEnabled, .mcsEnabled, .wfbTxpower, .record, .peekEnabled,
    .reserved17, .logSync, .logControl, .returnApfpv]

/-- The key a wire byte names. -/
def WcmdKey.ofByte (b : UInt8) : Option WcmdKey :=
  if b = 0 then none else WcmdKey.all[b.toNat - 1]?

/-- The bit of `cmd.allow_keys_mask` that admits the key. -/
def WcmdKey.maskBit (k : WcmdKey) : ℕ := WcmdKey.all.idxOf k

/-- The radio keys. -/
def WcmdKey.isRadio : WcmdKey → Bool
  | .wfbMcs | .wfbBandwidth | .wfbLdpc | .wfbStbc | .wfbShortGi => true
  | _ => false

/-- A request frame that passed the length, magic, version and type checks. -/
structure WcmdReq where
  seq : UInt16
  key : UInt8
  value : ℤ

/-- `WCMD_STATUS_*`. -/
inductive WcmdStatus where
  | ok
  | disabled
  | unknownKey
  | keyBlocked
  | outOfRange
  | rateLimited
  | httpError
  | notPermitted
  deriving DecidableEq, Repr

/-- The response, without the echoed fields. -/
structure WcmdResp where
  status : WcmdStatus
  httpStatus : ℤ := 0
  appliedValue : ℤ := 0
  deriving DecidableEq, Repr

/-- `WcmdState`. -/
structure WcmdState where
  recvTotal : ℕ := 0
  accepted : ℕ := 0
  rejectedDisabled : ℕ := 0
  rejectedUnknown : ℕ := 0
  rejectedBlocked : ℕ := 0
  rejectedRange : ℕ := 0
  rejectedRate : ℕ := 0
  rejectedPeer : ℕ := 0
  coalescedBurst : ℕ := 0
  httpErrors : ℕ := 0
  lastApplyUs : WcmdKey → ℕ := fun _ => 0
  lastSeq : WcmdKey → UInt16 := fun _ => 0
  lastSeqUs : WcmdKey → ℕ := fun _ => 0
  lastRecvUs : ℕ := 0
  lastStatus : WcmdStatus := .ok
  lastKey : UInt8 := 0
  lastValue : ℤ := 0
  lastHttpStatus : ℤ := 0
  /-- the body of a radio key applied and not yet adopted -/
  radioWritten : Option RadioBody := none

/-- The answers a dispatch may need. -/
structure CmdIo where
  /-- GET_FEC: the pair in force -/
  getFec : Option (ℤ × ℤ) := none
  setFec : Bool := true
  getRadio : Bool := true
  setRadio : SetReply := .acked
  setPeek : Bool := true
  /-- venc's body said ok -/
  venc : Bool := true
  httpStatus : ℤ := 200
  /-- exit codes of `iw` and of the recovery hook -/
  iwRc : ℤ := 0
  hookRc : ℤ := 0

/-- What a dispatch leaves behind. -/
structure CmdOut where
  cfg : Config
  st : WcmdState
  air : RadioBody
  resp : WcmdResp
  obs : List Obs := []

/-- `WCMD_BURST_DEDUP_US`. -/
def wcmdBurstDedupUs : ℕ := 500 * 1000

/-- `(uint16_t)i` of a status code. -/
def u16 (i : ℤ) : ℤ := i % 65536

namespace WcmdState

/-- `wcmd_mark_applied`. -/
def markApplied (st : WcmdState) (key : WcmdKey) (seq : UInt16) (now : ℕ) : WcmdState :=
  { st with
    lastApplyUs := Function.update st.lastApplyUs key now
    lastSeq := Function.update st.lastSeq key seq
    lastSeqUs := Function.update st.lastSeqUs key now }

/-- The same `(key, seq)` was applied inside the dedup window. -/
def isDup (st : WcmdState) (key : WcmdKey) (seq : UInt16) (now : ℕ) : Bool :=
  decide (st.lastSeqUs key ≠ 0) && decide (st.lastSeq key = seq) &&
    decide (now - st.lastSeqUs key < wcmdBurstDedupUs)

/-- The bookkeeping of an applied command. -/
def accept (st : WcmdState) (key : WcmdKey) (seq : UInt16) (now : ℕ) (value http : ℤ) : WcmdState :=
  { st.markApplied key seq now with
    accepted := st.accepted + 1, lastStatus := .ok, lastValue := value, lastHttpStatus := http }

/-- The bookkeeping of a failed round trip. -/
def failHttp (st : WcmdState) : WcmdState :=
  { st with httpErrors := st.httpErrors + 1, lastStatus := .httpError }

/-- The bookkeeping of a value refused. -/
def failRange (st : WcmdState) : WcmdState :=
  { st with rejectedRange := st.rejectedRange + 1, lastStatus := .outOfRange }

end WcmdState

/-- The clamp window of a key, `none` for a key without one. -/
def wcmdWindow (cfg : Config) : WcmdKey → Option (ℤ × ℤ)
  | .bitrateKbps =>
      -- the FEC subsystem's window wins while it is enabled
      let fecLo := if cfg.fec.enabled then cfg.fec.bitrateMinKbps else 0
      let fecHi := if cfg.fec.enabled then cfg.fec.bitrateMaxKbps else 0
      some (i32 (if 0 < fecLo then fecLo else cfg.cmd.bitrateMinKbps),
        i32 (if 0 < fecHi then fecHi else cfg.cmd.bitrateMaxKbps))
  | .fps => some (cfg.cmd.fpsMin, cfg.cmd.fpsMax)
  | .payloadBytes => some (cfg.cmd.payloadMin, cfg.cmd.payloadMax)
  | .wfbFecK => some (cfg.cmd.wfbFecKMin, cfg.cmd.wfbFecKMax)
  | .wfbFecN => some (cfg.cmd.wfbFecNMin, cfg.cmd.wfbFecNMax)
  | .wfbMcs => some (cfg.cmd.wfbMcsMin, cfg.cmd.wfbMcsMax)
  | .wfbBandwidth => some (cfg.cmd.wfbBandwidthMin, cfg.cmd.wfbBandwidthMax)
  | .wfbLdpc | .wfbStbc | .wfbShortGi | .fecEnabled | .mcsEnabled | .record | .peekEnabled =>
      some (0, 1)
  | .wfbTxpower => some (cfg.cmd.wfbTxpowerMin, cfg.cmd.wfbTxpowerMax)
  | .forceIdr | .reserved17 | .logSync | .logControl | .returnApfpv => none

/-- `wcmd_clamp_value`; `none` for its `-1`. -/
def wcmdClampValue (cfg : Config) (key : WcmdKey) (value : ℤ) : Option ℤ :=
  if key = .forceIdr then some 0
  else
    match wcmdWindow cfg key with
    | none => none
    | some (lo, hi) =>
        if hi ≤ 0 ∨ hi < lo then none
        else some (if value < lo then lo else if value > hi then hi else value)

/-- The radio body with one field changed. -/
def RadioBody.write (r : RadioBody) (key : WcmdKey) (value : ℤ) : RadioBody :=
  match key with
  | .wfbMcs => { r with mcsIndex := u8 value }
  | .wfbBandwidth => { r with bandwidth := u8 value }
  | .wfbLdpc => { r with ldpc := if value ≠ 0 then 1 else 0 }
  | .wfbStbc => { r with stbc := u8 value }
  | .wfbShortGi => { r with shortGi := if value ≠ 0 then 1 else 0 }
  | _ => r

section Apply

variable (cfg : Config) (st : WcmdState) (air : RadioBody)

/-- Keys 5 and 6: read the pair, change one side, write it back. -/
def wcmdApplyFec (key : WcmdKey) (seq : UInt16) (value : ℤ) (now : ℕ) (io : CmdIo) : CmdOut :=
  match io.getFec with
  | none => { cfg, st := st.failHttp, air, resp := ⟨.httpError, 0, 0⟩ }
  | some (kNow, nNow) =>
      let newK := if key = .wfbFecK then value else kNow
      let newN := if key = .wfbFecN then value else nNow
      if newN < newK then { cfg, st := st.failRange, air, resp := ⟨.outOfRange, 0, 0⟩ }
      else if io.setFec then
        { cfg, st := st.accept key seq now value 0, air, resp := ⟨.ok, 0, value⟩
          obs := [.operatorFec newK newN true] }
      else
        { cfg, st := st.failHttp, air, resp := ⟨.httpError, 0, 0⟩
          obs := [.operatorFec newK newN false] }

/-- Keys 7 to 11: read the body, change one field, write it back, keep it for adoption. -/
def wcmdApplyRadio (key : WcmdKey) (seq : UInt16) (value : ℤ) (now : ℕ) (io : CmdIo) : CmdOut :=
  if !io.getRadio then { cfg, st := st.failHttp, air, resp := ⟨.httpError, 0, 0⟩ }
  else
    let r := air.write key value
    let (acked, air, obs) := wfbSetRadio now .operator r io.setRadio air
    if acked then
      { cfg, st := { st.accept key seq now value 0 with radioWritten := some r }, air
        resp := ⟨.ok, 0, value⟩, obs }
    else { cfg, st := st.failHttp, air, resp := ⟨.httpError, 0, 0⟩, obs }

/-- The bitrate or payload a venc key asks for; the other venc keys touch neither. -/
def wcmdVencReq (key : WcmdKey) (value : ℤ) : Option VencReq :=
  match key with
  | .bitrateKbps => some { bitrateKbps := some value }
  | .payloadBytes => some { payloadBytes := some value }
  | _ => none

/-- Keys 1 to 4 and 15: one HTTP round trip. -/
def wcmdApplyVenc (key : WcmdKey) (seq : UInt16) (value : ℤ) (now : ℕ) (io : CmdIo) : CmdOut :=
  let obs := ((wcmdVencReq key value).map (Obs.venc now .operator · io.venc)).toList
  if io.venc then
    { cfg, st := st.accept key seq now value io.httpStatus, air
      resp := ⟨.ok, u16 (if 0 < io.httpStatus then io.httpStatus else 200), value⟩, obs }
  else
    { cfg, st := { st.failHttp with lastHttpStatus := io.httpStatus }, air
      resp := ⟨.httpError, u16 io.httpStatus, 0⟩, obs }

/-- Key 14. -/
def wcmdApplyTxpower (seq : UInt16) (value : ℤ) (now : ℕ) (io : CmdIo) : CmdOut :=
  if !cfg.cmd.hasIface then { cfg, st := st.failRange, air, resp := ⟨.outOfRange, 0, 0⟩ }
  else if cfg.dryRun ∨ io.iwRc = 0 then
    { cfg, st := st.accept .wfbTxpower seq now value 0, air, resp := ⟨.ok, 0, value⟩ }
  else
    { cfg, st := { st.failHttp with lastHttpStatus := io.iwRc }, air
      resp := ⟨.httpError, if 0 < io.iwRc ∧ io.iwRc ≤ 0xFFFF then io.iwRc else 0, 0⟩ }

/-- Everything past the gates; `value` is clamped. -/
def wcmdApply (key : WcmdKey) (seq : UInt16) (value : ℤ) (now : ℕ) (io : CmdIo) : CmdOut :=
  let bit : ℤ := if value ≠ 0 then 1 else 0
  match key with
  | .fecEnabled =>
      { cfg := { cfg with fec := { cfg.fec with enabled := value ≠ 0 } }
        st := st.accept key seq now bit 0, air, resp := ⟨.ok, 0, bit⟩ }
  | .mcsEnabled =>
      { cfg := { cfg with mcs := { cfg.mcs with enabled := value ≠ 0 } }
        st := st.accept key seq now bit 0, air, resp := ⟨.ok, 0, bit⟩ }
  | .peekEnabled =>
      if cfg.dryRun || io.setPeek then
        { cfg, st := st.accept key seq now bit 0, air, resp := ⟨.ok, 0, bit⟩ }
      else { cfg, st := st.failHttp, air, resp := ⟨.httpError, 0, 0⟩ }
  | .wfbTxpower => wcmdApplyTxpower cfg st air seq value now io
  | .wfbFecK | .wfbFecN =>
      if cfg.dryRun then { cfg, st := st.accept key seq now value 0, air, resp := ⟨.ok, 0, value⟩ }
      else wcmdApplyFec cfg st air key seq value now io
  | .wfbMcs | .wfbBandwidth | .wfbLdpc | .wfbStbc | .wfbShortGi =>
      if cfg.dryRun then { cfg, st := st.accept key seq now value 0, air, resp := ⟨.ok, 0, value⟩ }
      else wcmdApplyRadio cfg st air key seq value now io
  | .bitrateKbps | .fps | .payloadBytes | .forceIdr | .record =>
      if cfg.dryRun then
        { cfg, st := st.accept key seq now value 200, air, resp := ⟨.ok, 200, value⟩ }
      else wcmdApplyVenc cfg st air key seq value now io
  | .reserved17 | .logSync | .logControl | .returnApfpv =>
      { cfg, st := { st with rejectedUnknown := st.rejectedUnknown + 1, lastStatus := .unknownKey }
        air, resp := ⟨.unknownKey, 0, 0⟩ }

/-- Keys 18 and 19: no gate but the dedup, always answered OK. -/
def wcmdInfra (key : WcmdKey) (seq : UInt16) (value : ℤ) (now : ℕ) : CmdOut :=
  let st :=
    if st.isDup key seq now then { st with coalescedBurst := st.coalescedBurst + 1 }
    else { st.markApplied key seq now with accepted := st.accepted + 1 }
  { cfg, st := { st with lastStatus := .ok, lastValue := value, lastHttpStatus := 0 }, air
    resp := ⟨.ok, 0, value⟩ }

/-- Key 20: arm the APFPV hook. -/
def wcmdReturnApfpv (seq : UInt16) (now : ℕ) (io : CmdIo) : CmdOut :=
  if !cfg.recoveryHook then
    { cfg, st := { st with lastStatus := .disabled }, air, resp := ⟨.disabled, 0, 0⟩ }
  else
    let rc := if cfg.dryRun then 0 else io.hookRc
    let st := st.markApplied .returnApfpv seq now
    if rc = 0 then
      { cfg, air, resp := ⟨.ok, 0, 0⟩
        st := { st with
          accepted := st.accepted + 1, lastStatus := .ok, lastValue := 0, lastHttpStatus := 0 } }
    else
      { cfg, air, st := { st with lastStatus := .httpError }
        resp := ⟨.httpError, if 0 < rc ∧ rc ≤ 0xFFFF then rc else 0, 0⟩ }

/-- The gates of a known operator key after the allow mask. -/
def wcmdGate (key : WcmdKey) (seq : UInt16) (raw : ℤ) (now : ℕ) (io : CmdIo) : CmdOut :=
  if st.isDup key seq now then
    { cfg, air, resp := ⟨.ok, u16 st.lastHttpStatus, st.lastValue⟩
      st := { st with coalescedBurst := st.coalescedBurst + 1, lastStatus := .ok } }
  else if key = .returnApfpv then wcmdReturnApfpv cfg st air seq now io
  else if key = .wfbTxpower ∧ cfg.cmd.txPwrByRate then
    { cfg, air, resp := ⟨.disabled, 0, 0⟩
      st := { st with
        rejectedDisabled := st.rejectedDisabled + 1, lastStatus := .disabled, lastValue := raw } }
  else
    match wcmdClampValue cfg key raw with
    | none => { cfg, st := st.failRange, air, resp := ⟨.outOfRange, 0, 0⟩ }
    | some value =>
        if 0 < cfg.cmd.rateLimitMs ∧ st.lastApplyUs key ≠ 0 ∧
            now - st.lastApplyUs key < cfg.cmd.rateLimitMs.toNat * 1000 then
          { cfg, air, resp := ⟨.rateLimited, 0, value⟩
            st := { st with
              rejectedRate := st.rejectedRate + 1, lastStatus := .rateLimited
              lastValue := value } }
        else wcmdApply cfg st air key seq value now io

/-- `wcmd_dispatch`. -/
def wcmdDispatch (req : WcmdReq) (peerIsLoopback : Bool) (now : ℕ) (io : CmdIo) : CmdOut :=
  let st := { st with
    recvTotal := st.recvTotal + 1, lastRecvUs := now, lastKey := req.key, lastValue := req.value
    lastHttpStatus := 0 }
  if !cfg.cmd.enabled then
    { cfg, air, resp := ⟨.disabled, 0, 0⟩
      st := { st with rejectedDisabled := st.rejectedDisabled + 1, lastStatus := .disabled } }
  else if cfg.cmd.loopbackOnly && !peerIsLoopback then
    { cfg, air, resp := ⟨.notPermitted, 0, 0⟩
      st := { st with rejectedPeer := st.rejectedPeer + 1, lastStatus := .notPermitted } }
  else
    match WcmdKey.ofByte req.key with
    | none =>
        { cfg, air, resp := ⟨.unknownKey, 0, 0⟩
          st := { st with rejectedUnknown := st.rejectedUnknown + 1, lastStatus := .unknownKey } }
    | some .logSync => wcmdInfra cfg st air .logSync req.seq req.value now
    | some .logControl =>
        wcmdInfra cfg st air .logControl req.seq (if req.value ≠ 0 then 1 else 0) now
    | some key =>
        if !cfg.cmd.allowKeysMask.toNat.testBit key.maskBit then
          { cfg, air, resp := ⟨.keyBlocked, 0, 0⟩
            st := { st with
              rejectedBlocked := st.rejectedBlocked + 1, lastStatus := .keyBlocked } }
        else wcmdGate cfg st air key req.seq req.value now io

end Apply

end Waybeam.Vehicle
