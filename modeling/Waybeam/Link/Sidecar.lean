/-
# `Waybeam.Link.Sidecar` — the bytes of a sidecar frame, and two of its readers

A FRAME message is a packed structure in network byte order:

    0       base         52 bytes
    52      ENC_INFO     12 bytes, if its flag is set
    52/64   TRANSPORT    16 bytes, if its flag is set; it slides up when ENC_INFO is absent

The reference codec (`pack_frame_full`, `parse_frame`) unpacks tuples; the link controller
overlays packed structures on a buffer of 128 bytes.  A trailer that is flagged but cut off is
not there for either, and bytes behind what the flags announce are ignored.
-/
import Waybeam.Packed
import Waybeam.Vehicle.Loop

namespace Waybeam.Sidecar

open Packed Vehicle

/-! ## The message -/

def magic : ℕ := 0x52545053

def version : ℕ := 1

def msgFrame : ℕ := 2

def flagKeyframe : UInt8 := 1

def flagEncInfo : UInt8 := 2

def flagTransportInfo : UInt8 := 4

/-- The base of a frame; its magic, version, type and flags aside. -/
structure Base where
  streamId : UInt8
  ssrc : UInt32
  rtpTimestamp : UInt32
  frameId : UInt64
  frameReadyUs : UInt64
  seqFirst : UInt16
  seqCount : UInt16
  captureUs : UInt64
  lastPktSendUs : UInt64
  deriving DecidableEq, Repr

/-- The encoder trailer. -/
structure EncInfo where
  frameSizeBytes : UInt32
  frameType : UInt8
  qp : UInt8
  complexity : UInt8
  sceneChange : UInt8
  gopState : UInt8
  idrInserted : UInt8
  framesSinceIdr : UInt16
  deriving DecidableEq, Repr

/-- The transport trailer. -/
structure TransportInfo where
  fillPct : UInt8
  inPressure : UInt8
  transportDrops : UInt32
  pressureDrops : UInt32
  packetsSent : UInt32
  deriving DecidableEq, Repr

/-- `SidecarFrame`: a parsed message; an absent trailer is `none`. -/
structure Frame extends Base where
  flags : UInt8
  enc : Option EncInfo
  transport : Option TransportInfo
  deriving DecidableEq, Repr

/-- `FRAME_BASE_FMT`, `"!IBBBB II Q Q HH Q Q"`. -/
def frameBaseFmt : List ℕ := [4, 1, 1, 1, 1, 4, 4, 8, 8, 2, 2, 8, 8]

/-- `ENC_TRAILER_FMT`, `"!I BBBB BB H"`. -/
def encTrailerFmt : List ℕ := [4, 1, 1, 1, 1, 1, 1, 2]

/-- `TRANSPORT_TRAILER_FMT`, `"!BB2sIII"`. -/
def transportTrailerFmt : List ℕ := [1, 1, 2, 4, 4, 4]

/-! ## The reference codec -/

/-- The fields of a base, each with its width. -/
def Base.fields (b : Base) (flags : UInt8) : List (ℕ × ℕ) :=
  [(4, magic), (1, version), (1, msgFrame), (1, b.streamId.toNat), (1, flags.toNat), (4, b.ssrc.toNat),
    (4, b.rtpTimestamp.toNat), (8, b.frameId.toNat), (8, b.frameReadyUs.toNat), (2, b.seqFirst.toNat),
    (2, b.seqCount.toNat), (8, b.captureUs.toNat), (8, b.lastPktSendUs.toNat)]

@[inherit_doc Base.fields]
def EncInfo.fields (e : EncInfo) : List (ℕ × ℕ) :=
  [(4, e.frameSizeBytes.toNat), (1, e.frameType.toNat), (1, e.qp.toNat), (1, e.complexity.toNat),
    (1, e.sceneChange.toNat), (1, e.gopState.toNat), (1, e.idrInserted.toNat), (2, e.framesSinceIdr.toNat)]

@[inherit_doc Base.fields]
def TransportInfo.fields (t : TransportInfo) : List (ℕ × ℕ) :=
  [(1, t.fillPct.toNat), (1, t.inPressure.toNat), (2, 0), (4, t.transportDrops.toNat), (4, t.pressureDrops.toNat),
    (4, t.packetsSent.toNat)]

/-- The flags `pack_frame_full` sets. -/
def flagsOf (keyframe enc transport : Bool) : UInt8 :=
  (if keyframe then flagKeyframe else 0) ||| (if enc then flagEncInfo else 0) |||
    (if transport then flagTransportInfo else 0)

/-- `pack_frame_full`. -/
def packFrameFull (b : Base) (keyframe : Bool) (enc : Option EncInfo) (transport : Option TransportInfo) : List UInt8 :=
  pack (b.fields (flagsOf keyframe enc.isSome transport.isSome)) ++
    ((enc.elim [] fun e => pack e.fields) ++ transport.elim [] fun t => pack t.fields)

def EncInfo.unpack (data : List UInt8) : Option EncInfo :=
  match split encTrailerFmt data with
  | [frameSizeBytes, frameType, qp, complexity, sceneChange, gopState, idrInserted, framesSinceIdr] =>
      some {
        frameSizeBytes := .ofNat frameSizeBytes, frameType := .ofNat frameType, qp := .ofNat qp
        complexity := .ofNat complexity, sceneChange := .ofNat sceneChange, gopState := .ofNat gopState
        idrInserted := .ofNat idrInserted, framesSinceIdr := .ofNat framesSinceIdr }
  | _ => none

def TransportInfo.unpack (data : List UInt8) : Option TransportInfo :=
  match split transportTrailerFmt data with
  | [fillPct, inPressure, _pad, transportDrops, pressureDrops, packetsSent] =>
      some {
        fillPct := .ofNat fillPct, inPressure := .ofNat inPressure, transportDrops := .ofNat transportDrops
        pressureDrops := .ofNat pressureDrops, packetsSent := .ofNat packetsSent }
  | _ => none

/-- `parse_frame`. -/
def parseFrame (data : List UInt8) : Option Frame :=
  if data.length < 52 then none
  else
    match split frameBaseFmt (data.take 52) with
    | [mg, ver, msgType, streamId, fl, ssrc, rtpTimestamp, frameId, frameReadyUs, seqFirst, seqCount, captureUs,
        lastPktSendUs] =>
        if mg ≠ magic ∨ ver ≠ version then none
        else if msgType ≠ msgFrame then none
        else
          let flags := UInt8.ofNat fl
          let off := 52 + if flags &&& flagEncInfo ≠ 0 then 12 else 0
          some {
            streamId := .ofNat streamId, flags, ssrc := .ofNat ssrc, rtpTimestamp := .ofNat rtpTimestamp
            frameId := .ofNat frameId, frameReadyUs := .ofNat frameReadyUs, seqFirst := .ofNat seqFirst
            seqCount := .ofNat seqCount, captureUs := .ofNat captureUs, lastPktSendUs := .ofNat lastPktSendUs
            enc :=
              if flags &&& flagEncInfo ≠ 0 ∧ 64 ≤ data.length then EncInfo.unpack ((data.drop 52).take 12) else none
            transport :=
              if flags &&& flagTransportInfo ≠ 0 ∧ off + 16 ≤ data.length
              then TransportInfo.unpack ((data.drop off).take 16) else none }
    | _ => none

theorem Base.fits (b : Base) (flags : UInt8) : ∀ f ∈ b.fields flags, f.2 < 256 ^ f.1 := by
  simp only [Base.fields, List.forall_mem_cons, List.not_mem_nil, false_imp_iff, implies_true, and_true]
  exact ⟨by decide, by decide, by decide, b.streamId.toNat_lt, flags.toNat_lt, b.ssrc.toNat_lt,
    b.rtpTimestamp.toNat_lt, b.frameId.toNat_lt, b.frameReadyUs.toNat_lt, b.seqFirst.toNat_lt, b.seqCount.toNat_lt,
    b.captureUs.toNat_lt, b.lastPktSendUs.toNat_lt⟩

theorem EncInfo.fits (e : EncInfo) : ∀ f ∈ e.fields, f.2 < 256 ^ f.1 := by
  simp only [EncInfo.fields, List.forall_mem_cons, List.not_mem_nil, false_imp_iff, implies_true, and_true]
  exact ⟨e.frameSizeBytes.toNat_lt, e.frameType.toNat_lt, e.qp.toNat_lt, e.complexity.toNat_lt,
    e.sceneChange.toNat_lt, e.gopState.toNat_lt, e.idrInserted.toNat_lt, e.framesSinceIdr.toNat_lt⟩

theorem TransportInfo.fits (t : TransportInfo) : ∀ f ∈ t.fields, f.2 < 256 ^ f.1 := by
  simp only [TransportInfo.fields, List.forall_mem_cons, List.not_mem_nil, false_imp_iff, implies_true, and_true]
  exact ⟨t.fillPct.toNat_lt, t.inPressure.toNat_lt, by decide, t.transportDrops.toNat_lt, t.pressureDrops.toNat_lt,
    t.packetsSent.toNat_lt⟩

theorem EncInfo.unpack_pack (e : EncInfo) : EncInfo.unpack (pack e.fields) = some e := by
  have h : split encTrailerFmt (pack e.fields) = e.fields.map Prod.snd := split_pack_self e.fits
  rw [EncInfo.unpack, h]
  simp [EncInfo.fields]

theorem TransportInfo.unpack_pack (t : TransportInfo) : TransportInfo.unpack (pack t.fields) = some t := by
  have h : split transportTrailerFmt (pack t.fields) = t.fields.map Prod.snd := split_pack_self t.fits
  rw [TransportInfo.unpack, h]
  simp [TransportInfo.fields]

/-! ## The structures overlaid on the bytes -/

/-- The base at the front of a buffer. -/
def Base.overlay (buf : List UInt8) : Base where
  streamId := .ofNat (field buf 6 1)
  ssrc := .ofNat (field buf 8 4)
  rtpTimestamp := .ofNat (field buf 12 4)
  frameId := .ofNat (field buf 16 8)
  frameReadyUs := .ofNat (field buf 24 8)
  seqFirst := .ofNat (field buf 32 2)
  seqCount := .ofNat (field buf 34 2)
  captureUs := .ofNat (field buf 36 8)
  lastPktSendUs := .ofNat (field buf 44 8)

/-- An encoder trailer at an offset. -/
def EncInfo.overlay (buf : List UInt8) (off : ℕ) : EncInfo where
  frameSizeBytes := .ofNat (field buf off 4)
  frameType := .ofNat (field buf (off + 4) 1)
  qp := .ofNat (field buf (off + 5) 1)
  complexity := .ofNat (field buf (off + 6) 1)
  sceneChange := .ofNat (field buf (off + 7) 1)
  gopState := .ofNat (field buf (off + 8) 1)
  idrInserted := .ofNat (field buf (off + 9) 1)
  framesSinceIdr := .ofNat (field buf (off + 10) 2)

/-- A transport trailer at an offset. -/
def TransportInfo.overlay (buf : List UInt8) (off : ℕ) : TransportInfo where
  fillPct := .ofNat (field buf off 1)
  inPressure := .ofNat (field buf (off + 1) 1)
  transportDrops := .ofNat (field buf (off + 4) 4)
  pressureDrops := .ofNat (field buf (off + 8) 4)
  packetsSent := .ofNat (field buf (off + 12) 4)

/-- Magic, version and message type are those of a frame. -/
def headed (buf : List UInt8) : Bool :=
  field buf 0 4 == magic && field buf 4 1 == version && field buf 5 1 == msgFrame

/-- The buffer holds the base of a frame. -/
def isFrame (buf : List UInt8) : Bool := decide (52 ≤ buf.length) && headed buf

/-- The flags of a buffer. -/
def flagsAt (buf : List UInt8) : UInt8 := .ofNat (field buf 7 1)

/-- Where the transport trailer is. -/
def transportOff (flags : UInt8) : ℕ := 52 + if flags &&& flagEncInfo ≠ 0 then 12 else 0

/-- The encoder trailer, if it is flagged and whole. -/
def encAt (buf : List UInt8) : Option EncInfo :=
  if flagsAt buf &&& flagEncInfo ≠ 0 ∧ 64 ≤ buf.length then some (EncInfo.overlay buf 52) else none

/-- The transport trailer, if it is flagged and whole. -/
def transportAt (buf : List UInt8) : Option TransportInfo :=
  if flagsAt buf &&& flagTransportInfo ≠ 0 ∧ transportOff (flagsAt buf) + 16 ≤ buf.length
  then some (TransportInfo.overlay buf (transportOff (flagsAt buf))) else none

/-- The reference codec reads what the overlaid structures show. -/
theorem parseFrame_overlay (data : List UInt8) :
    parseFrame data =
      if isFrame data then
        some { toBase := Base.overlay data, flags := flagsAt data, enc := encAt data, transport := transportAt data }
      else none := by
  have hbase : split frameBaseFmt (data.take 52) = fields data 0 frameBaseFmt :=
    split_slice data 0 (Nat.le_refl 52)
  have henc : EncInfo.unpack ((data.drop 52).take 12) = some (EncInfo.overlay data 52) := by
    rw [EncInfo.unpack, split_slice data 52 (Nat.le_refl 12)]
    rfl
  have htransport : ∀ off, TransportInfo.unpack ((data.drop off).take 16) = some (TransportInfo.overlay data off) := by
    intro off
    rw [TransportInfo.unpack, split_slice data off (Nat.le_refl 16)]
    rfl
  have hframe : isFrame data ↔
      52 ≤ data.length ∧ field data 0 4 = magic ∧ field data 4 1 = version ∧ field data 5 1 = msgFrame := by
    simp only [isFrame, headed, Bool.and_eq_true, decide_eq_true_eq, beq_iff_eq, and_assoc]
  rw [parseFrame, hbase]
  by_cases hlen : data.length < 52
  · rw [if_pos hlen, if_neg fun h => Nat.not_le.mpr hlen (hframe.mp h).1]
  · rw [if_neg hlen]
    simp only [fields, frameBaseFmt, henc, htransport]
    by_cases hhead : field data 0 4 = magic ∧ field data 4 1 = version
    · rw [if_neg (by rintro (h | h); exacts [h hhead.1, h hhead.2])]
      by_cases htype : field data 5 1 = msgFrame
      · rw [if_neg (not_not_intro htype), if_pos (hframe.mpr ⟨Nat.not_lt.mp hlen, hhead.1, hhead.2, htype⟩)]
        rfl
      · rw [if_pos htype, if_neg fun h => htype (hframe.mp h).2.2.2]
    · rw [if_pos (by tauto), if_neg fun h => hhead ⟨(hframe.mp h).2.1, (hframe.mp h).2.2.1⟩]

/-! ## Round trip -/

/-- The three flags are read back from what they were set to. -/
theorem flagsOf_flags (keyframe enc transport : Bool) :
    (flagsOf keyframe enc transport &&& flagEncInfo ≠ 0 ↔ enc) ∧
      (flagsOf keyframe enc transport &&& flagTransportInfo ≠ 0 ↔ transport) := by
  cases keyframe <;> cases enc <;> cases transport <;> decide

/-- The encoder trailer behind the base, if its flag is set. -/
theorem unpack_enc {base : List UInt8} (hbase : base.length = 52) {flags : UInt8} {enc : Option EncInfo}
    (hflag : flags &&& flagEncInfo ≠ 0 ↔ enc.isSome) (tail : List UInt8) :
    (if flags &&& flagEncInfo ≠ 0 ∧ 64 ≤ (base ++ ((enc.elim [] fun e => pack e.fields) ++ tail)).length
      then EncInfo.unpack (((base ++ ((enc.elim [] fun e => pack e.fields) ++ tail)).drop 52).take 12) else none) = enc := by
  cases enc with
  | none => exact if_neg fun h => absurd (hflag.mp h.1) Bool.false_ne_true
  | some e =>
      have hlen : (pack e.fields).length = 12 := length_pack _
      rw [if_pos, List.drop_left' hbase]
      · show EncInfo.unpack ((pack e.fields ++ tail).take 12) = _
        rw [List.take_left' hlen, e.unpack_pack]
      · refine ⟨hflag.mpr rfl, ?_⟩
        show 64 ≤ (base ++ (pack e.fields ++ tail)).length
        rw [List.length_append, List.length_append, hbase, hlen]
        omega

/-- The transport trailer at its offset, if its flag is set. -/
theorem unpack_transport {front : List UInt8} {off : ℕ} (hfront : front.length = off) {flags : UInt8}
    {transport : Option TransportInfo} (hflag : flags &&& flagTransportInfo ≠ 0 ↔ transport.isSome) (rest : List UInt8) :
    (if flags &&& flagTransportInfo ≠ 0 ∧ off + 16 ≤ (front ++ ((transport.elim [] fun t => pack t.fields) ++ rest)).length
      then TransportInfo.unpack (((front ++ ((transport.elim [] fun t => pack t.fields) ++ rest)).drop off).take 16)
      else none) = transport := by
  cases transport with
  | none => exact if_neg fun h => absurd (hflag.mp h.1) Bool.false_ne_true
  | some t =>
      have hlen : (pack t.fields).length = 16 := length_pack _
      rw [if_pos, List.drop_left' hfront]
      · show TransportInfo.unpack ((pack t.fields ++ rest).take 16) = _
        rw [List.take_left' hlen, t.unpack_pack]
      · refine ⟨hflag.mpr rfl, ?_⟩
        show off + 16 ≤ (front ++ (pack t.fields ++ rest)).length
        rw [List.length_append, List.length_append, hfront, hlen]
        omega

/-- Every frame is read back as it was written, whichever trailers it has and whatever follows. -/
theorem parseFrame_pack (b : Base) (keyframe : Bool) (enc : Option EncInfo) (transport : Option TransportInfo)
    (rest : List UInt8) :
    parseFrame (packFrameFull b keyframe enc transport ++ rest) =
      some { toBase := b, flags := flagsOf keyframe enc.isSome transport.isSome, enc, transport } := by
  set flags := flagsOf keyframe enc.isSome transport.isSome with hflags
  obtain ⟨hencFlag, htransportFlag⟩ := flagsOf_flags keyframe enc.isSome transport.isSome
  rw [← hflags] at hencFlag htransportFlag
  have hbase : (pack (b.fields flags)).length = 52 := length_pack _
  have hsplit : split frameBaseFmt (pack (b.fields flags)) = (b.fields flags).map Prod.snd := split_pack_self (b.fits flags)
  -- the same bytes, seen from the front of the encoder trailer and from the end of it
  set data := packFrameFull b keyframe enc transport ++ rest with hdata
  have hshape : data = pack (b.fields flags) ++ ((enc.elim [] fun e => pack e.fields) ++
      ((transport.elim [] fun t => pack t.fields) ++ rest)) := by
    rw [hdata, packFrameFull, List.append_assoc, List.append_assoc]
  have hfront : (pack (b.fields flags) ++ enc.elim [] fun e => pack e.fields).length =
      52 + if flags &&& flagEncInfo ≠ 0 then 12 else 0 := by
    rw [List.length_append, hbase]
    cases enc with
    | none => rw [if_neg (hencFlag.not.mpr Bool.false_ne_true)]; rfl
    | some e => rw [if_pos (hencFlag.mpr rfl)]; exact congrArg (52 + ·) (length_pack _)
  have hlen : 52 ≤ data.length := by
    rw [hshape, List.length_append, hbase]
    omega
  have henc := unpack_enc hbase hencFlag ((transport.elim [] fun t => pack t.fields) ++ rest)
  have htransport := unpack_transport hfront htransportFlag rest
  rw [← hshape] at henc
  rw [List.append_assoc, ← hshape] at htransport
  have htake : data.take 52 = pack (b.fields flags) := by rw [hshape, List.take_left' hbase]
  rw [parseFrame, if_neg (Nat.not_lt.mpr hlen), htake, hsplit]
  simp only [Base.fields, List.map_cons, List.map_nil, ne_eq, not_true_eq_false, or_self, if_false, UInt8.ofNat_toNat,
    UInt16.ofNat_toNat, UInt32.ofNat_toNat, UInt64.ofNat_toNat] at henc htransport ⊢
  rw [henc, htransport]

theorem flagsOf_injective : ∀ keyframe keyframe' enc transport : Bool,
    flagsOf keyframe enc transport = flagsOf keyframe' enc transport → keyframe = keyframe' := by
  decide

/-- Every frame is read back as it was written; so no two frames look alike, whatever follows either. -/
theorem parseFrame_packFrameFull (b : Base) (keyframe : Bool) (enc : Option EncInfo) (transport : Option TransportInfo)
    (rest : List UInt8) :
    parseFrame (packFrameFull b keyframe enc transport ++ rest) =
        some { toBase := b, flags := flagsOf keyframe enc.isSome transport.isSome, enc, transport } ∧
      ∀ b' keyframe' enc' transport' rest',
        packFrameFull b' keyframe' enc' transport' ++ rest' = packFrameFull b keyframe enc transport ++ rest →
          b' = b ∧ keyframe' = keyframe ∧ enc' = enc ∧ transport' = transport ∧ rest' = rest := by
  refine ⟨parseFrame_pack b keyframe enc transport rest, fun b' keyframe' enc' transport' rest' heq => ?_⟩
  have hread := congrArg parseFrame heq
  rw [parseFrame_pack, parseFrame_pack] at hread
  obtain ⟨rfl, hflags, rfl, rfl⟩ : b' = b ∧ flagsOf keyframe' enc'.isSome transport'.isSome =
      flagsOf keyframe enc.isSome transport.isSome ∧ enc' = enc ∧ transport' = transport := by
    simpa using hread
  have hkeyframe : keyframe' = keyframe := flagsOf_injective keyframe' keyframe _ _ hflags
  subst hkeyframe
  exact ⟨rfl, rfl, rfl, rfl, List.append_cancel_left heq⟩

/-! ## The link controller -/

/-- The datagram the controller's handler overlays its structures on: what fits its buffer. -/
def toDgram (datagram : List UInt8) : SidecarDgram :=
  let buf := datagram.take 128
  let t := TransportInfo.overlay buf (transportOff (flagsAt buf))
  { len := buf.length
    isFrame := headed buf
    flagEncInfo := flagsAt buf &&& flagEncInfo ≠ 0
    flagTransportInfo := flagsAt buf &&& flagTransportInfo ≠ 0
    frameReadyUs := (Base.overlay buf).frameReadyUs.toNat
    frameSizeBytes := (EncInfo.overlay buf 52).frameSizeBytes.toNat
    transport := { fillPct := t.fillPct.toNat, inPressure := t.inPressure ≠ 0, pressureDrops := t.pressureDrops.toNat } }

/-- What a parsed frame tells the controller. -/
def Frame.dgram (f : Frame) : SidecarDgram where
  len := 52 + (if f.enc.isSome then 12 else 0) + if f.transport.isSome then 16 else 0
  isFrame := true
  flagEncInfo := f.enc.isSome
  flagTransportInfo := f.transport.isSome
  frameReadyUs := f.frameReadyUs.toNat
  frameSizeBytes := f.enc.elim 0 fun e => e.frameSizeBytes.toNat
  transport := f.transport.elim ⟨0, false, 0⟩ fun t => ⟨t.fillPct.toNat, t.inPressure ≠ 0, t.pressureDrops.toNat⟩

/-- Two datagrams the handler reads alike. -/
structure ReadAlike (d d' : SidecarDgram) : Prop where
  ready : d.frameReadyUs = d'.frameReadyUs
  hasTransport : d.hasTransport = d'.hasTransport
  transport : d.hasTransport → d.transport = d'.transport
  hasSize : d.hasSize = d'.hasSize
  size : d.hasSize → d.frameSizeBytes = d'.frameSizeBytes

namespace ReadAlike

variable {d d' : SidecarDgram}

theorem skipFec (h : ReadAlike d d') (s : Lc) : s.skipFec d = s.skipFec d' := by
  simp only [Lc.skipFec, ← h.hasTransport]
  cases htransport : d.hasTransport with
  | false => simp only [Bool.false_and]
  | true => rw [h.transport htransport]

theorem heard (h : ReadAlike d d') (s : Lc) (now : ℕ) : s.heard d now = s.heard d' now := by
  simp only [Lc.heard, Lc.readTransport, ← h.hasTransport, h.ready]
  cases htransport : d.hasTransport with
  | false => simp only [Bool.false_eq_true, if_false]
  | true => rw [h.transport htransport]

theorem sizeTick (h : ReadAlike d d') (s : Lc) (skip : Bool) (now : ℕ) (setFec venc : Bool) :
    s.sizeTick d skip now setFec venc = s.sizeTick d' skip now setFec venc := by
  simp only [Lc.sizeTick, ← h.hasSize]
  cases hsize : d.hasSize with
  | false => simp only [Bool.not_false, if_true]
  | true => rw [h.size hsize]

theorem sidecar (h : ReadAlike d d') {s : Lc} (hears : s.hears d = s.hears d') (now nowFec : ℕ) (setFec venc : Bool) :
    s.sidecar d now nowFec setFec venc = s.sidecar d' now nowFec setFec venc := by
  rw [Lc.sidecar, Lc.sidecar, hears, h.heard, h.skipFec]
  simp only [h.sizeTick]

end ReadAlike

/-! The buffer of 128 bytes holds every structure whole. -/

section Buffer

variable (datagram : List UInt8)

theorem overlay_take : Base.overlay (datagram.take 128) = Base.overlay datagram := by
  simp (disch := omega) only [Base.overlay, field_take]

theorem enc_overlay_take : EncInfo.overlay (datagram.take 128) 52 = EncInfo.overlay datagram 52 := by
  simp (disch := omega) only [EncInfo.overlay, field_take]

theorem flagsAt_take : flagsAt (datagram.take 128) = flagsAt datagram := by
  simp (disch := omega) only [flagsAt, field_take]

theorem transportOff_le (flags : UInt8) : transportOff flags ≤ 64 := by
  rw [transportOff]
  split <;> omega

theorem transport_overlay_take (flags : UInt8) :
    TransportInfo.overlay (datagram.take 128) (transportOff flags) = TransportInfo.overlay datagram (transportOff flags) := by
  have hoff := transportOff_le flags
  simp (disch := omega) only [TransportInfo.overlay, field_take]

theorem le_take {n : ℕ} (h : n ≤ 128) : n ≤ (datagram.take 128).length ↔ n ≤ datagram.length := by
  rw [List.length_take]
  omega

theorem isFrame_take : isFrame (datagram.take 128) = isFrame datagram := by
  simp (disch := omega) only [isFrame, headed, field_take, le_take]

end Buffer

/-- The handler hears the frames the reference codec parses. -/
theorem hears_toDgram (s : Lc) (datagram : List UInt8) : s.hears (toDgram datagram) = (s.sidecarOpen && isFrame datagram) := by
  have hlen : (!decide ((toDgram datagram).len < sidecarFrameLen)) = decide (52 ≤ (datagram.take 128).length) := by
    rw [← decide_not]
    exact decide_eq_decide.mpr Nat.not_lt
  rw [Lc.hears, hlen, ← isFrame_take, isFrame, Bool.and_assoc]
  rfl

theorem hasTransport_dgram (f : Frame) : f.dgram.hasTransport = f.transport.isSome := by
  obtain ⟨_, _, _, transport⟩ := f
  cases transport with
  | none => rfl
  | some t => exact decide_eq_true (Nat.le_refl _)

theorem hasSize_dgram (f : Frame) : f.dgram.hasSize = (f.enc.isSome && f.dgram.frameSizeBytes != 0) := by
  obtain ⟨_, _, enc, _⟩ := f
  cases enc with
  | none => rfl
  | some e => exact congrArg (· && _) (decide_eq_true (Nat.le_add_right ..))

theorem hasTransport_toDgram (datagram : List UInt8) :
    (toDgram datagram).hasTransport = (transportAt datagram).isSome := by
  have hoff := transportOff_le (flagsAt datagram)
  have hgate : sidecarFrameLen + (if (toDgram datagram).flagEncInfo then sidecarEncInfoLen else 0) + sidecarTransportLen ≤
      (toDgram datagram).len ↔ transportOff (flagsAt datagram) + 16 ≤ datagram.length := by
    rw [← le_take datagram (show transportOff (flagsAt datagram) + 16 ≤ 128 by omega)]
    simp only [toDgram, flagsAt_take, decide_eq_true_eq]
    exact Iff.rfl
  rw [SidecarDgram.hasTransport, decide_eq_decide.mpr hgate, Bool.eq_iff_iff, transportAt, Option.isSome_ite,
    Bool.and_eq_true, decide_eq_true_eq]
  simp only [toDgram, flagsAt_take, decide_eq_true_eq]

theorem hasSize_toDgram (datagram : List UInt8) :
    (toDgram datagram).hasSize = ((encAt datagram).isSome && (toDgram datagram).frameSizeBytes != 0) := by
  have hgate : sidecarFrameLen + sidecarEncInfoLen ≤ (toDgram datagram).len ↔ 64 ≤ datagram.length :=
    le_take datagram (by decide)
  have hflag : ((toDgram datagram).flagEncInfo && decide (64 ≤ datagram.length)) = (encAt datagram).isSome := by
    rw [Bool.eq_iff_iff, encAt, Option.isSome_ite, Bool.and_eq_true, decide_eq_true_eq]
    simp only [toDgram, flagsAt_take, decide_eq_true_eq]
  rw [SidecarDgram.hasSize, decide_eq_decide.mpr hgate, hflag]

/-- The handler reads a datagram as the reference codec parses it. -/
theorem toDgram_alike {datagram : List UInt8} {f : Frame} (h : parseFrame datagram = some f) :
    ReadAlike (toDgram datagram) f.dgram := by
  rw [parseFrame_overlay] at h
  obtain ⟨-, h⟩ := Option.ite_none_right_eq_some.mp h
  obtain rfl := Option.some.inj h
  have hsize : ∀ e, encAt datagram = some e → (toDgram datagram).frameSizeBytes = e.frameSizeBytes.toNat := by
    intro e he
    obtain ⟨-, he⟩ := Option.ite_none_right_eq_some.mp he
    rw [← Option.some.inj he]
    simp only [toDgram, enc_overlay_take]
  constructor
  · simp only [toDgram, overlay_take, Frame.dgram]
  · rw [hasTransport_toDgram, hasTransport_dgram]
  · intro htransport
    rw [hasTransport_toDgram] at htransport
    obtain ⟨t, ht⟩ := Option.isSome_iff_exists.mp htransport
    simp only [Frame.dgram, ht, Option.elim_some]
    obtain ⟨-, ht⟩ := Option.ite_none_right_eq_some.mp ht
    rw [← Option.some.inj ht]
    simp only [toDgram, flagsAt_take, transport_overlay_take]
  · rw [hasSize_toDgram, hasSize_dgram]
    cases henc : encAt datagram with
    | none => rfl
    | some e => simp only [hsize e henc, Frame.dgram, Option.elim_some]
  · intro hhas
    rw [hasSize_toDgram, Bool.and_eq_true] at hhas
    obtain ⟨e, henc⟩ := Option.isSome_iff_exists.mp hhas.1
    simp only [hsize e henc, Frame.dgram, henc, Option.elim_some]

/-- On every datagram the controller does what it does on the frame the reference codec parses from
it, and nothing on one that is no frame. -/
theorem sidecar_toDgram (s : Lc) (datagram : List UInt8) (now nowFec : ℕ) (setFec venc : Bool) :
    s.sidecar (toDgram datagram) now nowFec setFec venc =
      (parseFrame datagram).elim (s, []) fun f => s.sidecar f.dgram now nowFec setFec venc := by
  cases hparse : parseFrame datagram with
  | none =>
      have hno : isFrame datagram = false := by
        rw [parseFrame_overlay] at hparse
        by_contra hframe
        rw [Bool.not_eq_false] at hframe
        rw [if_pos hframe] at hparse
        exact absurd hparse (by simp)
      rw [Lc.sidecar, hears_toDgram, hno, Bool.and_false]
      rfl
  | some f =>
      have hyes : isFrame datagram = true := by
        rw [parseFrame_overlay] at hparse
        by_contra hframe
        rw [if_neg hframe] at hparse
        exact absurd hparse (by simp)
      refine (toDgram_alike hparse).sidecar ?_ now nowFec setFec venc
      have hlen : ¬ f.dgram.len < sidecarFrameLen := by
        simp only [Frame.dgram, sidecarFrameLen]
        omega
      rw [hears_toDgram, hyes, Lc.hears, decide_eq_false hlen, Bool.not_false, Bool.and_true]
      exact (Bool.and_true _).symm

end Waybeam.Sidecar
