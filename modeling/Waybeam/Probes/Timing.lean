/-
# `Waybeam.Probes.Timing` — the RTP and sidecar timing probe

A tool on the ground reads two sockets.  RTP packets are gathered into frames up to the marker
bit, and each finished frame is printed as one row.  The sidecar socket brings what venc says
about its frames, kept in a direct-mapped cache until the row is due, and the answers of the
clock synchronisation:

    probe  t1 ── SYNC_REQ ──▶  t2  venc
    probe  t4 ◀── SYNC_RESP ── t3  venc        rtt = (t4 - t1) - (t3 - t2)
                                               offset = ((t2 - t1) + (t3 - t4)) / 2

The offset in use is that of the exchange with the smallest rtt among the last eight.  A turn of
the main loop is the two timers, then at most one datagram of each socket; an event is one of
the three, and a run is any sequence of events.
-/
import Waybeam.Link.Sidecar
import Waybeam.Ring

namespace Waybeam.Probes

open Packed Sidecar

/-- `(int64_t)x` of a `uint64_t`. -/
def i64 (x : ℕ) : ℤ := Int.bmod x (2 ^ 64)

def subscribeIntervalUs : ℕ := 2 * 1000000

def syncBurstIntervalUs : ℕ := 200 * 1000

def syncCoastIntervalUs : ℕ := 10 * 1000000

def syncBurstCount : ℕ := 8

def maxPkt : ℕ := 2048

def msgSyncResp : ℕ := 4

/-! ## RTP -/

structure RtpHdr where
  mPt : UInt8
  seq : UInt16
  timestamp : UInt32
  ssrc : UInt32
  deriving DecidableEq, Repr

/-- The marker bit ends a frame. -/
def RtpHdr.marker (h : RtpHdr) : Bool := (h.mPt >>> 7) &&& 1 ≠ 0

/-- `rtp_parse`: twelve bytes of version 2. -/
def rtpParse (buf : List UInt8) : Option RtpHdr :=
  if buf.length < 12 ∨ UInt8.ofNat (field buf 0 1) >>> 6 ≠ 2 then none
  else
    some {
      mPt := .ofNat (field buf 1 1), seq := .ofNat (field buf 2 2)
      timestamp := .ofNat (field buf 4 4), ssrc := .ofNat (field buf 8 4) }

/-! ## The cache of sidecar frames -/

structure CacheEntry where
  ssrc : UInt32
  rtpTs : UInt32
  frameId : UInt64
  captureUs : UInt64
  frameReadyUs : UInt64
  lastPktSendUs : UInt64
  seqFirst : UInt16
  seqCount : UInt16
  /-- zeros without `hasEncInfo` -/
  enc : EncInfo
  hasEncInfo : Bool
  metaRecvUs : ℕ
  deriving DecidableEq, Repr

/-- The slot of a frame; the cache has 64. -/
def cacheSlot (ssrc rtpTs : UInt32) : UInt32 := (ssrc ^^^ rtpTs) &&& 63

/-- An empty slot is one that is not `valid`. -/
abbrev Cache := UInt32 → Option CacheEntry

/-- What `cache_store_frame` keeps of a message. -/
def cacheEntry (buf : List UInt8) (recvUs : ℕ) : CacheEntry :=
  let wire := Base.overlay buf
  let ext := flagsAt buf &&& flagEncInfo ≠ 0 ∧ 64 ≤ buf.length
  { ssrc := wire.ssrc, rtpTs := wire.rtpTimestamp, frameId := wire.frameId, captureUs := wire.captureUs
    frameReadyUs := wire.frameReadyUs, lastPktSendUs := wire.lastPktSendUs
    seqFirst := wire.seqFirst, seqCount := wire.seqCount
    enc := if ext then EncInfo.overlay buf 52 else ⟨0, 0, 0, 0, 0, 0, 0, 0⟩
    hasEncInfo := ext, metaRecvUs := recvUs }

/-- `cache_store_frame`: the slot is overwritten, whatever it held. -/
def Cache.store (c : Cache) (e : CacheEntry) : Cache := Function.update c (cacheSlot e.ssrc e.rtpTs) (some e)

/-- `cache_lookup`: the slot must hold that very frame. -/
def Cache.lookup (c : Cache) (ssrc rtpTs : UInt32) : Option CacheEntry :=
  (c (cacheSlot ssrc rtpTs)).filter fun e => e.ssrc = ssrc ∧ e.rtpTs = rtpTs

/-! ## Frames -/

structure FrameAccum where
  ssrc : UInt32
  rtpTs : UInt32
  seqFirst : UInt16
  seqLast : UInt16
  gaps : UInt32
  recvFirstUs : ℕ
  recvLastUs : ℕ
  deriving DecidableEq, Repr

/-- The first packet of a frame. -/
def FrameAccum.start (h : RtpHdr) (recvTs : ℕ) : FrameAccum where
  ssrc := h.ssrc
  rtpTs := h.timestamp
  seqFirst := h.seq
  seqLast := h.seq
  gaps := 0
  recvFirstUs := recvTs
  recvLastUs := recvTs

/-- A further packet; the forward distance to it, less one, was missed. -/
def FrameAccum.add (fa : FrameAccum) (h : RtpHdr) (recvTs : ℕ) : FrameAccum :=
  let expected := fa.seqLast + 1
  { fa with
    gaps := if h.seq ≠ expected then fa.gaps + (h.seq - expected).toUInt32 else fa.gaps
    seqLast := h.seq, recvLastUs := recvTs }

/-! ## Clock synchronisation -/

/-- `SyncState`; a sample is an rtt and an offset, `best` is none until `valid`, and
`pendingT1 = 0` is no outstanding request. -/
structure SyncState where
  samples : Ring 8 (ℤ × ℤ) := Ring.empty 8 (by decide) (0, 0)
  best : Option ℤ := none
  pendingT1 : ℕ := 0

/-- The first sample of the smallest rtt, in the order of the slots. -/
def minSample (r : Ring 8 (ℤ × ℤ)) : ℤ × ℤ :=
  (List.range' 1 (r.count - 1)).foldl (fun m j => if (r.slots j).1 < m.1 then r.slots j else m) (r.slots 0)

/-- The sample of one exchange. -/
def sample (t1 t2 t3 t4 : ℕ) : ℤ × ℤ :=
  (i64 (sub64 t4 t1) - i64 (sub64 t3 t2), (i64 (sub64 t2 t1) + i64 (sub64 t3 t4)).tdiv 2)

/-- `sync_record`. -/
def SyncState.record (ss : SyncState) (t1 t2 t3 t4 : ℕ) : SyncState :=
  let samples := ss.samples.push (sample t1 t2 t3 t4)
  { ss with samples, best := some (minSample samples).2 }

/-! ## Statistics -/

/-- `StatAcc`: Welford's running mean and sum of squared deviations. -/
structure StatAcc where
  count : ℕ := 0
  min : ℕ := 2 ^ 64 - 1
  max : ℕ := 0
  m2 : ℚ := 0
  mean : ℚ := 0

/-- `stat_add`. -/
def StatAcc.add (s : StatAcc) (v : ℕ) : StatAcc :=
  let count := s.count + 1
  let delta := (v : ℚ) - s.mean
  let mean := s.mean + delta / count
  { count, mean
    min := if v < s.min then v else s.min
    max := if s.max < v then v else s.max
    m2 := s.m2 + delta * ((v : ℚ) - mean) }

structure ProbeStats where
  enabled : Bool := false
  firstFrameUs : ℕ := 0
  lastFrameUs : ℕ := 0
  frames : ℕ := 0
  totalRtpPkts : ℕ := 0
  totalGaps : ℕ := 0
  sidecarMetaRx : ℕ := 0
  sidecarMetaRxBytes : ℕ := 0
  sidecarSubTx : ℕ := 0
  sidecarSyncTx : ℕ := 0
  sidecarSyncRx : ℕ := 0
  senderIvl : StatAcc := {}
  recvIvl : StatAcc := {}
  sendSpread : StatAcc := {}
  encodeDur : StatAcc := {}
  spreadVals : List ℕ := []

/-! ## The probe -/

structure Probe where
  fa : Option FrameAccum := none
  ss : SyncState := {}
  cache : Cache := fun _ => none
  ps : ProbeStats := {}
  frameNo : ℕ := 0
  prevFrameReady : ℕ := 0
  prevRecvFirst : ℕ := 0
  lastSubscribe : ℕ := 0
  lastSync : ℕ := 0

/-- A row: the columns that are zero, or absent, print as `-`. -/
structure Row where
  frameNo : ℕ
  fa : FrameAccum
  ce : Option CacheEntry
  senderIvl : ℕ
  recvIvl : ℕ
  encodeDur : ℕ
  sendSpread : ℕ
  latency : Option ℤ

inductive Obs where
  | subscribe
  | syncReq (t1 : ℕ)
  /-- an answer was accepted; its rtt is logged -/
  | synced (rtt : ℤ)
  | row (r : Row)

inductive Event where
  /-- the timers, at `now`; `t1` is the clock when a request is stamped -/
  | timers (now t1 : ℕ)
  | sidecar (datagram : List UInt8) (recvTs : ℕ)
  | rtp (datagram : List UInt8) (recvTs : ℕ)

namespace CacheEntry

def encodeDur (e : CacheEntry) : ℕ :=
  if e.captureUs ≠ 0 ∧ e.captureUs < e.frameReadyUs then e.frameReadyUs.toNat - e.captureUs.toNat else 0

def sendSpread (e : CacheEntry) : ℕ :=
  if e.lastPktSendUs ≠ 0 ∧ e.frameReadyUs < e.lastPktSendUs then e.lastPktSendUs.toNat - e.frameReadyUs.toNat else 0

end CacheEntry

namespace Probe

/-- `emit_frame`. -/
def emitFrame (p : Probe) (fa : FrameAccum) (ce : Option CacheEntry) : Row where
  frameNo := p.frameNo
  fa := fa
  ce := ce
  senderIvl := ce.elim 0 fun e => if p.prevFrameReady ≠ 0 then sub64 e.frameReadyUs.toNat p.prevFrameReady else 0
  recvIvl := if p.prevRecvFirst ≠ 0 then sub64 fa.recvFirstUs p.prevRecvFirst else 0
  encodeDur := ce.elim 0 CacheEntry.encodeDur
  sendSpread := ce.elim 0 CacheEntry.sendSpread
  latency := ce.bind fun e => p.ss.best.map fun best => i64 fa.recvLastUs - (i64 e.frameReadyUs.toNat - best)

/-- A duration of zero is none. -/
def statPos (s : StatAcc) (v : ℕ) : StatAcc := if v = 0 then s else s.add v

/-- What the statistics take from the metadata of a frame. -/
def addMeta (p : Probe) (ps : ProbeStats) (e : CacheEntry) : ProbeStats :=
  { ps with
    senderIvl :=
      if p.prevFrameReady ≠ 0 ∧ p.prevFrameReady < e.frameReadyUs.toNat
      then ps.senderIvl.add (e.frameReadyUs.toNat - p.prevFrameReady) else ps.senderIvl
    encodeDur := statPos ps.encodeDur e.encodeDur
    sendSpread := statPos ps.sendSpread e.sendSpread
    spreadVals := if e.sendSpread = 0 then ps.spreadVals else ps.spreadVals ++ [e.sendSpread] }

/-- The statistics of a finished frame. -/
def addFrame (p : Probe) (fa : FrameAccum) (ce : Option CacheEntry) : ProbeStats :=
  let ps := { p.ps with
    firstFrameUs := if p.ps.firstFrameUs = 0 then fa.recvFirstUs else p.ps.firstFrameUs
    lastFrameUs := fa.recvLastUs
    frames := p.ps.frames + 1
    totalRtpPkts := p.ps.totalRtpPkts + ((fa.seqLast - fa.seqFirst).toNat + 1)
    totalGaps := p.ps.totalGaps + fa.gaps.toNat }
  let ps := ce.elim ps (p.addMeta ps)
  { ps with
    recvIvl :=
      if p.prevRecvFirst ≠ 0 ∧ p.prevRecvFirst < fa.recvFirstUs
      then ps.recvIvl.add (fa.recvFirstUs - p.prevRecvFirst) else ps.recvIvl }

/-- The marker: print the row, count it, and start over. -/
def finish (p : Probe) (fa : FrameAccum) : Probe × List Obs :=
  let ce := p.cache.lookup fa.ssrc fa.rtpTs
  ({ p with
      fa := none
      ps := if p.ps.enabled then p.addFrame fa ce else p.ps
      frameNo := p.frameNo + 1
      prevFrameReady := ce.elim p.prevFrameReady fun e => e.frameReadyUs.toNat
      prevRecvFirst := fa.recvFirstUs },
    [.row (p.emitFrame fa ce)])

/-- An RTP datagram. -/
def rtp (p : Probe) (buf : List UInt8) (recvTs : ℕ) : Probe × List Obs :=
  match rtpParse buf with
  | none => (p, [])
  | some h =>
      let fa := p.fa.elim (FrameAccum.start h recvTs) fun fa => fa.add h recvTs
      if h.marker then p.finish fa else ({ p with fa := some fa }, [])

/-- An answer to the outstanding request; any other one is dropped. -/
def syncResp (p : Probe) (t1 t2 t3 recvTs : ℕ) : Probe × List Obs :=
  if t1 = p.ss.pendingT1 then
    ({ p with
        ss := { p.ss.record t1 t2 t3 recvTs with pendingT1 := 0 }
        ps := { p.ps with sidecarSyncRx := p.ps.sidecarSyncRx + 1 } },
      [.synced (sample t1 t2 t3 recvTs).1])
  else (p, [])

/-- A sidecar datagram. -/
def sidecar (p : Probe) (buf : List UInt8) (recvTs : ℕ) : Probe × List Obs :=
  if 6 ≤ buf.length ∧ field buf 0 4 = magic ∧ field buf 4 1 = version then
    if field buf 5 1 = msgFrame ∧ 52 ≤ buf.length then
      ({ p with
          cache := p.cache.store (cacheEntry buf recvTs)
          ps := { p.ps with
            sidecarMetaRx := p.ps.sidecarMetaRx + 1
            sidecarMetaRxBytes := p.ps.sidecarMetaRxBytes + buf.length } }, [])
    else if field buf 5 1 = msgSyncResp ∧ 32 ≤ buf.length ∧ p.ss.pendingT1 ≠ 0 then
      p.syncResp (field buf 8 8) (field buf 16 8) (field buf 24 8) recvTs
    else (p, [])
  else (p, [])

/-- `send_subscribe` is due. -/
def subscribe (p : Probe) (now : ℕ) : Probe × List Obs :=
  if subscribeIntervalUs ≤ sub64 now p.lastSubscribe then
    ({ p with lastSubscribe := now, ps := { p.ps with sidecarSubTx := p.ps.sidecarSubTx + 1 } }, [.subscribe])
  else (p, [])

/-- `send_sync_req` is due; a new request replaces the outstanding one. -/
def sync (p : Probe) (now t1 : ℕ) : Probe × List Obs :=
  let ivl := if p.ss.samples.count < syncBurstCount then syncBurstIntervalUs else syncCoastIntervalUs
  if ivl ≤ sub64 now p.lastSync then
    ({ p with
        ss := { p.ss with pendingT1 := t1 }, lastSync := now
        ps := { p.ps with sidecarSyncTx := p.ps.sidecarSyncTx + 1 } }, [.syncReq t1])
  else (p, [])

def step (p : Probe) : Event → Probe × List Obs
  | .timers now t1 => andThen (p.subscribe now) fun p => p.sync now t1
  | .sidecar datagram recvTs => p.sidecar (datagram.take maxPkt) recvTs
  | .rtp datagram recvTs => p.rtp (datagram.take maxPkt) recvTs

end Probe

def machine : Machine Probe Event Obs := ⟨Probe.step⟩

end Waybeam.Probes
