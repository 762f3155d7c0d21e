/-
# `Waybeam.Probes.Rows` — what a row of the timing probe says

`Seen` is what an observer of both sockets has seen: the frame messages so far, newest first,
and the packets since the last marker.  The probe keeps of it a cache of 64 slots and one
accumulator, and yet every row it prints is a statement about the observer's lists: the first
and last packet of the frame, what was missed between them, and the newest message in the
frame's slot if that is a message of this frame.
-/
import Mathlib.Data.List.Induction
import Waybeam.Probes.Timing

namespace Waybeam.Probes

open Packed Sidecar

/-! ## Sequence numbers -/

/-- What lies between each element and the next. -/
def between {α β : Type} (f : α → α → List β) : List α → List β
  | a :: b :: l => f a b ++ between f (b :: l)
  | _ => []

theorem between_append {α β : Type} (f : α → α → List β) {l : List α} {a : α} (h : l.getLast? = some a) (b : α) :
    between f (l ++ [b]) = between f l ++ f a b := by
  induction l with
  | nil => exact absurd h (by simp)
  | cons c l ih =>
      cases l with
      | nil =>
          obtain rfl := Option.some.inj h
          exact List.append_nil _
      | cons d l =>
          rw [List.getLast?_cons_cons] at h
          exact (congrArg (f c d ++ ·) (ih h)).trans (List.append_assoc ..).symm

/-- How many numbers were skipped from each packet to the next. -/
def missed (l : List UInt16) : List UInt16 := between (fun a b => [b - (a + 1)]) l

/-- From the first packet to the last, received and missed numbers make up the span, modulo
`2^16`. -/
theorem span_mod {l : List UInt16} {a z : UInt16} (ha : l.head? = some a) (hz : l.getLast? = some z) :
    ((z - a).toNat + 1) % 2 ^ 16 = (l.length + ((missed l).map UInt16.toNat).sum) % 2 ^ 16 := by
  induction l generalizing a with
  | nil => exact absurd ha (by simp)
  | cons c l ih =>
      obtain rfl := Option.some.inj ha
      cases l with
      | nil =>
          obtain rfl := Option.some.inj hz
          simp [missed, between]
      | cons b l =>
          rw [List.getLast?_cons_cons] at hz
          have hrest := ih rfl hz
          have hstep : (z - c).toNat = ((z - b).toNat + ((b - (c + 1)).toNat + 1)) % 2 ^ 16 := by
            have := z.toNat_lt; have := b.toNat_lt; have := c.toNat_lt
            have hone : (1 : UInt16).toNat = 1 := rfl
            simp only [UInt16.toNat_sub, UInt16.toNat_add]
            omega
          simp only [missed, between, List.singleton_append, List.map_cons, List.sum_cons, List.length_cons] at hrest ⊢
          omega

/-- Packets that arrive in order are the span less what was missed. -/
theorem span_ordered {l : List UInt16} {a z : UInt16} (s : UInt16) (ha : l.head? = some a) (hz : l.getLast? = some z)
    (hsorted : (l.map fun q => (q - s).toNat).Pairwise (· < ·)) :
    (z - s).toNat + 1 = (a - s).toNat + l.length + ((missed l).map UInt16.toNat).sum := by
  induction l generalizing a with
  | nil => exact absurd ha (by simp)
  | cons c l ih =>
      obtain rfl := Option.some.inj ha
      cases l with
      | nil =>
          obtain rfl := Option.some.inj hz
          simp [missed, between]
      | cons b l =>
          rw [List.getLast?_cons_cons] at hz
          rw [List.map_cons, List.pairwise_cons] at hsorted
          have hrest := ih rfl hz hsorted.2
          have hlt : (c - s).toNat < (b - s).toNat := hsorted.1 _ (List.mem_map_of_mem List.mem_cons_self)
          have hstep : (b - (c + 1)).toNat + 1 + (c - s).toNat = (b - s).toNat := by
            have := s.toNat_lt; have := b.toNat_lt; have := c.toNat_lt
            have hone : (1 : UInt16).toNat = 1 := rfl
            simp only [UInt16.toNat_sub, UInt16.toNat_add] at hlt ⊢
            omega
          simp only [missed, between, List.singleton_append, List.map_cons, List.sum_cons, List.length_cons] at hrest ⊢
          omega

/-! ## Frames -/

/-- A packet and when it was received. -/
abbrev Packet := RtpHdr × ℕ

/-- The sequence numbers of some packets. -/
def seqs (ps : List Packet) : List UInt16 := ps.map fun p => p.1.seq

/-- The accumulator of these packets. -/
structure Describes (ps : List Packet) (fa : FrameAccum) : Prop where
  first : ps.head?.map (fun p => (p.1.ssrc, p.1.timestamp, p.2)) = some (fa.ssrc, fa.rtpTs, fa.recvFirstUs)
  last : ps.getLast?.map (fun p => p.2) = some fa.recvLastUs
  seqFirst : (seqs ps).head? = some fa.seqFirst
  seqLast : (seqs ps).getLast? = some fa.seqLast
  gaps : fa.gaps.toNat = ((missed (seqs ps)).map UInt16.toNat).sum % 2 ^ 32

theorem describes_start (h : RtpHdr) (recvTs : ℕ) : Describes [(h, recvTs)] (FrameAccum.start h recvTs) :=
  ⟨rfl, rfl, rfl, rfl, rfl⟩

theorem Describes.add {ps : List Packet} {fa : FrameAccum} (hd : Describes ps fa) (h : RtpHdr) (recvTs : ℕ) :
    Describes (ps ++ [(h, recvTs)]) (fa.add h recvTs) := by
  obtain ⟨p, ps, rfl⟩ : ∃ p ps', ps = p :: ps' := by
    cases ps with
    | nil => exact absurd hd.seqFirst (by simp [seqs])
    | cons p ps => exact ⟨p, ps, rfl⟩
  have hseqs : seqs (p :: ps ++ [(h, recvTs)]) = seqs (p :: ps) ++ [h.seq] := List.map_append
  constructor
  · exact hd.first
  · rw [List.getLast?_concat]
    rfl
  · exact hd.seqFirst
  · rw [hseqs, List.getLast?_concat]
    rfl
  · have hgaps := hd.gaps
    rw [hseqs, missed, between_append _ hd.seqLast, ← missed, List.map_append, List.sum_append]
    simp only [List.map_cons, List.map_nil, List.sum_cons, List.sum_nil, Nat.add_zero, FrameAccum.add]
    split
    · rw [UInt32.toNat_add, hgaps, UInt16.toNat_toUInt32]
      omega
    · next heq =>
        rw [not_not] at heq
        rw [hgaps, heq, UInt16.sub_self]
        rfl

/-- The span a row shows is its packets and its gaps, modulo `2^16`. -/
theorem Describes.span_mod {ps : List Packet} {fa : FrameAccum} (hd : Describes ps fa) :
    ((fa.seqLast - fa.seqFirst).toNat + 1) % 2 ^ 16 = (ps.length + fa.gaps.toNat) % 2 ^ 16 := by
  have hspan := Probes.span_mod hd.seqFirst hd.seqLast
  have hgaps := hd.gaps
  rw [seqs, List.length_map, ← seqs] at hspan
  omega

/-- In order, they are the span exactly. -/
theorem Describes.span_ordered {ps : List Packet} {fa : FrameAccum} (hd : Describes ps fa)
    (hsorted : ((seqs ps).map fun q => (q - fa.seqFirst).toNat).Pairwise (· < ·)) :
    (fa.seqLast - fa.seqFirst).toNat + 1 = ps.length + fa.gaps.toNat := by
  have hspan := Probes.span_ordered fa.seqFirst hd.seqFirst hd.seqLast hsorted
  have hgaps := hd.gaps
  have hbound := (fa.seqLast - fa.seqFirst).toNat_lt
  have hzero : (fa.seqFirst - fa.seqFirst).toNat = 0 := by
    rw [UInt16.sub_self]
    rfl
  have hlen : (seqs ps).length = ps.length := List.length_map ..
  omega

/-! ## The observer -/

/-- What both sockets have brought. -/
structure Seen where
  /-- the frame messages, newest first -/
  stored : List CacheEntry := []
  /-- the packets since the last marker -/
  packets : List Packet := []

/-- What the cache keeps of a parsed frame. -/
def CacheEntry.ofFrame (f : Frame) (recvUs : ℕ) : CacheEntry where
  ssrc := f.ssrc
  rtpTs := f.rtpTimestamp
  frameId := f.frameId
  captureUs := f.captureUs
  frameReadyUs := f.frameReadyUs
  lastPktSendUs := f.lastPktSendUs
  seqFirst := f.seqFirst
  seqCount := f.seqCount
  enc := f.enc.getD ⟨0, 0, 0, 0, 0, 0, 0, 0⟩
  hasEncInfo := f.enc.isSome
  metaRecvUs := recvUs

def Seen.next (g : Seen) : Event → Seen
  | .timers .. => g
  | .sidecar datagram recvTs =>
      (parseFrame (datagram.take maxPkt)).elim g fun f => { g with stored := .ofFrame f recvTs :: g.stored }
  | .rtp datagram recvTs =>
      (rtpParse (datagram.take maxPkt)).elim g fun h =>
        { g with packets := if h.marker then [] else g.packets ++ [(h, recvTs)] }

/-- What the sockets have brought over a run. -/
def seen (es : List Event) : Seen := es.foldl Seen.next {}

def CacheEntry.slot (e : CacheEntry) : UInt32 := cacheSlot e.ssrc e.rtpTs

/-- The probe's tables are those of the observer's lists. -/
structure Tracks (p : Probe) (g : Seen) : Prop where
  frame : ∀ fa, p.fa = some fa → Describes g.packets fa
  idle : p.fa = none → g.packets = []
  cache : ∀ slot, p.cache slot = g.stored.find? fun e => e.slot = slot

/-! ## One step -/

/-- The cache keeps a message as the reference codec parses it. -/
theorem cacheEntry_eq {buf : List UInt8} {f : Frame} (h : parseFrame buf = some f) (recvUs : ℕ) :
    cacheEntry buf recvUs = .ofFrame f recvUs := by
  rw [parseFrame_overlay] at h
  obtain ⟨-, h⟩ := Option.ite_none_right_eq_some.mp h
  obtain rfl := Option.some.inj h
  simp only [cacheEntry, CacheEntry.ofFrame, encAt]
  by_cases hext : flagsAt buf &&& flagEncInfo ≠ 0 ∧ 64 ≤ buf.length
  · simp only [if_pos hext, decide_eq_true hext, Option.getD_some, Option.isSome_some]
  · simp only [if_neg hext, decide_eq_false hext, Option.getD_none, Option.isSome_none]

/-- The answer of venc to a synchronisation request. -/
def isSyncResp (buf : List UInt8) : Prop :=
  32 ≤ buf.length ∧ field buf 0 4 = magic ∧ field buf 4 1 = version ∧ field buf 5 1 = msgSyncResp

/-- Only the counters of the sidecar socket changed. -/
def Recounted (ps ps' : ProbeStats) : Prop :=
  ∃ metaRx metaRxBytes subTx syncTx syncRx, ps' = { ps with
    sidecarMetaRx := metaRx, sidecarMetaRxBytes := metaRxBytes
    sidecarSubTx := subTx, sidecarSyncTx := syncTx, sidecarSyncRx := syncRx }

namespace Probe

/-- A sidecar datagram is a frame message, the answer to the outstanding request, or nothing. -/
theorem sidecar_cases (p : Probe) (buf : List UInt8) (recvTs : ℕ) :
    (∃ f, parseFrame buf = some f ∧ ∃ ps, Recounted p.ps ps ∧ p.sidecar buf recvTs =
        ({ p with cache := p.cache.store (.ofFrame f recvTs), ps }, [])) ∨
      (parseFrame buf = none ∧ p.sidecar buf recvTs = (p, [])) ∨
      (parseFrame buf = none ∧ isSyncResp buf ∧ p.ss.pendingT1 = field buf 8 8 ∧ ∃ ps, Recounted p.ps ps ∧
        p.sidecar buf recvTs =
        ({ p with
            ss := { p.ss.record (field buf 8 8) (field buf 16 8) (field buf 24 8) recvTs with pendingT1 := 0 }, ps },
          [.synced (sample (field buf 8 8) (field buf 16 8) (field buf 24 8) recvTs).1])) := by
  have hparse := parseFrame_overlay buf
  have hframe : isFrame buf ↔
      52 ≤ buf.length ∧ field buf 0 4 = magic ∧ field buf 4 1 = version ∧ field buf 5 1 = msgFrame := by
    simp only [isFrame, headed, Bool.and_eq_true, decide_eq_true_eq, beq_iff_eq, and_assoc]
  rw [sidecar]
  split
  · next hhead =>
      split
      · next htype =>
          rw [if_pos (hframe.mpr ⟨htype.2, hhead.2.1, hhead.2.2, htype.1⟩)] at hparse
          exact .inl ⟨_, hparse, _, ⟨_, _, _, _, _, rfl⟩, by rw [cacheEntry_eq hparse]⟩
      · next htype =>
          rw [if_neg fun hf => htype ⟨(hframe.mp hf).2.2.2, (hframe.mp hf).1⟩] at hparse
          split
          · next hresp =>
              rw [syncResp]
              split
              · next hmatch =>
                  exact .inr (.inr ⟨hparse, ⟨hresp.2.1, hhead.2.1, hhead.2.2, hresp.1⟩, hmatch.symm, _,
                    ⟨_, _, _, _, _, rfl⟩, rfl⟩)
              · exact .inr (.inl ⟨hparse, rfl⟩)
          · exact .inr (.inl ⟨hparse, rfl⟩)
  · next hhead =>
      rw [if_neg fun hf => hhead ⟨by have := (hframe.mp hf).1; omega, (hframe.mp hf).2.1, (hframe.mp hf).2.2.1⟩] at hparse
      exact .inr (.inl ⟨hparse, rfl⟩)

/-- The timers send what is due, and note it. -/
theorem timers_cases (p : Probe) (now t1 : ℕ) :
    ∃ os, (os = [] ∨ os = [.subscribe]) ∧ ∃ ls ps, Recounted p.ps ps ∧
      (p.step (.timers now t1) = ({ p with lastSubscribe := ls, ps }, os) ∨
        p.step (.timers now t1) =
          ({ p with ss := { p.ss with pendingT1 := t1 }, lastSubscribe := ls, lastSync := now, ps }, os ++ [.syncReq t1])) := by
  have hsub : ∃ os, (os = [] ∨ os = [.subscribe]) ∧ ∃ ls n, p.subscribe now =
      ({ p with lastSubscribe := ls, ps := { p.ps with sidecarSubTx := n } }, os) := by
    rw [subscribe]
    split
    · exact ⟨_, .inr rfl, _, _, rfl⟩
    · exact ⟨_, .inl rfl, p.lastSubscribe, p.ps.sidecarSubTx, rfl⟩
  obtain ⟨os, hos, ls, n, heq⟩ := hsub
  refine ⟨os, hos, ls, ?_⟩
  rw [step, heq, andThen, sync]
  dsimp only
  by_cases hdue : (if p.ss.samples.count < syncBurstCount then syncBurstIntervalUs else syncCoastIntervalUs) ≤
      sub64 now p.lastSync
  · rw [if_pos hdue]
    exact ⟨_, ⟨_, _, _, _, _, rfl⟩, .inr rfl⟩
  · rw [if_neg hdue, List.append_nil]
    exact ⟨_, ⟨_, _, _, _, _, rfl⟩, .inl rfl⟩

/-- The accumulator with one more packet. -/
def extended (p : Probe) (h : RtpHdr) (recvTs : ℕ) : FrameAccum :=
  p.fa.elim (FrameAccum.start h recvTs) fun fa => fa.add h recvTs

/-- An RTP datagram is no packet, ends a frame, or extends it. -/
theorem rtp_cases (p : Probe) (buf : List UInt8) (recvTs : ℕ) :
    (rtpParse buf = none ∧ p.rtp buf recvTs = (p, [])) ∨
      (∃ h, rtpParse buf = some h ∧ h.marker = true ∧ p.rtp buf recvTs = p.finish (p.extended h recvTs)) ∨
      (∃ h, rtpParse buf = some h ∧ h.marker = false ∧
        p.rtp buf recvTs = ({ p with fa := some (p.extended h recvTs) }, [])) := by
  rw [rtp]
  cases hparse : rtpParse buf with
  | none => exact .inl ⟨rfl, rfl⟩
  | some h =>
      refine .inr ?_
      cases hmarker : h.marker with
      | true => exact .inl ⟨h, rfl, hmarker, if_pos hmarker⟩
      | false => exact .inr ⟨h, rfl, hmarker, if_neg (by simp [hmarker])⟩

end Probe

theorem Tracks.extended {p : Probe} {g : Seen} (ht : Tracks p g) (h : RtpHdr) (recvTs : ℕ) :
    Describes (g.packets ++ [(h, recvTs)]) (p.extended h recvTs) := by
  rw [Probe.extended]
  cases hfa : p.fa with
  | none =>
      rw [ht.idle hfa]
      exact describes_start h recvTs
  | some fa => exact (ht.frame fa hfa).add h recvTs

theorem Tracks.store {p : Probe} {g : Seen} (ht : Tracks p g) (e : CacheEntry) (slot : UInt32) :
    p.cache.store e slot = (e :: g.stored).find? fun e => e.slot = slot := by
  rw [Cache.store, List.find?_cons]
  by_cases hslot : e.slot = slot
  · subst hslot
    rw [decide_eq_true rfl]
    exact Function.update_self ..
  · rw [decide_eq_false hslot]
    exact (Function.update_of_ne (fun h => hslot h.symm) ..).trans (ht.cache slot)

/-- A step keeps the tables and the lists in agreement. -/
theorem Tracks.step {p : Probe} {g : Seen} (ht : Tracks p g) (e : Event) : Tracks (p.step e).1 (g.next e) := by
  cases e with
  | timers now t1 =>
      obtain ⟨os, -, ls, ps, -, heq | heq⟩ := p.timers_cases now t1 <;> rw [heq] <;>
        exact ⟨ht.frame, ht.idle, ht.cache⟩
  | sidecar datagram recvTs =>
      rw [Probe.step, Seen.next]
      obtain ⟨f, hparse, ps, -, heq⟩ | ⟨hparse, heq⟩ | ⟨hparse, -, -, ps, -, heq⟩ := p.sidecar_cases (datagram.take maxPkt) recvTs
      · rw [hparse, heq]
        exact ⟨ht.frame, ht.idle, ht.store (.ofFrame f recvTs)⟩
      · rw [hparse, heq]
        exact ht
      · rw [hparse, heq]
        exact ⟨ht.frame, ht.idle, ht.cache⟩
  | rtp datagram recvTs =>
      rw [Probe.step, Seen.next]
      obtain ⟨hparse, heq⟩ | ⟨h, hparse, hmarker, heq⟩ | ⟨h, hparse, hmarker, heq⟩ := p.rtp_cases (datagram.take maxPkt) recvTs
      · rw [hparse, heq]
        exact ht
      · rw [hparse, heq, Option.elim_some, hmarker]
        exact ⟨fun fa h => absurd h (by simp [Probe.finish]), fun _ => rfl, ht.cache⟩
      · rw [hparse, heq, Option.elim_some, hmarker]
        refine ⟨fun fa heq => ?_, fun h => absurd h (by simp), ht.cache⟩
        obtain rfl := Option.some.inj heq
        exact ht.extended h recvTs

theorem tracks_run (es : List Event) : Tracks (machine.run {} es) (seen es) := by
  induction es using List.reverseRecOn with
  | nil => exact ⟨fun fa h => absurd h (by simp), fun _ => rfl, fun _ => rfl⟩
  | append_singleton es e ih =>
      rw [machine.run_append, seen, List.foldl_append, ← seen]
      exact ih.step e

/-- A row is printed at a marker, of the accumulator with the marker's packet. -/
theorem row_cases {p : Probe} {e : Event} {r : Row} (h : .row r ∈ (p.step e).2) :
    ∃ datagram recvTs hdr, e = .rtp datagram recvTs ∧ rtpParse (datagram.take maxPkt) = some hdr ∧ hdr.marker ∧
      r = p.emitFrame (p.extended hdr recvTs)
        (p.cache.lookup (p.extended hdr recvTs).ssrc (p.extended hdr recvTs).rtpTs) := by
  cases e with
  | timers now t1 =>
      exfalso
      obtain ⟨os, hos, ls, ps, -, heq | heq⟩ := p.timers_cases now t1 <;> rw [heq] at h <;>
        rcases hos with rfl | rfl <;> simp at h
  | sidecar datagram recvTs =>
      exfalso
      rw [Probe.step] at h
      obtain ⟨f, -, ps, -, heq⟩ | ⟨-, heq⟩ | ⟨-, -, -, ps, -, heq⟩ := p.sidecar_cases (datagram.take maxPkt) recvTs <;>
        rw [heq] at h <;> simp at h
  | rtp datagram recvTs =>
      rw [Probe.step] at h
      obtain ⟨-, heq⟩ | ⟨hdr, hparse, hmarker, heq⟩ | ⟨hdr, -, -, heq⟩ := p.rtp_cases (datagram.take maxPkt) recvTs
      · rw [heq] at h
        exact absurd h List.not_mem_nil
      · rw [heq] at h
        exact ⟨datagram, recvTs, hdr, rfl, hparse, hmarker, Obs.row.inj (List.mem_singleton.mp h)⟩
      · rw [heq] at h
        exact absurd h List.not_mem_nil

/-! ## Every row -/

/-- A row accounts for the packets since the last marker: who they belong to, when the first and
the last arrived, and how many numbers between them are missing — exactly, if they came in order,
and modulo `2^16` however they came. -/
theorem row_frame {es : List Event} {e : Event} {r : Row} (h : .row r ∈ (machine.step (machine.run {} es) e).2) :
    ∃ datagram recvTs hdr, e = .rtp datagram recvTs ∧ rtpParse (datagram.take maxPkt) = some hdr ∧ hdr.marker ∧
      Describes ((seen es).packets ++ [(hdr, recvTs)]) r.fa ∧
      ((r.fa.seqLast - r.fa.seqFirst).toNat + 1) % 2 ^ 16 =
        ((seen es).packets.length + 1 + r.fa.gaps.toNat) % 2 ^ 16 ∧
      (((seqs ((seen es).packets ++ [(hdr, recvTs)])).map fun q => (q - r.fa.seqFirst).toNat).Pairwise (· < ·) →
        (r.fa.seqLast - r.fa.seqFirst).toNat + 1 = (seen es).packets.length + 1 + r.fa.gaps.toNat) := by
  obtain ⟨datagram, recvTs, hdr, rfl, hparse, hmarker, rfl⟩ := row_cases h
  have hd := (tracks_run es).extended hdr recvTs
  have hlen : ((seen es).packets ++ [(hdr, recvTs)]).length = (seen es).packets.length + 1 := List.length_append
  refine ⟨datagram, recvTs, hdr, rfl, hparse, hmarker, hd, ?_, fun hsorted => ?_⟩
  · rw [← hlen]
    exact hd.span_mod
  · rw [← hlen]
    exact hd.span_ordered hsorted

/-- One message, and the first and the last packet of its frame; the one between them is lost. -/
def gapRun : List Event :=
  [.sidecar (packFrameFull ⟨0, 7, 9, 40, 1000, 1, 3, 900, 1500⟩ true none none) 2000,
    .rtp [0x80, 0x60, 0, 1, 0, 0, 0, 9, 0, 0, 0, 7] 2100]

@[inherit_doc gapRun]
def gapLast : Event := .rtp [0x80, 0xe0, 0, 3, 0, 0, 0, 9, 0, 0, 0, 7] 2200

/-- The row they give. -/
def gapRow : Row where
  frameNo := 0
  fa := ⟨7, 9, 1, 3, 1, 2100, 2200⟩
  ce := some ⟨7, 9, 40, 900, 1000, 1500, 1, 3, ⟨0, 0, 0, 0, 0, 0, 0, 0⟩, false, 2000⟩
  senderIvl := 0
  recvIvl := 0
  encodeDur := 100
  sendSpread := 500
  latency := none

theorem gapRow_mem : .row gapRow ∈ (machine.step (machine.run {} gapRun) gapLast).2 := by
  have hrow : (machine.step (machine.run {} gapRun) gapLast).2 = [.row gapRow] := rfl
  rw [hrow]
  exact List.mem_singleton_self _

theorem row_frame_gap : (gapRow.fa.seqLast - gapRow.fa.seqFirst).toNat + 1 = 2 + gapRow.fa.gaps.toNat := by
  obtain ⟨datagram, recvTs, hdr, hevent, hparse, -, -, -, hordered⟩ := row_frame gapRow_mem
  obtain ⟨rfl, rfl⟩ := Event.rtp.inj hevent
  obtain rfl := Option.some.inj hparse
  exact hordered (by decide)

theorem lookup_eq_some {p : Probe} {g : Seen} (ht : Tracks p g) (ssrc rtpTs : UInt32) (m : CacheEntry) :
    p.cache.lookup ssrc rtpTs = some m ↔
      ∃ newer older, g.stored = newer ++ m :: older ∧ m.ssrc = ssrc ∧ m.rtpTs = rtpTs ∧
        ∀ m' ∈ newer, m'.slot ≠ cacheSlot ssrc rtpTs := by
  rw [Cache.lookup, ht.cache, Option.filter_eq_some_iff, List.find?_eq_some_iff_append]
  simp only [decide_eq_true_eq]
  constructor
  · rintro ⟨⟨-, newer, older, heq, hnewer⟩, hssrc, hts⟩
    exact ⟨newer, older, heq, hssrc, hts, fun m' hm => by simpa using hnewer m' hm⟩
  · rintro ⟨newer, older, heq, hssrc, hts, hnewer⟩
    refine ⟨⟨?_, newer, older, heq, fun m' hm => by simpa using hnewer m' hm⟩, hssrc, hts⟩
    rw [CacheEntry.slot, hssrc, hts]

/-- The metadata of a row is a message about that very frame: the newest one, and it is there unless
a message of another frame has taken the slot since. -/
theorem row_meta {es : List Event} {e : Event} {r : Row} (h : .row r ∈ (machine.step (machine.run {} es) e).2)
    (m : CacheEntry) :
    r.ce = some m ↔
      ∃ newer older, (seen es).stored = newer ++ m :: older ∧ m.ssrc = r.fa.ssrc ∧ m.rtpTs = r.fa.rtpTs ∧
        ∀ m' ∈ newer, m'.slot ≠ cacheSlot r.fa.ssrc r.fa.rtpTs := by
  obtain ⟨datagram, recvTs, hdr, rfl, -, -, rfl⟩ := row_cases h
  exact lookup_eq_some (tracks_run es) ..

theorem row_meta_gap : ∃ newer older, (seen gapRun).stored = newer ++ gapRow.ce.get rfl :: older ∧
    (gapRow.ce.get rfl).ssrc = 7 ∧ (gapRow.ce.get rfl).rtpTs = 9 ∧ ∀ m' ∈ newer, m'.slot ≠ cacheSlot 7 9 :=
  (row_meta gapRow_mem _).mp rfl

end Waybeam.Probes
