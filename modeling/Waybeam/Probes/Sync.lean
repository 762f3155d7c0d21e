/-
# `Waybeam.Probes.Sync` — how far the probe's clock offset can be off

venc's clock is ahead of the probe's by `θ` microseconds, and neither side knows it.  What the
two exchange may be lost, delayed, duplicated and reordered; of the times, all that holds is
that nothing arrives before it was sent.

    asked      the requests the probe has sent
    answers    every datagram venc has sent: frames, and an answer for any request it got,
               once or more often.  Each may reach the probe at any later moment

An exchange that took `rtt` on the wire shows an offset within half of `rtt` of `θ`.  The probe
uses the offset of the quickest of the last eight, and so every latency it prints is within half
of each of these rtts of the true one.
-/
import Waybeam.Probes.Rows

namespace Waybeam.Probes

open Packed Sidecar

/-! ## One exchange -/

theorem i64_sub64 {a b : ℕ} (ha : a < 2 ^ 63) (hb : b < 2 ^ 63) : i64 (sub64 a b) = (a : ℤ) - b := by
  have hmod : (sub64 a b : ℤ) % ((2 ^ 64 : ℕ) : ℤ) = ((a : ℤ) - b) % ((2 ^ 64 : ℕ) : ℤ) := by
    rw [sub64]
    omega
  calc i64 (sub64 a b) = Int.bmod ((sub64 a b : ℤ) % ((2 ^ 64 : ℕ) : ℤ)) (2 ^ 64) := (Int.emod_bmod ..).symm
    _ = Int.bmod ((a : ℤ) - b) (2 ^ 64) := by rw [hmod, Int.emod_bmod]
    _ = (a : ℤ) - b := Int.bmod_eq_of_le (by omega) (by omega)

theorem i64_of_lt {a : ℕ} (h : a < 2 ^ 63) : i64 a = a := Int.bmod_eq_of_le (by omega) (by omega)

/-- A sample whose offset is within half of its rtt of `θ`. -/
def Within (θ : ℤ) (s : ℤ × ℤ) : Prop := 2 * |s.2 - θ| ≤ s.1 + 1

/-- Nothing arrives before it was sent, on either way. -/
structure Causal (θ : ℤ) (t1 t2 t3 t4 : ℕ) : Prop where
  there : t1 + θ ≤ t2
  served : t2 ≤ t3
  back : t3 ≤ t4 + θ

theorem within_sample {θ : ℤ} {t1 t2 t3 t4 : ℕ} (h : Causal θ t1 t2 t3 t4) (h3 : t3 < 2 ^ 62) (h4 : t4 < 2 ^ 62) :
    Within θ (sample t1 t2 t3 t4) := by
  have hthere := h.there
  have hserved := h.served
  have hback := h.back
  rw [Within, sample, i64_sub64 (by omega) (by omega), i64_sub64 (by omega) (by omega), i64_sub64 (by omega) (by omega),
    i64_sub64 (by omega) (by omega)]
  dsimp only
  have hhalf := Int.mul_tdiv_add_tmod ((t2 : ℤ) - t1 + (t3 - t4)) 2
  have hlt := Int.tmod_lt_of_pos ((t2 : ℤ) - t1 + (t3 - t4)) (show (0 : ℤ) < 2 by decide)
  have hgt := Int.lt_tmod_of_pos ((t2 : ℤ) - t1 + (t3 - t4)) (show (0 : ℤ) < 2 by decide)
  rcases abs_cases (((t2 : ℤ) - t1 + (t3 - t4)).tdiv 2 - θ) with ⟨habs, -⟩ | ⟨habs, -⟩ <;> rw [habs] <;> omega

/-! ## The quickest exchange -/

theorem foldl_min (f : ℕ → ℤ × ℤ) (js : List ℕ) (m : ℤ × ℤ) :
    let z := js.foldl (fun m j => if (f j).1 < m.1 then f j else m) m
    (z = m ∨ ∃ j ∈ js, f j = z) ∧ z.1 ≤ m.1 ∧ ∀ j ∈ js, z.1 ≤ (f j).1 := by
  induction js generalizing m with
  | nil => exact ⟨.inl rfl, le_refl _, fun j hj => absurd hj List.not_mem_nil⟩
  | cons j js ih =>
      rw [List.foldl_cons]
      split
      · next hlt =>
          obtain ⟨hmem, hle, hall⟩ := ih (f j)
          refine ⟨.inr ?_, le_of_lt (lt_of_le_of_lt hle hlt), ?_⟩
          · rcases hmem with h | ⟨j', hj', h⟩
            · exact ⟨j, List.mem_cons_self, h.symm⟩
            · exact ⟨j', List.mem_cons_of_mem _ hj', h⟩
          · rintro j' (_ | ⟨_, hj'⟩)
            · exact hle
            · exact hall j' hj'
      · next hge =>
          obtain ⟨hmem, hle, hall⟩ := ih m
          refine ⟨?_, hle, ?_⟩
          · rcases hmem with h | ⟨j', hj', h⟩
            · exact .inl h
            · exact .inr ⟨j', List.mem_cons_of_mem _ hj', h⟩
          · rintro j' (_ | ⟨_, hj'⟩)
            · exact le_trans hle (not_lt.mp hge)
            · exact hall j' hj'

/-- The scan over the slots finds a live sample of the smallest rtt. -/
theorem minSample_spec {r : Ring 8 (ℤ × ℤ)} (h : r.Filled) (hpos : 0 < r.count) :
    minSample r ∈ r.toList ∧ ∀ s ∈ r.toList, (minSample r).1 ≤ s.1 := by
  obtain ⟨hmem, hfirst, hrest⟩ := foldl_min r.slots (List.range' 1 (r.count - 1)) (r.slots 0)
  have hrange : ∀ j, j ∈ List.range' 1 (r.count - 1) ↔ 1 ≤ j ∧ j < r.count := by
    intro j
    rw [List.mem_range'_1]
    omega
  constructor
  · rw [h.mem_toList]
    rcases hmem with heq | ⟨j, hj, heq⟩
    · exact ⟨0, hpos, heq.symm⟩
    · exact ⟨j, ((hrange j).mp hj).2, heq⟩
  · intro s hs
    obtain ⟨j, hj, rfl⟩ := h.mem_toList.mp hs
    rcases Nat.eq_zero_or_pos j with rfl | hj0
    · exact hfirst
    · exact hrest j ((hrange j).mpr ⟨hj0, hj⟩)

/-- The state of the synchronisation, over exchanges with these rtts, the newest first. -/
structure Synced (θ : ℤ) (rtts : List ℤ) (ss : SyncState) : Prop where
  filled : ss.samples.Filled
  window : ss.samples.toList.map Prod.fst = rtts.take 8
  within : ∀ s ∈ ss.samples.toList, Within θ s
  best : ∀ b, ss.best = some b → ∃ s ∈ ss.samples.toList, s.2 = b ∧ ∀ s' ∈ ss.samples.toList, s.1 ≤ s'.1

/-- The offset in use is within half of each of the last eight rtts. -/
theorem Synced.error {θ : ℤ} {rtts : List ℤ} {ss : SyncState} (h : Synced θ rtts ss) {b : ℤ} (hb : ss.best = some b) :
    ∀ rtt ∈ rtts.take 8, 2 * |b - θ| ≤ rtt + 1 := by
  intro rtt hrtt
  obtain ⟨s, hs, rfl, hmin⟩ := h.best b hb
  rw [← h.window] at hrtt
  obtain ⟨s', hs', rfl⟩ := List.mem_map.mp hrtt
  have hwithin := h.within s hs
  rw [Within] at hwithin
  have := hmin s' hs'
  omega

theorem Synced.record {θ : ℤ} {rtts : List ℤ} {ss : SyncState} (h : Synced θ rtts ss) {t1 t2 t3 t4 : ℕ}
    (hsample : Within θ (sample t1 t2 t3 t4)) (pendingT1 : ℕ) :
    Synced θ ((sample t1 t2 t3 t4).1 :: rtts) { ss.record t1 t2 t3 t4 with pendingT1 } := by
  have hpush : (ss.samples.push (sample t1 t2 t3 t4)).toList = (sample t1 t2 t3 t4 :: ss.samples.toList).take 8 :=
    ss.samples.toList_push _
  have hfilled := h.filled.push (sample t1 t2 t3 t4)
  have hpos : 0 < (ss.samples.push (sample t1 t2 t3 t4)).count := by
    simp only [Ring.push]
    split <;> omega
  constructor
  · exact hfilled
  · show (ss.samples.push (sample t1 t2 t3 t4)).toList.map Prod.fst = _
    rw [hpush, List.map_take, List.map_cons, h.window, List.take_succ_cons, List.take_succ_cons, List.take_take]
    rfl
  · intro s hs
    have hs : s ∈ (ss.samples.push (sample t1 t2 t3 t4)).toList := hs
    rw [hpush] at hs
    rcases List.mem_cons.mp (List.mem_of_mem_take hs) with rfl | hs
    · exact hsample
    · exact h.within s hs
  · rintro b hb
    obtain ⟨hmem, hmin⟩ := minSample_spec hfilled hpos
    exact ⟨_, hmem, Option.some.inj hb, hmin⟩

/-! ## The network -/

/-- An answer: the request's `t1` echoed, and venc's clock when it came and when the answer left. -/
def syncRespFields (t1 t2 t3 : ℕ) : List (ℕ × ℕ) :=
  [(4, magic), (1, version), (1, msgSyncResp), (2, 0), (8, t1), (8, t2), (8, t3)]

/-- The probe, and all that is on the way to it. -/
structure Net where
  probe : Probe := {}
  /-- the probe's clock, as far as it is known to have run -/
  clock : ℕ := 0
  asked : List ℕ := []
  answers : List (List UInt8) := []

inductive NetEvent where
  | probe (e : Event)
  /-- venc answers a request; the times are the probe's clock at that moment -/
  | answer (t1 at2 at3 : ℕ)
  | frame (b : Base) (keyframe : Bool) (enc : Option EncInfo) (transport : Option TransportInfo)

/-- The clock when the probe is done with an event. -/
def Event.time : Event → ℕ
  | .timers _ t1 => t1
  | .sidecar _ recvTs | .rtp _ recvTs => recvTs

def Obs.request : Obs → Option ℕ
  | .syncReq t1 => some t1
  | _ => none

def Net.step (θ : ℤ) (n : Net) : NetEvent → Net × List Obs
  | .probe e =>
      let (probe, os) := n.probe.step e
      ({ n with probe, clock := e.time, asked := os.filterMap Obs.request ++ n.asked }, os)
  | .answer t1 at2 at3 =>
      ({ n with
          clock := at3
          answers := pack (syncRespFields t1 (at2 + θ).toNat (at3 + θ).toNat) :: n.answers }, [])
  | .frame b keyframe enc transport =>
      ({ n with answers := packFrameFull b keyframe enc transport :: n.answers }, [])

def net (θ : ℤ) : Machine Net NetEvent Obs := ⟨Net.step θ⟩

/-- Time runs forward on both sides, and what the sidecar socket brings was sent by venc. -/
def Legal (θ : ℤ) (n : Net) : NetEvent → Prop
  | .probe (.timers now t1) => n.clock ≤ now ∧ now ≤ t1 ∧ t1 < 2 ^ 62
  | .probe (.sidecar datagram recvTs) => datagram ∈ n.answers ∧ n.clock ≤ recvTs ∧ recvTs < 2 ^ 62
  | .probe (.rtp _ recvTs) => n.clock ≤ recvTs ∧ recvTs < 2 ^ 62
  | .answer t1 at2 at3 =>
      t1 ∈ n.asked ∧ t1 ≤ at2 ∧ at2 ≤ at3 ∧ n.clock ≤ at3 ∧ at3 < 2 ^ 62 ∧ 0 ≤ at2 + θ ∧ at3 + θ < 2 ^ 62
  | .frame b _ _ _ => b.frameReadyUs.toNat < 2 ^ 62

instance (θ : ℤ) (n : Net) : ∀ e, Decidable (Legal θ n e)
  | .probe (.timers now t1) => inferInstanceAs (Decidable (n.clock ≤ now ∧ now ≤ t1 ∧ t1 < 2 ^ 62))
  | .probe (.sidecar datagram recvTs) =>
      inferInstanceAs (Decidable (datagram ∈ n.answers ∧ n.clock ≤ recvTs ∧ recvTs < 2 ^ 62))
  | .probe (.rtp _ recvTs) => inferInstanceAs (Decidable (n.clock ≤ recvTs ∧ recvTs < 2 ^ 62))
  | .answer t1 at2 at3 =>
      inferInstanceAs (Decidable (t1 ∈ n.asked ∧ t1 ≤ at2 ∧ at2 ≤ at3 ∧ n.clock ≤ at3 ∧ at3 < 2 ^ 62 ∧ 0 ≤ at2 + θ ∧
        at3 + θ < 2 ^ 62))
  | .frame b _ _ _ => inferInstanceAs (Decidable (b.frameReadyUs.toNat < 2 ^ 62))

/-- The rtts so far, the newest first, and the latencies printed against them. -/
def latencyBound (θ : ℤ) : Monitor Obs (List ℤ) where
  upd g
    | .synced rtt => rtt :: g
    | _ => g
  ok g
    | .row r =>
        match r.ce, r.latency with
        | some e, some latency =>
            (g.take 8).all fun rtt =>
              decide (2 * |latency - (r.fa.recvLastUs - (e.frameReadyUs.toNat - θ))| ≤ rtt + 1)
        | _, _ => true
    | _ => true

/-! ### What is on the way -/

theorem syncResp_fields {t1 t2 t3 : ℕ} (h1 : t1 < 2 ^ 62) (h2 : t2 < 2 ^ 62) (h3 : t3 < 2 ^ 62) :
    field (pack (syncRespFields t1 t2 t3)) 5 1 = msgSyncResp ∧ field (pack (syncRespFields t1 t2 t3)) 8 8 = t1 ∧
      field (pack (syncRespFields t1 t2 t3)) 16 8 = t2 ∧ field (pack (syncRespFields t1 t2 t3)) 24 8 = t3 := by
  have hfits : ∀ f ∈ syncRespFields t1 t2 t3, f.2 < 256 ^ f.1 := by
    simp only [syncRespFields, List.forall_mem_cons, List.not_mem_nil, false_imp_iff, implies_true, and_true]
    exact ⟨by decide, by decide, by decide, by decide, by omega, by omega, by omega⟩
  have hsplit := split_pack_self hfits
  rw [split_eq_fields] at hsplit
  simp only [syncRespFields, List.map_cons, List.map_nil, fields, List.cons.injEq] at hsplit
  exact ⟨hsplit.2.2.1, hsplit.2.2.2.2.1, hsplit.2.2.2.2.2.1, hsplit.2.2.2.2.2.2.1⟩

/-- A datagram of venc. -/
inductive OnTheWay (θ : ℤ) (clock : ℕ) : List UInt8 → Prop
  | frame (b : Base) (keyframe : Bool) (enc : Option EncInfo) (transport : Option TransportInfo)
      (ready : b.frameReadyUs.toNat < 2 ^ 62) : OnTheWay θ clock (packFrameFull b keyframe enc transport)
  | answer (t1 t2 t3 : ℕ) (h1 : t1 < 2 ^ 62) (h3 : t3 < 2 ^ 62) (there : t1 + θ ≤ t2) (served : t2 ≤ t3)
      (back : t3 ≤ clock + θ) : OnTheWay θ clock (pack (syncRespFields t1 t2 t3))

theorem OnTheWay.later {θ : ℤ} {clock clock' : ℕ} {d : List UInt8} (h : OnTheWay θ clock d) (hle : clock ≤ clock') :
    OnTheWay θ clock' d := by
  cases h with
  | frame b keyframe enc transport ready => exact .frame b keyframe enc transport ready
  | answer t1 t2 t3 h1 h3 there served back => exact .answer t1 t2 t3 h1 h3 there served (by omega)

theorem OnTheWay.take {θ : ℤ} {clock : ℕ} {d : List UInt8} (h : OnTheWay θ clock d) : d.take maxPkt = d := by
  refine List.take_of_length_le ?_
  cases h with
  | frame b keyframe enc transport ready =>
      have henc : (enc.elim [] fun e => pack e.fields).length ≤ 12 := by
        cases enc with
        | none => exact Nat.zero_le _
        | some e => exact Nat.le_of_eq (length_pack _)
      have htransport : (transport.elim [] fun t => pack t.fields).length ≤ 16 := by
        cases transport with
        | none => exact Nat.zero_le _
        | some t => exact Nat.le_of_eq (length_pack _)
      have hbase : (pack (b.fields (flagsOf keyframe enc.isSome transport.isSome))).length = 52 := length_pack _
      rw [packFrameFull, List.length_append, List.length_append, hbase, maxPkt]
      omega
  | answer t1 t2 t3 h1 h3 there served back => exact (length_pack _).trans_le (by simp [syncRespFields, maxPkt])

/-- A frame of venc carries its ready time. -/
theorem OnTheWay.ready {θ : ℤ} {clock : ℕ} {d : List UInt8} (h : OnTheWay θ clock d) {f : Frame}
    (hparse : parseFrame d = some f) : f.frameReadyUs.toNat < 2 ^ 62 := by
  cases h with
  | frame b keyframe enc transport ready =>
      have hround := parseFrame_pack b keyframe enc transport []
      rw [List.append_nil, hparse] at hround
      rw [Option.some.inj hround]
      exact ready
  | answer t1 t2 t3 h1 h3 there served back =>
      obtain ⟨htype, -⟩ := syncResp_fields h1 (Nat.lt_of_le_of_lt served h3) h3
      have hno : ¬ isFrame (pack (syncRespFields t1 t2 t3)) := by
        simp [isFrame, headed, htype, msgSyncResp, msgFrame]
      rw [parseFrame_overlay, if_neg hno] at hparse
      exact absurd hparse (by simp)

/-- What is no frame of venc is an answer, and shows an offset near `θ`. -/
theorem OnTheWay.within {θ : ℤ} {clock : ℕ} {d : List UInt8} (h : OnTheWay θ clock d) (hparse : parseFrame d = none)
    (hlt : clock < 2 ^ 62) : Within θ (sample (field d 8 8) (field d 16 8) (field d 24 8) clock) := by
  cases h with
  | frame b keyframe enc transport ready =>
      have hround := parseFrame_pack b keyframe enc transport []
      rw [List.append_nil, hparse] at hround
      exact absurd hround (by simp)
  | answer t1 t2 t3 h1 h3 there served back =>
      obtain ⟨-, hf1, hf2, hf3⟩ := syncResp_fields h1 (Nat.lt_of_le_of_lt served h3) h3
      rw [hf1, hf2, hf3]
      exact within_sample ⟨there, served, back⟩ h3 hlt

/-! ### Every run -/

structure Inv (θ : ℤ) (n : Net) (rtts : List ℤ) : Prop where
  clock : n.clock < 2 ^ 62
  answers : ∀ d ∈ n.answers, OnTheWay θ n.clock d
  cache : ∀ slot e, n.probe.cache slot = some e → e.frameReadyUs.toNat < 2 ^ 62
  synced : Synced θ rtts n.probe.ss

theorem inv_init (θ : ℤ) : Inv θ {} [] where
  clock := by decide
  answers d hd := absurd hd List.not_mem_nil
  cache slot e h := absurd h (by simp)
  synced := ⟨fun _ => rfl, rfl, fun s hs => absurd hs List.not_mem_nil, fun b hb => absurd hb (by simp)⟩

/-- A row is within the bound. -/
theorem Inv.row {θ : ℤ} {n : Net} {rtts : List ℤ} (h : Inv θ n rtts) {fa : FrameAccum} (hrecv : fa.recvLastUs < 2 ^ 62) :
    (latencyBound θ).ok rtts (.row (n.probe.emitFrame fa (n.probe.cache.lookup fa.ssrc fa.rtpTs))) := by
  cases hce : n.probe.cache.lookup fa.ssrc fa.rtpTs with
  | none => rfl
  | some e =>
      have hready : e.frameReadyUs.toNat < 2 ^ 62 := h.cache _ e (Option.filter_eq_some_iff.mp hce).1
      cases hbest : n.probe.ss.best with
      | none => simp only [latencyBound, Probe.emitFrame, Option.bind_some, hbest, Option.map_none]
      | some b =>
          simp only [latencyBound, Probe.emitFrame, Option.bind_some, hbest, Option.map_some, List.all_eq_true,
            decide_eq_true_eq]
          intro rtt hrtt
          have herror : i64 fa.recvLastUs - (i64 e.frameReadyUs.toNat - b) -
              (fa.recvLastUs - (e.frameReadyUs.toNat - θ)) = b - θ := by
            rw [i64_of_lt (by omega), i64_of_lt (by omega)]
            omega
          rw [herror]
          exact h.synced.error hbest rtt hrtt

/-- Which observations the bound is about. -/
theorem ignores_other (θ : ℤ) {o : Obs} (hsynced : ∀ rtt, o ≠ .synced rtt) (hrow : ∀ r, o ≠ .row r) :
    (latencyBound θ).Ignores o := by
  intro g
  cases o with
  | subscribe => exact ⟨rfl, rfl⟩
  | syncReq t1 => exact ⟨rfl, rfl⟩
  | synced rtt => exact absurd rfl (hsynced rtt)
  | row r => exact absurd rfl (hrow r)

theorem net_probe (θ : ℤ) {n : Net} {e : Event} {p : Probe} {os : List Obs} (h : n.probe.step e = (p, os)) :
    (net θ).step n (.probe e) =
      ({ n with probe := p, clock := e.time, asked := os.filterMap Obs.request ++ n.asked }, os) := by
  simp only [net, Net.step, h]

/-- Time passes; what is on the way stays on the way. -/
theorem Inv.advance {θ : ℤ} {n : Net} {rtts rtts' : List ℤ} (h : Inv θ n rtts) {p : Probe} {clock : ℕ} {asked : List ℕ}
    (hclock : n.clock ≤ clock) (hlt : clock < 2 ^ 62)
    (hcache : ∀ slot e, p.cache slot = some e → e.frameReadyUs.toNat < 2 ^ 62) (hsynced : Synced θ rtts' p.ss) :
    Inv θ { n with probe := p, clock, asked } rtts' :=
  ⟨hlt, fun d hd => (h.answers d hd).later hclock, hcache, hsynced⟩

theorem inv_timers {θ : ℤ} {n : Net} {rtts : List ℤ} {now t1 : ℕ} (h : Inv θ n rtts)
    (hl : Legal θ n (.probe (.timers now t1))) :
    (latencyBound θ).wp rtts ((net θ).step n (.probe (.timers now t1))) (Inv θ) := by
  obtain ⟨hnow, ht1, hlt⟩ := hl
  obtain ⟨os, hos, ls, ps, -, heq | heq⟩ := n.probe.timers_cases now t1 <;> rw [net_probe θ heq]
  · refine wp_ignored ?_ (h.advance (Nat.le_trans hnow ht1) hlt h.cache h.synced)
    rcases hos with rfl | rfl <;> simp [ignores_other]
  · refine wp_ignored ?_ (h.advance (Nat.le_trans hnow ht1) hlt h.cache
      ⟨h.synced.filled, h.synced.window, h.synced.within, h.synced.best⟩)
    rcases hos with rfl | rfl <;> simp [ignores_other]

theorem inv_rtp {θ : ℤ} {n : Net} {rtts : List ℤ} {datagram : List UInt8} {recvTs : ℕ} (h : Inv θ n rtts)
    (hl : Legal θ n (.probe (.rtp datagram recvTs))) :
    (latencyBound θ).wp rtts ((net θ).step n (.probe (.rtp datagram recvTs))) (Inv θ) := by
  obtain ⟨hclock, hlt⟩ := hl
  obtain ⟨-, heq⟩ | ⟨hdr, -, -, heq⟩ | ⟨hdr, -, -, heq⟩ := n.probe.rtp_cases (datagram.take maxPkt) recvTs <;>
    rw [net_probe θ (e := .rtp datagram recvTs) heq]
  · exact wp_pure (h.advance hclock hlt h.cache h.synced)
  · have hrecv : (n.probe.extended hdr recvTs).recvLastUs < 2 ^ 62 := by
      rw [Probe.extended]
      cases n.probe.fa <;> exact hlt
    exact wp_emit (h.row hrecv) (h.advance hclock hlt h.cache h.synced)
  · exact wp_pure (h.advance hclock hlt h.cache h.synced)

theorem inv_sidecar {θ : ℤ} {n : Net} {rtts : List ℤ} {datagram : List UInt8} {recvTs : ℕ} (h : Inv θ n rtts)
    (hl : Legal θ n (.probe (.sidecar datagram recvTs))) :
    (latencyBound θ).wp rtts ((net θ).step n (.probe (.sidecar datagram recvTs))) (Inv θ) := by
  obtain ⟨hmem, hclock, hlt⟩ := hl
  have hd := (h.answers datagram hmem).later hclock
  have htake : n.probe.step (.sidecar datagram recvTs) = n.probe.sidecar datagram recvTs := by rw [Probe.step, hd.take]
  obtain ⟨f, hparse, ps, -, heq⟩ | ⟨-, heq⟩ | ⟨hparse, -, -, ps, -, heq⟩ := n.probe.sidecar_cases datagram recvTs <;>
    rw [net_probe θ (htake.trans heq)]
  · refine wp_pure (h.advance hclock hlt (fun slot e he => ?_) h.synced)
    simp only [Cache.store, Function.update_apply] at he
    split at he
    · obtain rfl := Option.some.inj he
      exact hd.ready hparse
    · exact h.cache slot e he
  · exact wp_pure (h.advance hclock hlt h.cache h.synced)
  · exact wp_emit rfl (h.advance hclock hlt h.cache (h.synced.record (hd.within hparse hlt) 0))

theorem inv_step {θ : ℤ} {n : Net} {rtts : List ℤ} {e : NetEvent} (h : Inv θ n rtts) (hl : Legal θ n e) :
    (latencyBound θ).wp rtts ((net θ).step n e) (Inv θ) := by
  cases e with
  | probe e =>
      cases e with
      | timers now t1 => exact inv_timers h hl
      | sidecar datagram recvTs => exact inv_sidecar h hl
      | rtp datagram recvTs => exact inv_rtp h hl
  | answer t1 at2 at3 =>
      obtain ⟨-, h12, h23, hclock, hlt, hpos, hbound⟩ := hl
      have hserved : ((at3 + θ).toNat : ℤ) = at3 + θ := Int.toNat_of_nonneg (by omega)
      have hasked : ((at2 + θ).toNat : ℤ) = at2 + θ := Int.toNat_of_nonneg hpos
      refine wp_pure ⟨hlt, ?_, h.cache, h.synced⟩
      rintro d (_ | ⟨_, hd⟩)
      · exact .answer t1 _ _ (by omega) (by omega) (by omega) (by omega) (Int.le_of_eq hserved)
      · exact (h.answers d hd).later hclock
  | frame b keyframe enc transport =>
      refine wp_pure ⟨h.clock, ?_, h.cache, h.synced⟩
      rintro d (_ | ⟨_, hd⟩)
      · exact .frame b keyframe enc transport hl
      · exact h.answers d hd

/-- Whatever the network does, every latency the probe prints is within half of each of the last
eight round trips of the true time from the frame's completion to its last packet. -/
theorem latencies_bounded {θ : ℤ} {es : List NetEvent} (h : (net θ).Meets (Legal θ) {} es) :
    (latencyBound θ).Accepts [] ((net θ).trace {} es) :=
  (Machine.run_wp (fun _ _ _ hinv hl => inv_step hinv hl) (inv_init θ) h).1

/-- One exchange of 40 µs, a frame and its only packet. -/
def exchangeRun : List NetEvent :=
  [.probe (.timers 300000 300000), .answer 300000 300010 300020,
    .probe (.sidecar (pack (syncRespFields 300000 301010 301020)) 300040),
    .frame ⟨0, 7, 9, 0, 301100, 1, 1, 0, 0⟩ false none none,
    .probe (.sidecar (packFrameFull ⟨0, 7, 9, 0, 301100, 1, 1, 0, 0⟩ false none none) 300140),
    .probe (.rtp [0x80, 0xe0, 0, 1, 0, 0, 0, 9, 0, 0, 0, 7] 300150)]

theorem latencies_bounded_exchange : (latencyBound 1000).Accepts [] ((net 1000).trace {} exchangeRun) :=
  latencies_bounded (by decide)

end Waybeam.Probes
