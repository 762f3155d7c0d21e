/-
# `Waybeam.Vehicle.Desync` — the desync probe beside the transmitter it replays

The probe counts, frame by frame, how full the open FEC block of wfb_tx is and how many frames went
into the block that closes; wfb_tx counts packets.

    frame of `p` packets, open block holds `fill` of `k`

    fill + p < k     both close at the frame boundary iff 2·(fill + p) ≥ k
    fill + p ≥ k     wfb_tx closes every full block on the way and judges what is left over;
                     the probe sees one block, which it closes

What is left over must be nothing, or enough to be closed: else wfb_tx goes on with an open block
the probe knows nothing of (`desync_iff`).
-/
import Waybeam.Machine
import Waybeam.Vehicle.Config

namespace Waybeam.Vehicle

/-! ## The probe -/

/-- The packet budget of the probe. -/
def desyncMtu (cfg : FecConfig) : ℕ := if 0 < cfg.mtu then cfg.mtu.toNat else 1446

/-- `ppf_meas`: rounded up in 32 bits, at least one. -/
def ppfMeas (mtu frameSize : ℕ) : ℕ :=
  let ppf := (frameSize + mtu - 1) % 2 ^ 32 / mtu
  if ppf < 1 then 1 else ppf

/-- `dp_block_fill`, `dp_frames_in_blk`. -/
structure DesyncProbe where
  blockFill : ℕ := 0
  framesInBlk : ℕ := 0

/-- The replay of one frame: the probe after it, and `fpb`. -/
def DesyncProbe.replay (kLive : ℤ) (mtu : ℕ) (s : DesyncProbe) (frameSize : ℕ) : DesyncProbe × ℕ :=
  let blockFill := s.blockFill + ppfMeas mtu frameSize
  let framesInBlk := s.framesInBlk + 1
  let gateClose : Bool := decide (kLive ≤ 0) || decide (kLive ≤ blockFill * 2)
  if gateClose then ({}, framesInBlk) else ({ blockFill, framesInBlk }, 0)

/-! ## wfb_tx -/

/-- The open block: the data packets in it, and the frames they are of. -/
structure TxBlock where
  fill : ℕ := 0
  frames : ℕ := 0
  /-- the frame being sent has a packet in it -/
  here : Bool := false

namespace TxBlock

/-- `send_packet` of a data packet.  A block that holds `k` closes by itself; a close is told by the
frames in the block. -/
def send (k : ℤ) (b : TxBlock) : TxBlock × List ℕ :=
  let frames := if b.here then b.frames else b.frames + 1
  if (b.fill : ℤ) + 1 = k then ({}, [frames]) else ({ fill := b.fill + 1, frames, here := true }, [])

/-- `send_packet` with FEC_ONLY until it has nothing to close. -/
def close (b : TxBlock) : TxBlock × List ℕ := if b.fill = 0 then (b, []) else ({}, [b.frames])

/-- The threshold of the per-frame close. -/
def gate (k : ℤ) (b : TxBlock) : TxBlock × List ℕ :=
  if k ≤ 0 ∨ k ≤ b.fill * 2 then b.close else (b, [])

/-- `peek_emit`: the packet, then the close it signals. -/
def peekEmit (k : ℤ) (marker : Bool) (b : TxBlock) : TxBlock × List ℕ :=
  andThen (b.send k) fun b => if marker then b.gate k else (b, [])

/-- The packets of a frame, of which the last carries the marker. -/
def packets (k : ℤ) : ℕ → TxBlock → TxBlock × List ℕ
  | 0, b => (b, [])
  | n + 1, b => andThen (b.peekEmit k (n == 0)) (packets k n)

/-- A frame, after which the open block waits for the next. -/
def frame (k : ℤ) (n : ℕ) (b : TxBlock) : TxBlock × List ℕ :=
  ({ (b.packets k n).1 with here := false }, (b.packets k n).2)

end TxBlock

/-- The packets of a frame. -/
def packetsOf (mtu frameSize : ℕ) : ℕ := (frameSize + mtu - 1) / mtu

/-! ## Side by side -/

/-- What is said of a frame: the fill and the coalescing factor, by the probe and of wfb_tx.  The
factor is the most frames in a block that closed on the frame. -/
structure DesyncObs where
  blockFill : ℕ
  fpb : ℕ
  fill : ℕ
  factor : ℕ
  deriving DecidableEq

/-- Probe and transmitter, frame by frame. -/
def desyncMachine (k : ℤ) (mtu : ℕ) : Machine (DesyncProbe × TxBlock) ℕ DesyncObs where
  step s frameSize :=
    let (probe, fpb) := s.1.replay k mtu frameSize
    let (block, closed) := s.2.frame k (packetsOf mtu frameSize)
    ((probe, block), [{ blockFill := probe.blockFill, fpb, fill := block.fill, factor := closed.foldr max 0 }])

/-- The probe tells the truth. -/
def DesyncObs.isTrue (o : DesyncObs) : Prop := o.blockFill = o.fill ∧ o.fpb = o.factor

instance (o : DesyncObs) : Decidable o.isTrue := inferInstanceAs (Decidable (_ ∧ _))

/-- What is left of the frame in the last block is nothing, or enough to be closed, and the packets
were counted right or do not matter. -/
def DesyncFits (k mtu : ℕ) (s : DesyncProbe) (frameSize : ℕ) : Prop :=
  let held := s.blockFill + packetsOf mtu frameSize
  (held < k ∨ held % k = 0 ∨ k ≤ 2 * (held % k)) ∧
    (frameSize + mtu ≤ 2 ^ 32 ∨ k ≤ 2 * (s.blockFill + 1))

instance (k mtu : ℕ) (s : DesyncProbe) (frameSize : ℕ) : Decidable (DesyncFits k mtu s frameSize) :=
  inferInstanceAs (Decidable (_ ∧ _))

/-! ## A frame at the transmitter -/

namespace TxBlock

/-- Data packets, none of them with a marker. -/
def sends (k : ℤ) : ℕ → TxBlock → TxBlock × List ℕ
  | 0, b => (b, [])
  | n + 1, b => andThen (b.send k) (sends k n)

/-- A frame is its packets, then the threshold. -/
theorem packets_eq (k : ℤ) (n : ℕ) (b : TxBlock) :
    b.packets k (n + 1) = andThen (b.sends k (n + 1)) (gate k) := by
  induction n generalizing b with
  | zero =>
      rw [packets, sends, andThen_assoc]
      exact (andThen_done _)
  | succ n ih =>
      rw [packets, sends, andThen_assoc]
      have hplain : b.peekEmit k (n + 1 == 0) = b.send k := andThen_done _
      rw [hplain]
      exact congrArg (andThen (b.send k)) (funext ih)

/-- The frames in the block once the frame being sent has a packet in it. -/
def counted (b : TxBlock) : ℕ := if b.here then b.frames else b.frames + 1

/-- A block between two packets: not full, and fresh when it is empty. -/
structure Open (k : ℕ) (b : TxBlock) : Prop where
  lt : b.fill < k
  fresh : b.fill = 0 → b = {}
  counts : b.here = true → 1 ≤ b.frames

theorem Open.empty {k : ℕ} (hk : 0 < k) : Open k {} := ⟨hk, fun _ => rfl, fun h => nomatch h⟩

theorem Open.one_le_counted {k : ℕ} {b : TxBlock} (h : b.Open k) : 1 ≤ b.counted := by
  rw [counted]
  split
  · exact h.counts ‹_›
  · exact Nat.le_add_left 1 _

/-- After `n` packets on top of `b`: what is left over is open, and the first block to close is the
one that was. -/
structure Sent (k : ℕ) (b : TxBlock) (n : ℕ) (r : TxBlock × List ℕ) : Prop where
  fill : r.1.fill = (b.fill + n) % k
  fresh : r.1.fill = 0 → r.1 = {}
  short : b.fill + n < k → r.2 = [] ∧ (0 < n → r.1.frames = b.counted)
  long : k ≤ b.fill + n → r.2.foldr max 0 = b.counted ∧ (r.1.fill ≠ 0 → r.1.frames = 1)

/-- The packet that fills the block closes it, and the rest of the frame opens another. -/
theorem Sent.closing {k n : ℕ} {b : TxBlock} (h : b.Open k) (hfull : b.fill + 1 = k)
    (hrest : Sent k {} n (({} : TxBlock).sends k n)) : Sent k b (n + 1) (b.sends k (n + 1)) := by
  have hsend : b.send k = ({}, [b.counted]) := by
    rw [send, if_pos (by omega)]
    rfl
  have hsends : b.sends k (n + 1) =
      (((({} : TxBlock)).sends k n).1, b.counted :: (({} : TxBlock).sends k n).2) := by
    rw [sends, hsend]
    rfl
  have hfill : b.fill + (n + 1) = ({} : TxBlock).fill + n + k := by
    show _ = 0 + n + k
    omega
  rw [hsends]
  refine ⟨?_, hrest.fresh, fun hlt => absurd hlt (by omega), fun _ => ?_⟩
  · rw [hfill, Nat.add_mod_right]
    exact hrest.fill
  · have hone := h.one_le_counted
    rcases Nat.lt_or_ge n k with hlt | hge
    · obtain ⟨hnone, hframes⟩ := hrest.short (by show 0 + n < k; omega)
      refine ⟨by simp [hnone], fun hne => ?_⟩
      rw [hrest.fill] at hne
      have hpos : 0 < n := by
        rcases Nat.eq_zero_or_pos n with rfl | hpos
        · exact absurd (Nat.zero_mod k) hne
        · exact hpos
      exact hframes hpos
    · obtain ⟨hmax, hframes⟩ := hrest.long (by show k ≤ 0 + n; omega)
      refine ⟨?_, hframes⟩
      rw [List.foldr_cons, hmax]
      exact max_eq_left hone

/-- A packet that leaves room in the block: the frame is in it now. -/
def joined (b : TxBlock) : TxBlock where
  fill := b.fill + 1
  frames := b.counted
  here := true

theorem Open.joined {k : ℕ} {b : TxBlock} (h : b.Open k) (hlt : b.fill + 1 < k) : b.joined.Open k :=
  ⟨hlt, fun h0 => absurd h0 (Nat.succ_ne_zero _), fun _ => h.one_le_counted⟩

theorem Sent.joining {k n : ℕ} {b : TxBlock} (hlt : b.fill + 1 < k)
    (hrest : Sent k b.joined n (b.joined.sends k n)) : Sent k b (n + 1) (b.sends k (n + 1)) := by
  have hsend : b.send k = (b.joined, []) := by
    rw [send, if_neg (by omega)]
    rfl
  have hfill : b.fill + (n + 1) = b.joined.fill + n := by
    show _ = b.fill + 1 + n
    omega
  rw [sends, hsend, andThen_pure]
  refine ⟨by rw [hfill]; exact hrest.fill, hrest.fresh, fun hs => ?_, fun hl => ?_⟩
  · obtain ⟨hnone, hframes⟩ := hrest.short (hfill ▸ hs)
    refine ⟨hnone, fun _ => ?_⟩
    cases n with
    | zero => rfl
    | succ n => exact hframes (Nat.succ_pos n)
  · exact hrest.long (hfill ▸ hl)

theorem sends_spec {k : ℕ} (hk : 0 < k) (n : ℕ) {b : TxBlock} (h : b.Open k) :
    Sent k b n (b.sends k n) := by
  induction n generalizing b with
  | zero =>
      have hlt := h.lt
      refine ⟨(Nat.mod_eq_of_lt hlt).symm, h.fresh, fun _ => ⟨rfl, fun hn => absurd hn (lt_irrefl _)⟩, ?_⟩
      intro hle
      exact absurd hle (by omega)
  | succ n ih =>
      have hfills := h.lt
      by_cases hfull : b.fill + 1 = k
      · exact .closing h hfull (ih (Open.empty hk))
      · have hlt : b.fill + 1 < k := by omega
        exact .joining hlt (ih (h.joined hlt))

theorem foldr_max_concat (l : List ℕ) (x : ℕ) :
    (l ++ [x]).foldr max 0 = max (l.foldr max 0) x := by
  induction l with
  | nil => exact Nat.max_comm x 0
  | cons y l ih => rw [List.cons_append, List.foldr_cons, ih, List.foldr_cons, max_assoc]

/-- Where there is something to close, the threshold closes it. -/
theorem gate_eq {k : ℕ} (hk : 0 < k) (b : TxBlock) :
    b.gate k = if k ≤ b.fill * 2 then ({}, [b.frames]) else (b, []) := by
  rw [gate]
  by_cases hfull : k ≤ b.fill * 2
  · rw [if_pos (by omega), if_pos hfull, close, if_neg (by omega)]
  · rw [if_neg (by omega), if_neg hfull]

section Frame

variable {k : ℕ} (hk : 0 < k) {n : ℕ} (hn : 0 < n) {b : TxBlock} (h : b.Open k) (hnew : b.here = false)

include hn in
theorem frame_eq (k : ℕ) (b : TxBlock) : b.frame k n =
    ({ ((b.sends k n).1.gate k).1 with here := false }, (b.sends k n).2 ++ ((b.sends k n).1.gate k).2) := by
  obtain ⟨n, rfl⟩ := Nat.exists_eq_succ_of_ne_zero hn.ne'
  rw [frame, packets_eq]
  rfl

include hk hn h

/-- What is left over stays open unless it is enough. -/
theorem frame_fill :
    (b.frame k n).1.fill = if k ≤ (b.fill + n) % k * 2 then 0 else (b.fill + n) % k := by
  have hspec := sends_spec hk n h
  rw [frame_eq hn, gate_eq hk, hspec.fill]
  split
  · rfl
  · exact hspec.fill

/-- The block is ready for the next frame. -/
theorem frame_open : (b.frame k n).1.Open k ∧ (b.frame k n).1.here = false := by
  have hfill := frame_fill hk hn h
  have hspec := sends_spec hk n h
  have hlt := Nat.mod_lt (b.fill + n) hk
  refine ⟨⟨?_, fun h0 => ?_, fun hhere => ?_⟩, by rw [frame_eq hn]⟩
  · rw [hfill]
    split <;> omega
  · rw [frame_eq hn, gate_eq hk] at h0 ⊢
    split at h0
    case isTrue hfull => rw [if_pos hfull]
    case isFalse hfull =>
      rw [if_neg hfull]
      have hsent : (b.sends k n).1 = {} := hspec.fresh h0
      dsimp only
      rw [hsent]
  · rw [frame_eq hn] at hhere
    cases hhere

include hnew

/-- Every block that closes on the frame, the first apart, holds this frame only. -/
theorem frame_factor :
    (b.frame k n).2.foldr max 0 =
      if b.fill + n < k ∧ (b.fill + n) * 2 < k then 0 else b.frames + 1 := by
  have hspec := sends_spec hk n h
  have hcounted : b.counted = b.frames + 1 := by
    rw [counted, hnew]
    rfl
  rw [frame_eq hn, gate_eq hk, hspec.fill]
  rcases Nat.lt_or_ge (b.fill + n) k with hlt | hge
  · obtain ⟨hnone, hframes⟩ := hspec.short hlt
    rw [Nat.mod_eq_of_lt hlt, hnone]
    split
    · rw [if_neg (by omega), hframes hn, hcounted]
      rfl
    · rw [if_pos (by omega)]
      rfl
  · obtain ⟨hmax, hframes⟩ := hspec.long hge
    have hclosed : ¬(b.fill + n < k ∧ (b.fill + n) * 2 < k) := by omega
    rw [if_neg hclosed]
    by_cases hfull : k ≤ (b.fill + n) % k * 2
    · have hone : (b.sends k n).1.frames = 1 := hframes (by rw [hspec.fill]; omega)
      rw [if_pos hfull, hone, foldr_max_concat, hmax, hcounted]
      exact max_eq_left (Nat.le_add_left 1 _)
    · rw [if_neg hfull, List.append_nil, hmax, hcounted]

/-- Where no block is filled, the frame joins those in the block. -/
theorem frame_frames (hlt : b.fill + n < k) (hopen : (b.fill + n) * 2 < k) :
    (b.frame k n).1.frames = b.frames + 1 := by
  have hspec := sends_spec hk n h
  have hcounted : b.counted = b.frames + 1 := by
    rw [counted, hnew]
    rfl
  rw [frame_eq hn, gate_eq hk, hspec.fill, Nat.mod_eq_of_lt hlt, if_neg (by omega)]
  exact ((hspec.short hlt).2 hn).trans hcounted

end Frame

end TxBlock

/-! ## Side by side, frame by frame -/

/-- The packets of a frame are counted right, unless rounding up wraps: then one is counted. -/
theorem ppfMeas_cases {mtu size : ℕ} (hm : 0 < mtu) (hm' : mtu < 2 ^ 31) (hs : 0 < size)
    (hs' : size < 2 ^ 32) :
    (size + mtu ≤ 2 ^ 32 ∧ ppfMeas mtu size = packetsOf mtu size) ∨
      (2 ^ 32 < size + mtu ∧ ppfMeas mtu size = 1 ∧ 1 < packetsOf mtu size) := by
  have hone : 1 ≤ packetsOf mtu size := (Nat.one_le_div_iff hm).mpr (by omega)
  rw [ppfMeas]
  rcases Nat.lt_or_ge (2 ^ 32) (size + mtu) with hwrap | hfits
  · refine .inr ⟨hwrap, ?_, (Nat.le_div_iff_mul_le hm).mpr (by omega)⟩
    have hrest : (size + mtu - 1) % 2 ^ 32 = size + mtu - 1 - 2 ^ 32 := by
      rw [Nat.mod_eq_sub_mod (by omega), Nat.mod_eq_of_lt (by omega)]
    rw [hrest, Nat.div_eq_of_lt (by omega)]
    rfl
  · refine .inl ⟨hfits, ?_⟩
    rw [Nat.mod_eq_of_lt (by omega)]
    exact if_neg (not_lt.mpr hone)

/-- The probe and the transmitter agree before a frame. -/
structure InStep (k : ℕ) (s : DesyncProbe × TxBlock) : Prop where
  isOpen : s.2.Open k
  between : s.2.here = false
  fill : s.1.blockFill = s.2.fill
  frames : s.1.framesInBlk = s.2.frames

section Step

variable {k mtu size : ℕ} (hk : 0 < k) (hm : 0 < mtu ∧ mtu < 2 ^ 31) (hs : 0 < size ∧ size < 2 ^ 32)
  {s : DesyncProbe × TxBlock} (h : InStep k s)
include hk

theorem replay_eq (p : DesyncProbe) :
    p.replay k mtu size =
      if k ≤ (p.blockFill + ppfMeas mtu size) * 2 then ({}, p.framesInBlk + 1)
      else (⟨p.blockFill + ppfMeas mtu size, p.framesInBlk + 1⟩, 0) := by
  simp only [DesyncProbe.replay, Bool.or_eq_true, decide_eq_true_eq]
  split_ifs with hpos hclose hclose
  · rfl
  · omega
  · omega
  · rfl

include hm hs h

/-- After the frame they tell the same iff the frame fits. -/
theorem frame_agrees_iff :
    (s.1.replay k mtu size).1.blockFill = (s.2.frame k (packetsOf mtu size)).1.fill ∧
        (s.1.replay k mtu size).2 = (s.2.frame k (packetsOf mtu size)).2.foldr max 0 ↔
      DesyncFits k mtu s.1 size := by
  have hone : 0 < packetsOf mtu size := (Nat.one_le_div_iff hm.1).mpr (by omega)
  have hlt := Nat.mod_lt (s.2.fill + packetsOf mtu size) hk
  rw [TxBlock.frame_fill hk hone h.isOpen, TxBlock.frame_factor hk hone h.isOpen h.between,
    replay_eq hk, DesyncFits, h.fill, h.frames]
  rcases ppfMeas_cases hm.1 hm.2 hs.1 hs.2 with ⟨hfits, hmeas⟩ | ⟨hwrap, hmeas, htwo⟩
  all_goals
    rw [hmeas]
    rcases Nat.lt_or_ge (s.2.fill + packetsOf mtu size) k with hshort | hlong
  · rw [Nat.mod_eq_of_lt hshort]
    split_ifs <;> simp <;> omega
  · split_ifs <;> simp <;> omega
  · rw [Nat.mod_eq_of_lt hshort]
    split_ifs <;> simp <;> omega
  · split_ifs <;> simp <;> omega

/-- A frame that fits leaves them in step. -/
theorem inStep_next (hfits : DesyncFits k mtu s.1 size) :
    InStep k ((s.1.replay k mtu size).1, (s.2.frame k (packetsOf mtu size)).1) := by
  have hone : 0 < packetsOf mtu size := (Nat.one_le_div_iff hm.1).mpr (by omega)
  obtain ⟨hopen, hbetween⟩ := TxBlock.frame_open hk hone h.isOpen
  have hfill := ((frame_agrees_iff hk hm hs h).mpr hfits).1
  refine ⟨hopen, hbetween, hfill, ?_⟩
  dsimp only
  rw [replay_eq hk] at hfill ⊢
  by_cases hclose : k ≤ (s.1.blockFill + ppfMeas mtu size) * 2
  · rw [if_pos hclose] at hfill ⊢
    exact (congrArg TxBlock.frames (hopen.fresh hfill.symm)).symm
  · rw [if_neg hclose]
    rw [h.fill] at hclose
    rcases ppfMeas_cases hm.1 hm.2 hs.1 hs.2 with ⟨-, hmeas⟩ | ⟨hwrap, hmeas, -⟩
    · rw [hmeas] at hclose
      have hframes := TxBlock.frame_frames hk hone h.isOpen h.between (by omega) (by omega)
      rw [hframes]
      exact congrArg (· + 1) h.frames
    · -- a miscount only fits where the threshold is passed anyway
      rw [DesyncFits, h.fill] at hfits
      omega

end Step

theorem InStep.init {k : ℕ} (hk : 0 < k) : InStep k ({}, {}) := ⟨.empty hk, rfl, rfl, rfl⟩

/-- With a fixed live `k` and any packet budget, the probe tells the fill of the block and the
coalescing factor right over exactly the runs in which every frame fits. -/
theorem desync_iff {k : ℕ} (hk : 0 < k) {cfg : FecConfig} (hm : cfg.mtu < 2 ^ 31) {sizes : List ℕ}
    (hs : ∀ size ∈ sizes, 0 < size ∧ size < 2 ^ 32) :
    (∀ o ∈ (desyncMachine k (desyncMtu cfg)).trace ({}, {}) sizes, o.isTrue) ↔
      (desyncMachine k (desyncMtu cfg)).Meets (fun s size => DesyncFits k (desyncMtu cfg) s.1 size)
        ({}, {}) sizes := by
  have hmtu : 0 < desyncMtu cfg ∧ desyncMtu cfg < 2 ^ 31 := by
    rw [desyncMtu]
    split <;> omega
  refine Machine.forall_mem_trace_iff ?_ ?_ (InStep.init hk) (Machine.Meets.of_mem hs)
  · intro s size h hs hfits
    exact inStep_next hk hmtu hs h hfits
  · intro s size h hs
    exact (List.forall_mem_singleton ..).trans (frame_agrees_iff hk hmtu hs h)

/-- Frames of three packets in blocks of eight. -/
theorem desync_iff_small :
    (∀ o ∈ (desyncMachine (8 : ℕ) (desyncMtu {})).trace ({}, {}) [4000, 4000, 4000], o.isTrue) ↔
      (desyncMachine (8 : ℕ) (desyncMtu {})).Meets
        (fun s size => DesyncFits 8 (desyncMtu {}) s.1 size) ({}, {}) [4000, 4000, 4000] :=
  desync_iff (by decide) (by decide) (by decide)

/-- Nine packets in a block of eight: wfb_tx keeps the ninth in an open block, and its next block
holds two frames. -/
theorem not_desync :
    ¬∀ (k : ℕ) (cfg : FecConfig) (sizes : List ℕ), 0 < k → cfg.mtu < 2 ^ 31 →
      (∀ size ∈ sizes, 0 < size ∧ size < 2 ^ 32) →
      ∀ o ∈ (desyncMachine k (desyncMtu cfg)).trace ({}, {}) sizes, o.isTrue := by
  intro h
  have hrun := h 8 {} [13000, 4000] (by decide) (by decide) (by decide)
  exact absurd hrun (by decide)

end Waybeam.Vehicle
