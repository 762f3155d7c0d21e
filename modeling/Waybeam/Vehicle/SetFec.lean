/-
# `Waybeam.Vehicle.SetFec` — the pair a SET_FEC carries

Two paths send one:

    law        a sidecar frame commits a block: k is the packets the frame asks for, n what
               the redundancy curve makes of k, both brought between their limits
    operator   key 5 or 6: the pair wfb_tx holds, with one side replaced

The limits go up to 256 and the request has one byte for each side.  So wfb_tx gets the pair
that was meant, and the controller records the pair that was sent, over exactly the runs in
which no frame (`FecConfig.Fits`) and no command (`CommandFits`) brings a side to 256.
-/
import Waybeam.Vehicle.Dedup
import Waybeam.Vehicle.Override
import Waybeam.Vehicle.Ranges

namespace Waybeam.Vehicle

/-! ## Redundancy -/

/-- Interpolation stays between the bounds of the nodes. -/
theorem interpolateOn_mem {lo hi : ℚ} {k : ℤ} {r : ℚ} {curve : List (ℤ × ℚ)}
    (hcurve : ∀ p ∈ curve, lo ≤ p.2 ∧ p.2 ≤ hi) (h : interpolateOn k curve = some r) :
    lo ≤ r ∧ r ≤ hi := by
  induction curve with
  | nil => cases h
  | cons p rest ih =>
      obtain ⟨k0, r0⟩ := p
      cases rest with
      | nil => cases h
      | cons q rest =>
          obtain ⟨k1, r1⟩ := q
          have h0 := hcurve (k0, r0) List.mem_cons_self
          have h1 := hcurve (k1, r1) (List.mem_cons_of_mem _ List.mem_cons_self)
          rw [interpolateOn] at h
          split at h
          · next hk =>
              rw [← Option.some.inj h]
              have hup : (0 : ℚ) ≤ ((k - k0 : ℤ) : ℚ) := by exact_mod_cast sub_nonneg.mpr hk.1
              have hlen : ((k - k0 : ℤ) : ℚ) ≤ ((k1 - k0 : ℤ) : ℚ) := by
                exact_mod_cast sub_le_sub_right hk.2 k0
              generalize ht : ((k - k0 : ℤ) : ℚ) / ((k1 - k0 : ℤ) : ℚ) = t
              have ht0 : 0 ≤ t := ht ▸ div_nonneg hup (hup.trans hlen)
              have ht1 : t ≤ 1 := ht ▸ div_le_one_of_le₀ hlen (hup.trans hlen)
              constructor
              · nlinarith [mul_nonneg ht0 (sub_nonneg.mpr h1.1),
                  mul_nonneg (sub_nonneg.mpr ht1) (sub_nonneg.mpr h0.1)]
              · nlinarith [mul_nonneg ht0 (sub_nonneg.mpr h1.2),
                  mul_nonneg (sub_nonneg.mpr ht1) (sub_nonneg.mpr h0.2)]
          · exact ih (fun p hp => hcurve p (List.mem_cons_of_mem _ hp)) h

theorem interpolateRedundancy_mem (k : ℤ) :
    1 / 4 ≤ interpolateRedundancy k ∧ interpolateRedundancy k ≤ 1 / 2 := by
  have hcurve : ∀ p ∈ REDUNDANCY_CURVE, (1 / 4 : ℚ) ≤ p.2 ∧ p.2 ≤ 1 / 2 := by
    simp only [REDUNDANCY_CURVE, List.forall_mem_cons, List.not_mem_nil]
    norm_num
  rw [interpolateRedundancy]
  split_ifs
  · norm_num
  · norm_num
  · rcases h : interpolateOn k REDUNDANCY_CURVE with _ | r
    · norm_num
    · exact interpolateOn_mem hcurve h

theorem interpolateRedundancy_of_le {k : ℤ} (h : 48 ≤ k) : interpolateRedundancy k = 1 / 4 := by
  rw [interpolateRedundancy, if_neg (by omega), if_pos h]
  norm_num

/-- The packets the curve makes of `k`. -/
def curveN (k : ℤ) : ℤ := ⌈(k : ℚ) / (1 - interpolateRedundancy k)⌉

theorem lt_curveN {k : ℤ} (hk : 1 ≤ k) : k < curveN k := by
  obtain ⟨hlo, hhi⟩ := interpolateRedundancy_mem k
  have hpos : (0 : ℚ) < k := by exact_mod_cast hk
  rw [curveN, Int.lt_ceil, lt_div_iff₀ (by linarith)]
  nlinarith

/-- The curve leaves the byte above 191 packets. -/
theorem curveN_le_iff {k : ℤ} (hk : 1 ≤ k) : curveN k ≤ 255 ↔ k ≤ 191 := by
  obtain ⟨hlo, hhi⟩ := interpolateRedundancy_mem k
  have hpos : (0 : ℚ) < k := by exact_mod_cast hk
  rw [curveN, Int.ceil_le, div_le_iff₀ (by linarith)]
  by_cases hflat : 48 ≤ k
  · rw [interpolateRedundancy_of_le hflat]
    constructor
    · intro h
      have hq : (k : ℚ) * 4 ≤ 765 := by push_cast at h; linarith
      have hz : k * 4 ≤ 765 := by exact_mod_cast hq
      omega
    · intro h
      have hq : (k : ℚ) ≤ 191 := by exact_mod_cast h
      push_cast
      linarith
  · have hq : (k : ℚ) ≤ 47 := by exact_mod_cast (show k ≤ 47 by omega)
    refine iff_of_true ?_ (by omega)
    push_cast
    linarith

/-! ## Blocks -/

/-- The `k` of a block for a frame of `ppf` packets. -/
def blockK (cfg : FecConfig) (ppf : ℤ) : ℤ :=
  let k := clampInt cfg.minK cfg.maxK ppf
  if cfg.minK < cfg.maxN ∧ cfg.maxN ≤ k then cfg.maxN - 1 else k

/-- The `n` of a block of `k` packets. -/
def blockN (cfg : FecConfig) (k : ℤ) : ℤ :=
  let n := clampInt cfg.minN cfg.maxN (curveN k)
  if n ≤ k then k + 1 else n

theorem fecCompute_n (avgSize headroom : ℚ) (cfg : FecConfig) (currentPpf : ℤ) :
    (fecCompute avgSize headroom cfg currentPpf).n
      = blockN cfg (fecCompute avgSize headroom cfg currentPpf).k := by
  have hcap (k : ℤ) : ¬interpolateRedundancy k > 99 / 100 := by
    have h := (interpolateRedundancy_mem k).2
    linarith
  simp only [fecCompute, hcap, if_false]
  rfl

/-- A frame of `ppf` packets makes a block that fits in two bytes: with `max_n` in the byte
only `max_n + 1` could leave it, with `max_n = 256` the curve must not. -/
def FecConfig.Fits (cfg : FecConfig) (ppf : ℤ) : Prop :=
  if cfg.maxN ≤ 255 then cfg.minK < cfg.maxN ∨ cfg.maxK ≤ 254 ∨ (cfg.minK ≤ 254 ∧ ppf ≤ 254)
  else cfg.minN ≤ 255 ∧ (cfg.maxK ≤ 191 ∨ (cfg.minK ≤ 191 ∧ ppf ≤ 191))

theorem one_le_blockK {c : Config} (h : c.FecRange) (ppf : ℤ) : 1 ≤ blockK c.fec ppf := by
  have hminK := h.minK
  have hmaxK := h.maxK
  simp only [blockK, clampInt]
  split_ifs <;> omega

theorem lt_blockN (cfg : FecConfig) (k : ℤ) : k < blockN cfg k := by
  simp only [blockN]
  split_ifs <;> omega

theorem blockN_le_iff {c : Config} (h : c.FecRange) (ppf : ℤ) :
    blockN c.fec (blockK c.fec ppf) ≤ 255 ↔ c.fec.Fits ppf := by
  have hk := one_le_blockK h ppf
  have hgt := lt_curveN hk
  have hbyte := curveN_le_iff hk
  obtain ⟨hminK, hmaxK, hminN, hmaxN, -⟩ := h
  rw [blockN]
  generalize hm : curveN (blockK c.fec ppf) = m at hgt hbyte ⊢
  generalize hkk : blockK c.fec ppf = k at hk hgt hbyte ⊢
  simp only [blockK, clampInt] at hkk
  simp only [FecConfig.Fits, clampInt]
  split_ifs at hkk ⊢ <;> omega

/-! ## What a step sends -/

/-- A SET_FEC. -/
def Obs.isSetFec : Obs → Bool
  | .lawFec .. | .operatorFec .. => true
  | _ => false

theorem isSetFec_of_isBudget {o : Obs} (h : o.isBudget) : o.isSetFec = false := by
  cases o <;> first | rfl | cases h

theorem setFec_none {os : List Obs} (h : ∀ o ∈ os, o.isSetFec = false) :
    os.filter Obs.isSetFec = [] :=
  List.filter_eq_nil_iff.mpr fun o ho => Bool.eq_false_iff.mp (h o ho)

/-! ### The law -/

/-- The packets a frame asks for: the average size, or what the committed bitrate makes of
one frame, with the headroom. -/
def Controller.asks (c : Controller) (cfg : FecConfig) (ring : HeadroomRing) (fps : ℚ)
    (committedKbps : ℤ) : ℤ :=
  let headroom := computeHeadroom ring cfg.headroomMargin cfg.headroomMin cfg.headroomMax
  let ffBytes : ℚ := (committedKbps : ℚ) * 1000 / 8 / fps
  let ffActive := cfg.blocksizeFeedforward && decide (0 < committedKbps) &&
    decide (1 / 10 < fps) && decide (0 < ffBytes)
  fecPacketsPerFrame ((if ffActive then ffBytes else c.avgFrameSize) * headroom) cfg
    ((c.current.map (·.packetsPerFrame)).getD 0)

/-- The packets a clean frame asks for. -/
def Lc.blockAsks (s : Lc) (frameSize now : ℕ) (fps : ℚ) : ℤ :=
  let (c, ring) := s.fec.ctrl.intake s.cfg.fec frameSize s.ring now
  c.asks s.cfg.fec ring fps s.fec.lastWrittenKbps

/-- The packets a sidecar frame asks for. -/
def Lc.frameAsks (s : Lc) (d : SidecarDgram) (nowFec : ℕ) : ℤ :=
  s.blockAsks d.frameSizeBytes nowFec (s.fps.feed d.frameReadyUs).get

/-- The SET_FEC of a frame that asks for `ppf` packets. -/
def Lc.blockFec (s : Lc) (ppf : ℤ) (sent : Bool) : Obs :=
  .lawFec (blockK s.cfg.fec ppf) (blockN s.cfg.fec (blockK s.cfg.fec ppf)) sent

/-- A block is committed as it was computed. -/
theorem Controller.judge_some {c : Controller} {cfg : FecConfig} {now : ℕ} {cand p : FecParams}
    {ffActive : Bool} {committedKbps : ℤ}
    (h : (c.judge cfg now cand ffActive committedKbps).2 = some p) : p = cand := by
  have hhyst (c : Controller) (cur : FecParams) (h : (c.hysteresis cfg now cand cur).2 = some p) :
      p = cand := by
    rw [hysteresis] at h
    dsimp only at h
    split_ifs at h
    all_goals exact (Option.some.inj h).symm
  rw [judge] at h
  dsimp only at h
  split at h
  · split at h
    · cases h
    · exact (Option.some.inj h).symm
  · split at h
    · split at h
      · exact (Option.some.inj h).symm
      · cases h
    · split at h
      · cases h
      · split at h
        · split at h
          · cases h
          · exact (Option.some.inj h).symm
        · exact hhyst _ _ h

/-- The pair on record after a SET_FEC. -/
def recordFec : ℤ × ℤ → Obs → ℤ × ℤ
  | _, .lawFec k n true => (k, n)
  | pair, _ => pair

/-- The SET_FECs of a path, and that it records nothing else. -/
def SendsFec (s : Lc) (os : List Obs) (r : Lc × List Obs) : Prop :=
  r.2.filter Obs.isSetFec = os ∧ r.1.lastWrittenFec = os.foldl recordFec s.lastWrittenFec

theorem blockDue_eq (s : Lc) (frameSize now : ℕ) (fps : ℚ) :
    s.blockDue frameSize now fps = (controllerUpdate s.fec.ctrl s.cfg.fec frameSize s.ring now fps
      s.fec.lastWrittenKbps).2.2.isSome :=
  (Controller.judge_isSome ..).symm

/-- A tick commits the block its frame asks for. -/
theorem controllerUpdate_some {s : Lc} {frameSize now : ℕ} {fps : ℚ} {p : FecParams}
    (h : (controllerUpdate s.fec.ctrl s.cfg.fec frameSize s.ring now fps
      s.fec.lastWrittenKbps).2.2 = some p) (sent : Bool) :
    s.blockFec (s.blockAsks frameSize now fps) sent = .lawFec p.k p.n sent := by
  rw [Controller.judge_some h]
  exact congrArg (Obs.lawFec _ · sent) (fecCompute_n _ _ _ _).symm

theorem cleanFrame_fec (s : Lc) (frameSize now : ℕ) (setFec venc : Bool) :
    SendsFec s
      (if !s.cfg.dryRun && s.blockDue frameSize now s.fps.get
        then [s.blockFec (s.blockAsks frameSize now s.fps.get) setFec] else [])
      (s.cleanFrame frameSize now setFec venc) := by
  have hbudget (s' : Lc) : (s'.assertBitrate now venc).2.filter Obs.isSetFec = [] :=
    setFec_none fun o ho => isSetFec_of_isBudget (assertBitrate_emits s' now venc o ho)
  rw [blockDue_eq, Lc.cleanFrame]
  dsimp only
  rcases h : (controllerUpdate s.fec.ctrl s.cfg.fec frameSize s.ring now s.fps.get
    s.fec.lastWrittenKbps).2.2 with _ | p
  · rw [Option.isSome_none, Bool.and_false]
    exact ⟨rfl, rfl⟩
  · dsimp only
    rw [controllerUpdate_some h, Option.isSome_some, Bool.and_true, SendsFec, andThen, Lc.sendFec,
      List.filter_append, hbudget]
    dsimp only
    cases s.cfg.dryRun
    · cases setFec <;> exact ⟨rfl, rfl⟩
    · exact ⟨rfl, rfl⟩

theorem skipped_fec (s : Lc) (now : ℕ) (venc : Bool) : SendsFec s [] (s.skipped now venc) := by
  rw [Lc.skipped]
  dsimp only
  split
  · split
    · refine ⟨setFec_none ?_, rfl⟩
      intro o ho
      obtain ⟨req, rfl⟩ := vencApply_obs ho
      rfl
    · exact ⟨rfl, rfl⟩
  · exact ⟨rfl, rfl⟩

/-- A path that sends none comes first. -/
theorem SendsFec.andThen {s : Lc} {os : List Obs} {r : Lc × List Obs} {k : Lc → Lc × List Obs}
    (h : SendsFec s [] r) (hk : SendsFec r.1 os (k r.1)) : SendsFec s os (andThen r k) := by
  refine ⟨?_, hk.2.trans (congrArg (os.foldl recordFec) h.2)⟩
  show (r.2 ++ (k r.1).2).filter Obs.isSetFec = os
  rw [List.filter_append, h.1, hk.1, List.nil_append]

theorem heard_fec (s : Lc) (d : SidecarDgram) (now : ℕ) : SendsFec s [] (s.heard d now) := by
  rw [Lc.heard, Lc.readTransport]
  split_ifs <;> exact ⟨rfl, rfl⟩

/-- The SET_FEC of a sidecar datagram, if it makes the law send one. -/
def Lc.frameFec (s : Lc) (d : SidecarDgram) (nowFec : ℕ) (sent : Bool) : List Obs :=
  if s.frameSends d nowFec then [s.blockFec (s.frameAsks d nowFec) sent] else []

theorem sidecar_fec (s : Lc) (d : SidecarDgram) (now nowFec : ℕ) (setFec venc : Bool) :
    SendsFec s (s.frameFec d nowFec setFec) (s.sidecar d now nowFec setFec venc) := by
  obtain ⟨-, hcfg, hfec, hring, hfps⟩ := heard_spec s d now
  unfold Lc.sidecar Lc.sizeTick Lc.frameFec Lc.frameSends
  cases s.hears d
  · exact ⟨rfl, rfl⟩
  cases d.hasSize
  · exact (heard_fec s d now).andThen (k := fun s' => (s', [])) ⟨rfl, rfl⟩
  cases s.skipFec d
  · simp only [Bool.not_true, Bool.not_false, Bool.true_and, Bool.false_eq_true, if_false]
    refine (heard_fec s d now).andThen ?_
    have h := cleanFrame_fec (s.heard d now).1 d.frameSizeBytes nowFec setFec venc
    unfold Lc.blockDue Lc.blockAsks Lc.blockFec at h
    rw [hcfg, hfec, hring, hfps] at h
    exact h
  · exact (heard_fec s d now).andThen (k := fun s' => s'.skipped nowFec venc) (skipped_fec ..)

/-! ### The operator -/

/-- A dispatch sends at most the SET_FEC of a command for the pair. -/
theorem wcmdSends_fec (cfg : Config) (air : RadioBody) (key : WcmdKey) (value : ℤ) (now : ℕ)
    (io : CmdIo) :
    (wcmdSends cfg air key value now io).filter Obs.isSetFec
      = if cfg.dryRun = false ∧ (key = .wfbFecK ∨ key = .wfbFecN) then wcmdFecObs key value io
        else [] := by
  have hfec (key : WcmdKey) :
      (wcmdFecObs key value io).filter Obs.isSetFec = wcmdFecObs key value io := by
    rw [wcmdFecObs]
    split
    · rfl
    · dsimp only
      split_ifs <;> rfl
  cases hd : cfg.dryRun <;> cases key <;>
    simp only [wcmdSends, hd, hfec, if_true, if_false, Bool.false_eq_true, true_and, false_and,
      reduceCtorEq, or_true, or_false]
  all_goals first
    | rfl
    | (split <;> rfl)

/-- The SET_FEC of a dispatch. -/
def fecCommand (cfg : Config) (st : WcmdState) (req : WcmdReq) (peerIsLoopback : Bool) (now : ℕ)
    (io : CmdIo) : List Obs :=
  match wcmdPasses cfg st req peerIsLoopback now with
  | none => []
  | some (key, value) =>
      if cfg.dryRun = false ∧ (key = .wfbFecK ∨ key = .wfbFecN) then wcmdFecObs key value io else []

theorem wcmdDispatch_fec (cfg : Config) (st : WcmdState) (air : RadioBody) (req : WcmdReq)
    (peerIsLoopback : Bool) (now : ℕ) (io : CmdIo) :
    (wcmdDispatch cfg st air req peerIsLoopback now io).obs.filter Obs.isSetFec
      = fecCommand cfg st req peerIsLoopback now io := by
  rw [wcmdDispatch_obs, fecCommand]
  cases wcmdPasses cfg st req peerIsLoopback now with
  | none => rfl
  | some c => exact wcmdSends_fec ..

/-! ### A step -/

/-- The SET_FECs of an event. -/
def Lc.setFecs (s : Lc) : Event → List Obs
  | .sidecar dt dt₁ d setFec _ => s.frameFec d (s.clock + dt + dt₁) setFec
  | .httpCmd dt key value io =>
      if key < 1 ∨ 20 < key then []
      else
        fecCommand s.cfg s.wcmd ⟨s.localCmdSeq + 1, u8 key, i32 value⟩ true (s.clock + dt) io
  | .wcmd dt _ _ req loop io =>
      if !s.rxAntOpen then [] else fecCommand s.cfg s.wcmd req loop (s.clock + dt) io
  | _ => []

theorem handle_setFecs (s : Lc) (e : Event) : (s.handle e).2.filter Obs.isSetFec = s.setFecs e := by
  cases e with
  | sidecar dt dt₁ d setFec venc => exact (sidecar_fec ..).1
  | httpCmd dt key value io =>
      simp only [Lc.handle, Lc.httpCmd, Lc.setFecs]
      split
      · rfl
      · exact wcmdDispatch_fec ..
  | wcmd dt dt₁ dt₂ req loop io =>
      simp only [Lc.handle, Lc.wcmdFrame, Lc.setFecs]
      split
      · rfl
      · exact wcmdDispatch_fec ..
  | _ =>
      refine setFec_none ?_
      intro o ho
      have he := handle_emits s _ o ho
      cases o <;> first | rfl | cases he

/-- The pair a `tx_stats` datagram reports. -/
def Event.reportedFec : Event → Option (ℤ × ℤ)
  | .txStats _ _ d _ => some (i32 (d.fecK.getD (-1)), i32 (d.fecN.getD (-1)))
  | _ => none

/-- No operator's pair goes on record. -/
theorem fecCommand_record (cfg : Config) (st : WcmdState) (req : WcmdReq) (peerIsLoopback : Bool)
    (now : ℕ) (io : CmdIo) (pair : ℤ × ℤ) :
    (fecCommand cfg st req peerIsLoopback now io).foldl recordFec pair = pair := by
  rw [fecCommand]
  split
  · rfl
  · split
    · rw [wcmdFecObs]
      split
      · rfl
      · dsimp only
        split_ifs <;> rfl
    · rfl

theorem handle_recordFec (s : Lc) (e : Event) :
    (s.handle e).1.lastWrittenFec = (s.setFecs e).foldl recordFec s.lastWrittenFec ∨
      e.reportedFec = some (s.handle e).1.lastWrittenFec := by
  cases e with
  | sidecar dt dt₁ d setFec venc => exact .inl (sidecar_fec ..).2
  | txStats dt dt₁ d venc =>
      simp only [Lc.handle, Lc.txStats]
      split
      · exact .inl rfl
      · split
        · exact .inl rfl
        · simp only [andThen, Lc.assertBitrate, radioTrackExternalFec]
          split
          · exact .inl rfl
          · exact .inr rfl
  | httpCmd dt key value io =>
      refine .inl ((congrArg Sensors.lastWrittenFec (command_sensors rfl rfl s)).trans ?_)
      simp only [Lc.setFecs]
      split
      · rfl
      · exact (fecCommand_record ..).symm
  | wcmd dt dt₁ dt₂ req loop io =>
      refine .inl ((congrArg Sensors.lastWrittenFec (command_sensors rfl rfl s)).trans ?_)
      simp only [Lc.setFecs]
      split
      · rfl
      · exact (fecCommand_record ..).symm
  | pendingTick | watchdog | rxAnt =>
      exact .inl (congrArg Sensors.lastWrittenFec (handle_sensors rfl rfl s))
  | probeTick dt acked =>
      simp only [Lc.handle, Lc.probeTick]
      split_ifs <;> exact .inl rfl
  | subscribe dt =>
      simp only [Lc.handle, Lc.subscribe]
      split_ifs <;> exact .inl rfl
  | radioPoll dt getRadio venc =>
      simp only [Lc.handle, Lc.radioPoll]
      split_ifs <;> exact .inl rfl
  | stale dt =>
      simp only [Lc.handle, Lc.stale]
      split_ifs <;> exact .inl rfl
  | probeRec dt r =>
      simp only [Lc.handle, Lc.probeRec]
      split_ifs <;> exact .inl rfl
  | httpSet qs => exact .inl rfl
  | external air => exact .inl rfl

/-! ## Valid pairs -/

/-- The two bytes of a SET_FEC. -/
def wireFec (k n : ℤ) : ℤ × ℤ := ((u8 k).toNat, (u8 n).toNat)

/-- The check of wfb_tx. -/
def wfbTxAccepts (p : ℤ × ℤ) : Prop := p.1 ≤ p.2 ∧ 1 ≤ p.1 ∧ 1 ≤ p.2 ∧ p.2 < 256

/-- The pair is one, the bytes say it, and wfb_tx takes them. -/
def PairValid (k n : ℤ) : Prop :=
  (1 ≤ k ∧ k ≤ n ∧ n ≤ 255) ∧ wireFec k n = (k, n) ∧ wfbTxAccepts (wireFec k n)

instance (k n : ℤ) : Decidable (PairValid k n) :=
  inferInstanceAs (Decidable (_ ∧ _ ∧ _ ∧ _ ∧ _ ∧ _))

theorem pairValid_iff (k n : ℤ) : PairValid k n ↔ 1 ≤ k ∧ k ≤ n ∧ n ≤ 255 := by
  refine ⟨And.left, ?_⟩
  intro h
  have hwire : wireFec k n = (k, n) :=
    Prod.ext (u8_toNat (by omega) (by omega)) (u8_toNat (by omega) (by omega))
  refine ⟨h, hwire, ?_⟩
  rw [hwire]
  exact ⟨h.2.1, h.1, by omega, by omega⟩

/-- The pair of a SET_FEC is valid. -/
def Obs.FecValid : Obs → Prop
  | .lawFec k n _ | .operatorFec k n _ => PairValid k n
  | _ => True

instance : ∀ o : Obs, Decidable o.FecValid
  | .lawFec k n _ | .operatorFec k n _ => inferInstanceAs (Decidable (PairValid k n))
  | .setRadio .. | .adopted _ | .radioSeen _ | .venc .. | .asserted .. | .preDrop .. | .queued ..
  | .trailer .. | .selectorUpdate .. | .rolledBack | .failsafe .. | .subscribe _ | .setProbe .. =>
      inferInstanceAs (Decidable True)

/-- The bytes last sent. -/
def sentFec : ℤ × ℤ → Obs → ℤ × ℤ
  | _, .lawFec k n true => wireFec k n
  | pair, _ => pair

/-- Every SET_FEC of the step is valid; what is on record afterwards is what was there, what was
sent, or what wfb_tx reports of itself. -/
def FecSound (s : Lc) (e : Event) : Prop :=
  (∀ o ∈ (machine.step s e).2, o.FecValid) ∧
    ((machine.step s e).1.lastWrittenFec = (machine.step s e).2.foldl sentFec s.lastWrittenFec ∨
      e.reportedFec = some (machine.step s e).1.lastWrittenFec)

instance (s : Lc) (e : Event) : Decidable (FecSound s e) :=
  inferInstanceAs (Decidable (_ ∧ _))

/-- Where the pairs are valid, what is recorded is what is sent. -/
theorem foldl_sentFec {os : List Obs} (h : ∀ o ∈ os, o.FecValid) (pair : ℤ × ℤ) :
    os.foldl sentFec pair = (os.filter Obs.isSetFec).foldl recordFec pair := by
  induction os generalizing pair with
  | nil => rfl
  | cons o os ih =>
      have hrest := ih fun o ho => h o (List.mem_cons_of_mem _ ho)
      have ho := h o List.mem_cons_self
      cases o with
      | lawFec k n sent =>
          rw [List.filter_cons_of_pos rfl, List.foldl_cons, List.foldl_cons]
          cases sent
          · exact hrest pair
          · rw [show sentFec pair (.lawFec k n true) = (k, n) from ho.2.1]
            exact hrest (k, n)
      | operatorFec k n sent =>
          rw [List.filter_cons_of_pos rfl]
          exact hrest pair
      | _ =>
          rw [List.filter_cons_of_neg Bool.false_ne_true]
          exact hrest pair

/-- A step is sound iff its SET_FECs are valid. -/
theorem fecSound_iff (s : Lc) (e : Event) : FecSound s e ↔ ∀ o ∈ s.setFecs e, o.FecValid := by
  have hvalid : (∀ o ∈ (machine.step s e).2, o.FecValid) ↔ ∀ o ∈ s.setFecs e, o.FecValid := by
    rw [← handle_setFecs]
    constructor
    · intro h o ho
      exact h o (List.mem_filter.mp ho).1
    · intro h o ho
      by_cases hset : o.isSetFec = true
      · exact h o (List.mem_filter.mpr ⟨ho, hset⟩)
      · cases o <;> first | exact trivial | exact absurd rfl hset
  constructor
  · intro h
    exact hvalid.mp h.1
  · intro h
    have hall := hvalid.mpr h
    refine ⟨hall, ?_⟩
    rw [foldl_sentFec hall]
    show _ = ((s.handle e).2.filter Obs.isSetFec).foldl recordFec _ ∨ _
    rw [handle_setFecs]
    exact handle_recordFec s e

/-! ## When they are -/

/-- A command for `k` finds an `n` in the byte to stay under; one for `n` asks for one, and finds
a `k` that is positive. -/
def CommandFits (cfg : Config) (st : WcmdState) (req : WcmdReq) (peerIsLoopback : Bool) (now : ℕ)
    (io : CmdIo) : Prop :=
  ∀ key value kNow nNow, wcmdPasses cfg st req peerIsLoopback now = some (key, value) →
    cfg.dryRun = false → io.getFec = some (kNow, nNow) →
    (key = .wfbFecK → value ≤ nNow → nNow ≤ 255) ∧
      (key = .wfbFecN → kNow ≤ value → 1 ≤ kNow ∧ value ≤ 255)

/-- The frames and commands of the step fit in the bytes. -/
def FecFits (s : Lc) : Event → Prop
  | .sidecar dt dt₁ d _ _ =>
      s.frameSends d (s.clock + dt + dt₁) → s.cfg.fec.Fits (s.frameAsks d (s.clock + dt + dt₁))
  | .httpCmd dt key value io =>
      1 ≤ key → key ≤ 20 →
        CommandFits s.cfg s.wcmd ⟨s.localCmdSeq + 1, u8 key, i32 value⟩ true (s.clock + dt) io
  | .wcmd dt _ _ req loop io => s.rxAntOpen → CommandFits s.cfg s.wcmd req loop (s.clock + dt) io
  | _ => True

theorem wcmdPasses_clamp {cfg : Config} {st : WcmdState} {req : WcmdReq} {peerIsLoopback : Bool}
    {now : ℕ} {key : WcmdKey} {value : ℤ}
    (h : wcmdPasses cfg st req peerIsLoopback now = some (key, value)) :
    wcmdClampValue cfg key req.value = some value := by
  rw [wcmdPasses] at h
  obtain ⟨k, -, h⟩ := Option.bind_eq_some_iff.mp h
  obtain ⟨v, hv, h⟩ := Option.map_eq_some_iff.mp h
  obtain ⟨rfl, rfl⟩ := Prod.mk.inj h
  rw [wcmdGateValue] at hv
  split at hv
  · cases hv
  · obtain ⟨w, hw, hv⟩ := Option.bind_eq_some_iff.mp hv
    split at hv
    · cases hv
    · rw [hw, hv]

/-- A value for `k` is at least the least one accepted. -/
theorem wcmdClampValue_fecK {cfg : Config} {raw value : ℤ}
    (h : wcmdClampValue cfg .wfbFecK raw = some value) : cfg.cmd.wfbFecKMin ≤ value := by
  simp only [wcmdClampValue, wcmdWindow, reduceCtorEq, if_false] at h
  split at h
  · cases h
  · rw [← Option.some.inj h]
    split_ifs <;> omega

/-- The pair a command writes is valid iff it fits. -/
theorem wcmdFecObs_valid_iff {key : WcmdKey} {value kNow nNow : ℤ} {io : CmdIo}
    (hget : io.getFec = some (kNow, nNow)) (hkey : key = .wfbFecK ∨ key = .wfbFecN)
    (hone : key = .wfbFecK → 1 ≤ value) :
    (∀ o ∈ wcmdFecObs key value io, o.FecValid) ↔
      (key = .wfbFecK → value ≤ nNow → nNow ≤ 255) ∧
        (key = .wfbFecN → kNow ≤ value → 1 ≤ kNow ∧ value ≤ 255) := by
  have hpair (k n : ℤ) : (∀ o ∈ (if n < k then [] else [.operatorFec k n io.setFec] : List Obs),
      o.FecValid) ↔ (k ≤ n → 1 ≤ k ∧ n ≤ 255) := by
    split
    · next h => exact iff_of_true (fun o ho => absurd ho List.not_mem_nil) (by omega)
    · next h =>
        rw [List.forall_mem_singleton]
        show PairValid k n ↔ _
        rw [pairValid_iff]
        omega
  rw [wcmdFecObs, hget]
  rcases hkey with rfl | rfl
  · have h1 := hone rfl
    refine (hpair value nNow).trans ?_
    simp only [reduceCtorEq, false_implies, and_true, true_implies]
    exact ⟨fun h hle => (h hle).2, fun h hle => ⟨h1, h hle⟩⟩
  · refine (hpair kNow value).trans ?_
    simp only [reduceCtorEq, false_implies, true_and, true_implies]

theorem fecCommand_valid_iff {cfg : Config} (hc : cfg.FecRange) (st : WcmdState) (req : WcmdReq)
    (peerIsLoopback : Bool) (now : ℕ) (io : CmdIo) :
    (∀ o ∈ fecCommand cfg st req peerIsLoopback now io, o.FecValid) ↔
      CommandFits cfg st req peerIsLoopback now io := by
  rw [fecCommand, CommandFits]
  cases hpass : wcmdPasses cfg st req peerIsLoopback now with
  | none => simp
  | some c =>
      obtain ⟨key, value⟩ := c
      have hone : key = .wfbFecK → 1 ≤ value := by
        rintro rfl
        exact hc.wfbFecKMin.trans (wcmdClampValue_fecK (wcmdPasses_clamp hpass))
      cases hget : io.getFec with
      | none => simp [wcmdFecObs, hget]
      | some pair =>
          obtain ⟨kNow, nNow⟩ := pair
          dsimp only
          split
          · next h =>
              rw [wcmdFecObs_valid_iff hget h.2 hone]
              constructor
              · rintro hfits _ _ _ _ ⟨⟩ - ⟨⟩
                exact hfits
              · intro hfits
                exact hfits key value kNow nNow rfl h.1 rfl
          · next h =>
              refine iff_of_true (fun o ho => absurd ho List.not_mem_nil) ?_
              rintro _ _ _ _ ⟨⟩ hd ⟨⟩
              exact ⟨fun hk => absurd ⟨hd, .inl hk⟩ h, fun hk => absurd ⟨hd, .inr hk⟩ h⟩

theorem frameFec_valid_iff {s : Lc} (hc : s.cfg.FecRange) (d : SidecarDgram) (nowFec : ℕ)
    (sent : Bool) :
    (∀ o ∈ s.frameFec d nowFec sent, o.FecValid) ↔
      (s.frameSends d nowFec → s.cfg.fec.Fits (s.frameAsks d nowFec)) := by
  rw [Lc.frameFec]
  split
  · next h =>
      rw [List.forall_mem_singleton, ← blockN_le_iff hc]
      show PairValid _ _ ↔ _
      rw [pairValid_iff]
      have hlt := lt_blockN s.cfg.fec (blockK s.cfg.fec (s.frameAsks d nowFec))
      have hone := one_le_blockK hc (s.frameAsks d nowFec)
      constructor
      · intro hv _
        exact hv.2.2
      · intro hv
        exact ⟨hone, hlt.le, hv h⟩
  · next h =>
      exact iff_of_true (fun o ho => absurd ho List.not_mem_nil) (fun hs => absurd hs h)

theorem fecSound_iff_fits {s : Lc} (hc : s.cfg.FecRange) (e : Event) : FecSound s e ↔ FecFits s e := by
  rw [fecSound_iff]
  cases e with
  | sidecar dt dt₁ d setFec venc => exact frameFec_valid_iff hc d _ setFec
  | httpCmd dt key value io =>
      simp only [Lc.setFecs, FecFits]
      split
      · exact iff_of_true (fun o ho => absurd ho List.not_mem_nil) (by omega)
      · next hkey =>
          rw [fecCommand_valid_iff hc]
          exact ⟨fun h _ _ => h, fun h => h (by omega) (by omega)⟩
  | wcmd dt dt₁ dt₂ req loop io =>
      simp only [Lc.setFecs, FecFits]
      cases s.rxAntOpen
      · exact iff_of_true (fun o ho => absurd ho List.not_mem_nil) (fun h => absurd h Bool.false_ne_true)
      · exact (fecCommand_valid_iff hc ..).trans ⟨fun h _ => h, fun h => h rfl⟩
  | _ => exact iff_of_true (fun o ho => absurd ho List.not_mem_nil) trivial

/-- From limits in range, every SET_FEC of a run is valid and recorded as sent iff the frames
and commands of the run fit in the bytes. -/
theorem set_fec_iff (b : Boot) (hb : b.cfg.FecRange) (es : List Event) :
    machine.Meets FecSound b.init es ↔ machine.Meets FecFits b.init es := by
  have hinv (s : Lc) (e : Event) (hc : s.cfg.FecRange) (_ : True) (_ : FecFits s e) :
      (machine.step s e).1.cfg.FecRange := handle_live Config.fecRange_live hc e
  have hiff (s : Lc) (e : Event) (hc : s.cfg.FecRange) (_ : True) : FecSound s e ↔ FecFits s e :=
    fecSound_iff_fits hc e
  exact Machine.Meets.iff_of_inv hinv hiff (Boot.init_fecRange hb)
    (Machine.Meets.of_forall fun _ _ => trivial)

/-- A boot with the configuration that a sequence of writes makes of the defaults. -/
def Boot.tuned (qs : List (String × TunableVal)) (air : RadioBody) : Boot where
  cfg := applyQuery {} qs
  inRange := applyQuery_preserves TUNABLES_keep Config.default_inRange qs
  now := 1000000
  air := air

theorem Boot.tuned_fecRange (qs : List (String × TunableVal)) (air : RadioBody) :
    (Boot.tuned qs air).cfg.FecRange :=
  applyQuery_preserves TUNABLES_fecRange Config.default_fecRange qs

/-- The default limits leave room for every frame. -/
theorem set_fec_default :
    machine.Meets FecSound (Boot.tuned [("fec.startup_grace_s", .float 0)] {}).init
      [.sidecar 1000 0 (SidecarDgram.sized 1000000 12000) true true] :=
  (set_fec_iff _ (Boot.tuned_fecRange _ _) _).mpr ⟨fun _ => .inl (by decide +kernel), trivial⟩

/-- With `max_n` and `min_n` at 256 a block says 0 on the wire. -/
theorem set_fec_broken :
    ¬∀ (qs : List (String × TunableVal)) (air : RadioBody) (is : List Iter),
      machine.Meets FecSound (Boot.tuned qs air).init (loopRun is) := by
  intro hall
  have hrun := hall
    [("fec.max_n", .int 256), ("fec.min_n", .int 256), ("fec.startup_grace_s", .float 0)]
    { bandwidth := 20, mcsIndex := 3 }
    [{ dt := 1000, served := [.sidecar 0 0 (SidecarDgram.sized 1000000 12000) true true] }]
  revert hrun
  decide +kernel

end Waybeam.Vehicle
