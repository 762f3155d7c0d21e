/-
# `Waybeam.Vehicle.Encoder` — how the paths reach the encoder

Four writers share the encoder.  Two of them are `bitrate_assert`, called for the radio in force
or, by the pre-drop, for the one to come; the other two pass its record of what it wrote by.

    cleanFrame, txStats, radioPoll     bitrate_assert, on the state's own radio
    watchdog, rxAnt                    the pre-drop's, when the commit is deferred
    sidecar, skipped                   the wedge watchdog
    httpCmd, wcmd                      the operator

`EncCall` is what the first five do: at most one call, with what was written before as its
record, and nothing else that concerns the encoder.
-/
import Waybeam.Vehicle.Frame

namespace Waybeam.Vehicle

/-- What the controller believes it wrote last. -/
def FecState.mirrors (f : FecState) : ℤ × ℤ := (f.lastWrittenKbps, f.lastWrittenPayload)

/-- An observation about the encoder. -/
def Obs.isEncoder : Obs → Bool
  | .asserted .. | .venc .. => true
  | _ => false

theorem Obs.isEncoder_of_isBudget {o : Obs} (h : o.isBudget) : o.isEncoder := by
  cases o <;> first | rfl | exact absurd h Bool.false_ne_true

/-- A path from `s` leaves the encoder alone, or calls `bitrate_assert` once. -/
inductive EncCall (s : Lc) (r : Lc × List Obs) : Prop where
  | idle (hobs : r.2.filter Obs.isEncoder = []) (hf : r.1.fec.mirrors = s.fec.mirrors)
  | assert (radio : RadioState) (f : FecState) (now : ℕ) (answer : Bool)
      (hf : f.mirrors = s.fec.mirrors)
      (hobs : r.2.filter Obs.isEncoder = (bitrateAssert radio s.cfg f now answer).2)
      (hr : r.1.fec = (bitrateAssert radio s.cfg f now answer).1)

theorem bitrateAssert_encoder (radio : RadioState) (cfg : Config) (f : FecState) (now : ℕ)
    (answer : Bool) :
    (bitrateAssert radio cfg f now answer).2.filter Obs.isEncoder
      = (bitrateAssert radio cfg f now answer).2 :=
  List.filter_eq_self.mpr fun o ho =>
    Obs.isEncoder_of_isBudget (bitrateAssert_obs radio cfg f now answer o ho)

theorem encoder_of_emits {P : Obs → Bool} {r : Lc × List Obs} (h : Emits P r)
    (hP : ∀ o, P o → o.isEncoder = false) : r.2.filter Obs.isEncoder = [] :=
  List.filter_eq_nil_iff.mpr fun o ho => by simp [hP o (h o ho)]

theorem adopted_encoder {r : Lc × List Obs} (h : Emits Obs.isAdopted r) :
    r.2.filter Obs.isEncoder = [] :=
  encoder_of_emits h fun o ho => by
    cases o <;> first | rfl | exact absurd ho Bool.false_ne_true

theorem syncBody_fec (s : Lc) (ok : Bool) : (s.syncBody ok).1.fec = s.fec := by
  rw [Lc.syncBody]
  split
  · rfl
  · cases ok <;> rfl

theorem upGraceLock_mirrors (cfg : Config) (body : RadioBody) (m : ℤ) (now : ℕ) (f : FecState) :
    (upGraceLock cfg body m now f).mirrors = f.mirrors := by
  rw [upGraceLock]
  split_ifs <;> rfl

namespace EncCall

variable {s : Lc} {r : Lc × List Obs}

/-- Nothing observed, nothing written. -/
theorem still {s' : Lc} (hf : s'.fec.mirrors = s.fec.mirrors) : EncCall s (s', []) := .idle rfl hf

/-- A path is the same from every state with that record and configuration. -/
theorem of_same {s' : Lc} (h : EncCall s' r) (hf : s'.fec.mirrors = s.fec.mirrors)
    (hcfg : s'.cfg = s.cfg) : EncCall s r := by
  cases h with
  | idle hobs hf' => exact .idle hobs (hf'.trans hf)
  | assert radio f now answer hf' hobs hr =>
      rw [hcfg] at hobs hr
      exact .assert radio f now answer (hf'.trans hf) hobs hr

/-- Nothing about the encoder, then a path. -/
theorem prepend {pre : List Obs} (h : EncCall s r) (hpre : pre.filter Obs.isEncoder = []) :
    EncCall s (r.1, pre ++ r.2) := by
  have hfilter : (pre ++ r.2).filter Obs.isEncoder = r.2.filter Obs.isEncoder := by
    rw [List.filter_append, hpre, List.nil_append]
  cases h with
  | idle hobs hf => exact .idle (hfilter.trans hobs) hf
  | assert radio f now answer hf hobs hr =>
      exact .assert radio f now answer hf (hfilter.trans hobs) hr

theorem cons {o : Obs} (h : EncCall s r) (ho : o.isEncoder = false) :
    EncCall s (r.1, o :: r.2) := by
  have hpre : [o].filter Obs.isEncoder = [] := by simp [ho]
  exact h.prepend hpre

/-- A step that leaves the encoder alone, then a path. -/
theorem after {k : Lc → Lc × List Obs} (hobs : r.2.filter Obs.isEncoder = [])
    (hf : r.1.fec.mirrors = s.fec.mirrors) (hcfg : r.1.cfg = s.cfg) (hk : EncCall r.1 (k r.1)) :
    EncCall s (andThen r k) :=
  (hk.of_same hf hcfg).prepend hobs

/-- A path, then nothing about the encoder. -/
theorem append {post : List Obs} (h : EncCall s r) (hpost : post.filter Obs.isEncoder = []) :
    EncCall s (r.1, r.2 ++ post) := by
  have hfilter : (r.2 ++ post).filter Obs.isEncoder = r.2.filter Obs.isEncoder := by
    rw [List.filter_append, hpost, List.append_nil]
  cases h with
  | idle hobs hf => exact .idle (hfilter.trans hobs) hf
  | assert radio f now answer hf hobs hr =>
      exact .assert radio f now answer hf (hfilter.trans hobs) hr

end EncCall

/-! ## The paths -/

theorem assertBitrate_call (s : Lc) (now : ℕ) (answer : Bool) :
    EncCall s (s.assertBitrate now answer) :=
  .assert s.radio s.fec now answer rfl (bitrateAssert_encoder ..) rfl

/-- The queued drop asserts the bitrate of the radio to come. -/
theorem deferredTo_call (s : Lc) (m : ℤ) (now : ℕ) (answer : Bool) :
    EncCall s (s.deferredTo m now answer, (s.preDrop m now answer).2 ++ [.queued now m]) := by
  refine EncCall.append (r := (s.deferredTo m now answer, (s.preDrop m now answer).2)) ?_ rfl
  rw [Lc.deferredTo, Lc.preDrop, commitMcsPreDropBitrate]
  split
  · exact .still rfl
  · dsimp only
    refine .assert (s.radio.future m) _ now answer ?_ ?_ rfl
    · rfl
    · exact bitrateAssert_encoder ..

section Paths

variable {s : Lc} (hd : s.cfg.dryRun = false)
include hd

theorem commitStored_call (m : ℤ) (who : SetBy) (now nowObs : ℕ) (io : CommitIo) :
    EncCall s (s.commitStored m who now nowObs io) := by
  cases h : commitDefers s.cfg s.radioBody m
  · rw [commitStored_sent who now io h hd]
    refine .idle rfl ?_
    dsimp only
    split <;> exact upGraceLock_mirrors _ _ _ _ _
  · rw [commitStored_deferred who now io h]
    exact deferredTo_call s m now io.venc

theorem watchdogCommit_call (now : ℕ) (io : SyncIo) : EncCall s (s.watchdogCommit now io) := by
  have hd' : ¬s.cfg.dryRun = true := by simp [hd]
  rw [Lc.watchdogCommit]
  rw [if_neg hd']
  refine .after (adopted_encoder (syncBody_emits s _)) (by rw [syncBody_fec]) (syncBody_cfg ..) ?_
  split
  · exact commitStored_call (by rwa [syncBody_cfg]) _ _ _ _ _
  · exact .still rfl

theorem watchdog_call (now : ℕ) (io : SyncIo) : EncCall s (s.watchdog now io) := by
  cases hdue : s.watchdogDue now
  · rw [watchdog_idle hdue]
    exact .still rfl
  · have hcommit : EncCall s ((s.watched now).watchdogCommit now io) :=
      (watchdogCommit_call (s := s.watched now) hd now io).of_same rfl rfl
    rw [watchdog_due hdue]
    cases s.watchdogDecision now
    case none => exact .still rfl
    case failsafe => exact hcommit.cons (o := .failsafe _ _ _) rfl
    all_goals exact hcommit

theorem commitDecision_call (snap : Selector) (nowCommit nowObs : ℕ) (io : RxIo) :
    EncCall s (s.commitDecision snap nowCommit nowObs io) := by
  cases h : commitDefers s.cfg s.radioBody s.sel.currentMcs
  · rw [commitDecision_sent snap nowCommit nowObs io h hd]
    refine .after rfl (upGraceLock_mirrors _ _ _ _ _) rfl ?_
    split
    · exact .after (adopted_encoder (adopt_emits _ _)) (by cases io.readBack <;> rfl)
        (adopt_cfg ..) (.still rfl)
    · exact .idle rfl rfl
  · rw [commitDecision_deferred snap nowCommit nowObs io h]
    exact deferredTo_call s _ nowCommit io.commit.venc

theorem act_call (snap : Selector) (sd : SelectDecision) (nowCommit nowObs : ℕ) (io : RxIo) :
    EncCall s (s.act snap sd nowCommit nowObs io) := by
  have hd' : ¬s.cfg.dryRun = true := by simp [hd]
  rw [Lc.act]
  split
  · rw [realign_eq]
    split
    · exact commitStored_call hd _ _ _ _ _
    · exact .still rfl
  · rw [Lc.decision]
    rw [if_neg hd']
    refine .after (adopted_encoder (syncBody_emits s _)) (by rw [syncBody_fec]) (syncBody_cfg ..) ?_
    split
    · exact commitDecision_call (by rwa [syncBody_cfg]) _ _ _ _
    · exact .idle rfl rfl

theorem rxAnt_call (r : RxAnt) (now nowCommit nowObs : ℕ) (io : RxIo) :
    EncCall s (s.rxAnt r now nowCommit nowObs io) := by
  rcases hj : s.judged r now with _ | ⟨s', sd⟩
  · obtain ⟨scorer, hr⟩ := rxAnt_none hj nowCommit nowObs io
    rw [hr]
    exact .still rfl
  · obtain ⟨scorer, score, -, hs'⟩ := judged_some hj
    have hact := act_call (s := s') (hs' ▸ hd) s.sel sd nowCommit nowObs io
    have hsame : EncCall s (s'.act s.sel sd nowCommit nowObs io) :=
      hact.of_same (hs' ▸ rfl) (hs' ▸ rfl)
    rw [rxAnt_some hj]
    exact hsame.cons rfl

theorem cleanFrame_call (frameSize now : ℕ) (setFec venc : Bool) :
    EncCall s (s.cleanFrame frameSize now setFec venc) := by
  rw [Lc.cleanFrame]
  dsimp only
  split
  · exact .still rfl
  · rename_i p _
    generalize hs' : ({ s with bpSkipSinceUs := _, bpRecoverUs := _, fec := _, ring := _ } : Lc) = s'
    have hf : s'.fec.mirrors = s.fec.mirrors := hs' ▸ rfl
    have hcfg : s'.cfg = s.cfg := hs' ▸ rfl
    have hd' : ¬s'.cfg.dryRun = true := by simp [hcfg, hd]
    rw [Lc.sendFec]
    rw [if_neg hd']
    refine .after rfl (by split <;> exact hf) (by split <;> exact hcfg) ?_
    exact assertBitrate_call _ _ _

end Paths

theorem pendingTick_call (s : Lc) (dt : ℕ) (reply : SetReply) :
    EncCall s (s.pendingTick (s.clock + dt) reply) := by
  refine .idle (encoder_of_emits (pendingTick_emits s dt _ reply) fun o ho => ?_) ?_
  · cases o <;> first | rfl | exact absurd ho Bool.false_ne_true
  · rw [Lc.pendingTick]
    dsimp only
    split
    · rfl
    · split_ifs <;> rfl

theorem probeTick_call (s : Lc) (dt : ℕ) (acked : Bool) :
    EncCall s (s.probeTick (s.clock + dt) acked) := by
  refine .idle (encoder_of_emits (probeTick_emits s dt _ acked) fun o ho => ?_) ?_
  · cases o <;> first | rfl | exact absurd ho Bool.false_ne_true
  · simp only [Lc.probeTick]
    split_ifs <;> rfl

theorem radioPoll_call (s : Lc) (now : ℕ) (getRadio venc : Bool) :
    EncCall s (s.radioPoll now getRadio venc) := by
  rw [Lc.radioPoll]
  split
  · refine .after ?_ (by split <;> rfl) (by split <;> rfl) (assertBitrate_call _ _ venc)
    split <;> rfl
  · exact .still rfl

theorem txStats_call (s : Lc) (d : TxStats) (now nowDone : ℕ) (venc : Bool) :
    EncCall s (s.txStats d now nowDone venc) := by
  rw [Lc.txStats]
  split
  · exact .still rfl
  · split
    · exact .still rfl
    · exact .after rfl rfl rfl (assertBitrate_call _ _ venc)

/-- Whatever writes past the record: a command, or a skipped frame. -/
def Event.passes (s : Lc) : Event → Bool
  | .httpCmd .. | .wcmd .. => true
  | .sidecar _ _ d _ _ => s.hears d && d.hasSize && s.skipFec d
  | _ => false

/-- The rest calls `bitrate_assert` or leaves the encoder alone. -/
theorem handle_call {s : Lc} (hd : s.cfg.dryRun = false) {e : Event} (he : e.passes s = false) :
    EncCall s (s.handle e) := by
  cases e with
  | pendingTick dt reply => exact pendingTick_call s dt reply
  | watchdog dt io => exact watchdog_call hd _ io
  | rxAnt dt dt₁ dt₂ r io => exact rxAnt_call hd r _ _ _ io
  | radioPoll dt getRadio venc => exact radioPoll_call s _ getRadio venc
  | txStats dt dt₁ d venc => exact txStats_call s d _ _ venc
  | probeTick dt acked => exact probeTick_call s dt acked
  | sidecar dt dt₁ d setFec venc =>
      have hheard : EncCall (s.heard d (s.clock + dt)).1
          ((s.heard d (s.clock + dt)).1.sizeTick d (s.skipFec d) (s.clock + dt + dt₁) setFec venc) → _ :=
        EncCall.after (s := s) (r := s.heard d (s.clock + dt))
          (k := fun s' => s'.sizeTick d (s.skipFec d) (s.clock + dt + dt₁) setFec venc)
          (by rw [Lc.heard, Lc.readTransport]; split <;> rfl)
          (by rw [Lc.heard, Lc.readTransport]; split <;> rfl) (heard_cfg s d _)
      simp only [Lc.handle, Lc.sidecar]
      simp only [Event.passes] at he
      cases hh : s.hears d
      · exact .still rfl
      · refine hheard ?_
        rw [Lc.sizeTick]
        cases hsize : d.hasSize
        · exact .still rfl
        · rw [hh, hsize] at he
          rw [show s.skipFec d = false from he]
          exact cleanFrame_call (by rwa [heard_cfg]) _ _ setFec venc
  | subscribe dt =>
      simp only [Lc.handle, Lc.subscribe]
      split
      · exact .idle rfl rfl
      · exact .still rfl
  | stale dt =>
      simp only [Lc.handle, Lc.stale]
      split <;> exact .still rfl
  | probeRec dt r =>
      simp only [Lc.handle, Lc.probeRec]
      split <;> exact .still rfl
  | httpSet qs => exact .still rfl
  | external air => exact .still rfl
  | httpCmd dt key value io => cases he
  | wcmd dt dt₁ dt₂ req loop io => cases he

end Waybeam.Vehicle
