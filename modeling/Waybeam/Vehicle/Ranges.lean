/-
# `Waybeam.Vehicle.Ranges` — what every reachable state keeps in range

Ranges the control law's conversions rest on, each kept by every event:

    Config.InRange     the tunable table admits no other value, the two toggles keep it
    Config.FecRange    likewise, for the limits of a block
    currentMcs ≤ 11    every commit of the selector clamps, a rollback restores

A rung that is committed is also at least `0`: it lies in the clamp window.
-/
import Waybeam.Vehicle.Frame

namespace Waybeam.Vehicle

/-! ## The configuration -/

/-- A property of the configuration that whatever writes the live one keeps: the rows of the
table and the two toggles. -/
structure LiveInv (P : Config → Prop) : Prop where
  rows : ∀ t ∈ TUNABLES, t.Preserves P
  toggleFec : ∀ {c : Config} (b : Bool), P c → P { c with fec := { c.fec with enabled := b } }
  toggleMcs : ∀ {c : Config} (b : Bool), P c → P { c with mcs := { c.mcs with enabled := b } }

theorem Config.inRange_live : LiveInv Config.InRange where
  rows := TUNABLES_keep
  toggleFec _ h := ⟨h.mcsMin, h.mcsMax, h.bitrateMin, h.tolerance⟩
  toggleMcs _ h := ⟨h.mcsMin, h.mcsMax, h.bitrateMin, h.tolerance⟩

theorem Config.fecRange_live : LiveInv Config.FecRange where
  rows := TUNABLES_fecRange
  toggleFec _ h := ⟨h.minK, h.maxK, h.minN, h.maxN, h.wfbFecKMin⟩
  toggleMcs _ h := ⟨h.minK, h.maxK, h.minN, h.maxN, h.wfbFecKMin⟩

/-- What a dispatch may do to the configuration: flip one of the two loops. -/
def CmdOut.Toggles (o : CmdOut) (cfg : Config) : Prop :=
  o.cfg = cfg ∨ (∃ b, o.cfg = { cfg with fec := { cfg.fec with enabled := b } }) ∨
    ∃ b, o.cfg = { cfg with mcs := { cfg.mcs with enabled := b } }

section Toggles

variable (cfg : Config) (st : WcmdState) (air : RadioBody) (now : ℕ) (io : CmdIo)

theorem wcmdApplyFec_cfg (key : WcmdKey) (seq : UInt16) (value : ℤ) :
    (wcmdApplyFec cfg st air key seq value now io).cfg = cfg := by
  rw [wcmdApplyFec]
  split
  · rfl
  · dsimp only
    split_ifs <;> rfl

theorem wcmdApply_toggles (key : WcmdKey) (seq : UInt16) (value : ℤ) :
    (wcmdApply cfg st air key seq value now io).Toggles cfg := by
  unfold wcmdApply
  cases key
  case fecEnabled => exact .inr (.inl ⟨_, rfl⟩)
  case mcsEnabled => exact .inr (.inr ⟨_, rfl⟩)
  case wfbTxpower =>
    unfold wcmdApplyTxpower
    dsimp only
    split_ifs <;> exact .inl rfl
  case wfbFecK | wfbFecN =>
    dsimp only
    split_ifs
    · exact .inl rfl
    · exact .inl (wcmdApplyFec_cfg ..)
  case wfbMcs | wfbBandwidth | wfbLdpc | wfbStbc | wfbShortGi =>
    unfold wcmdApplyRadio
    dsimp only
    split_ifs <;> exact .inl rfl
  case bitrateKbps | fps | payloadBytes | forceIdr | record =>
    unfold wcmdApplyVenc
    dsimp only
    split_ifs <;> exact .inl rfl
  case peekEnabled =>
    dsimp only
    split_ifs <;> exact .inl rfl
  all_goals exact .inl rfl

theorem wcmdDispatch_toggles (req : WcmdReq) (peerIsLoopback : Bool) :
    (wcmdDispatch cfg st air req peerIsLoopback now io).Toggles cfg := by
  refine wcmdDispatch_rule (P := (CmdOut.Toggles · cfg)) cfg st air now io ?_ ?_ req peerIsLoopback
  · intro o ho
    exact .inl ho.cfg
  · intro st' key seq value _
    exact wcmdApply_toggles cfg st' air now io key seq value

theorem CmdOut.Toggles.live {P : Config → Prop} (hP : LiveInv P) {cfg : Config} {o : CmdOut}
    (h : o.Toggles cfg) (hc : P cfg) : P o.cfg := by
  rcases h with h | ⟨b, h⟩ | ⟨b, h⟩
  · exact h ▸ hc
  · exact h ▸ hP.toggleFec b hc
  · exact h ▸ hP.toggleMcs b hc

theorem CmdOut.Toggles.inRange {cfg : Config} {o : CmdOut} (h : o.Toggles cfg)
    (hc : cfg.InRange) : o.cfg.InRange :=
  h.live Config.inRange_live hc

end Toggles

/-- Every event keeps what the writers of the live configuration keep. -/
theorem handle_live {P : Config → Prop} (hP : LiveInv P) {s : Lc} (h : P s.cfg) (e : Event) :
    P (s.handle e).1.cfg := by
  have hdispatch (s : Lc) (h : P s.cfg) (req : WcmdReq) (loop : Bool) (now : ℕ) (io : CmdIo) :
      P (s.dispatch req loop now io).1.cfg :=
    (wcmdDispatch_toggles s.cfg s.wcmd s.air now io req loop).live hP h
  cases e with
  | httpSet qs => exact applyQuery_preserves hP.rows h qs
  | httpCmd dt key value io =>
      simp only [Lc.handle, Lc.httpCmd]
      split
      · exact h
      · exact hdispatch _ h _ _ _ _
  | wcmd dt dt₁ dt₂ req loop io =>
      simp only [Lc.handle, Lc.wcmdFrame]
      split
      · exact h
      · rw [adoptOutstanding_cfg]
        exact hdispatch s h _ _ _ _
  | _ =>
      rw [handle_cfg rfl]
      exact h

/-- Every event keeps the ranges. -/
theorem handle_inRange {s : Lc} (h : s.cfg.InRange) (e : Event) : (s.handle e).1.cfg.InRange :=
  handle_live Config.inRange_live h e

theorem Boot.init_inRange (b : Boot) : b.init.cfg.InRange := by
  have h := b.inRange
  rw [Boot.init]
  dsimp only
  split_ifs <;> exact ⟨h.mcsMin, h.mcsMax, h.bitrateMin, h.tolerance⟩

theorem Boot.init_fecRange {b : Boot} (h : b.cfg.FecRange) : b.init.cfg.FecRange := by
  rw [Boot.init]
  dsimp only
  split_ifs <;> exact ⟨h.minK, h.maxK, h.minN, h.maxN, h.wfbFecKMin⟩

/-! ## The rung -/

theorem clampMcs_range {c : Config} (h : c.InRange) (x : ℤ) :
    0 ≤ clampInt c.mcs.mcsMin c.mcs.mcsMax x ∧ clampInt c.mcs.mcsMin c.mcs.mcsMax x ≤ 11 := by
  have hmin := h.mcsMin
  have hmax := h.mcsMax
  simp only [clampInt]
  split <;> split <;> omega

/-- The watchdog commits a rung of the clamp window, or keeps the one there is. -/
theorem watched_rung (s : Lc) (now : ℕ) :
    (s.watchdogDecision now = .none ∧ (s.watched now).sel.currentMcs = s.sel.currentMcs) ∨
      ∃ x, (s.watched now).sel.currentMcs = clampInt s.cfg.mcs.mcsMin s.cfg.mcs.mcsMax x := by
  rw [Lc.watchdogDecision, Lc.watched, watchdogSelect, Selector.tickNoData]
  dsimp only
  split_ifs
  all_goals first
    | exact .inr ⟨_, Selector.commit_currentMcs _ _ _ _⟩
    | exact .inl ⟨rfl, Selector.expireChanges_currentMcs _ _ _⟩

theorem watched_range {s : Lc} {now : ℕ} (hc : s.cfg.InRange) (h : s.watchdogDecision now ≠ .none) :
    0 ≤ (s.watched now).sel.currentMcs ∧ (s.watched now).sel.currentMcs ≤ 11 := by
  rcases watched_rung s now with ⟨hnone, -⟩ | ⟨x, hx⟩
  · exact absurd hnone h
  · rw [hx]
    exact clampMcs_range hc x

section Judged

variable {s s' : Lc} {r : RxAnt} {now : ℕ} {sd : SelectDecision} (h : s.judged r now = some (s', sd))
include h

theorem judged_none_rung (hsd : sd = .none) :
    s'.sel.currentMcs = s.sel.currentMcs ∧ 0 ≤ s.sel.currentMcs := by
  obtain ⟨scorer, score, hupd, rfl⟩ := judged_some h
  exact Selector.update_none (hupd.trans hsd)

theorem judged_range (hc : s.cfg.InRange) (hsd : sd ≠ .none) :
    0 ≤ s'.sel.currentMcs ∧ s'.sel.currentMcs ≤ 11 := by
  obtain ⟨scorer, score, hupd, rfl⟩ := judged_some h
  obtain ⟨x, hx⟩ := Selector.update_some (hupd.trans_ne hsd)
  show 0 ≤ (s.sel.update _ _ _ _ _).1.currentMcs ∧ _
  rw [hx]
  exact clampMcs_range hc x

end Judged

/-- What a record drives keeps the selector or rolls it back. -/
theorem act_sel (s : Lc) (snap : Selector) (sd : SelectDecision) (nowCommit nowObs : ℕ) (io : RxIo) :
    (s.act snap sd nowCommit nowObs io).1.sel = s.sel ∨
      (s.act snap sd nowCommit nowObs io).1.sel = snap := by
  have hcommit (s : Lc) : (s.commitDecision snap nowCommit nowObs io).1.sel = s.sel ∨
      (s.commitDecision snap nowCommit nowObs io).1.sel = snap := by
    rw [Lc.commitDecision]
    simp only [andThen]
    split
    · exact .inr rfl
    · exact .inl rfl
    · exact .inl (adopt_sel _ _)
  rw [Lc.act]
  split
  · rw [realign_eq]
    split
    · exact .inl (commitStored_sel _ _ _ _ _ _)
    · exact .inl rfl
  · rw [Lc.decision]
    split
    · exact .inl rfl
    · simp only [andThen]
      split
      · rcases hcommit (s.syncBody io.getRadio).1 with hs | hs
        · exact .inl (hs.trans (syncBody_sel s _))
        · exact .inr hs
      · exact .inr rfl

theorem pendingTick_rung {s : Lc} (h : s.sel.currentMcs ≤ 11) (now : ℕ) (reply : SetReply) :
    (s.pendingTick now reply).1.sel.currentMcs ≤ 11 := by
  simp only [Lc.pendingTick]
  split
  · exact h
  · split_ifs <;> exact h

/-- The watchdog clamps, falls back, or leaves the rung. -/
theorem watchdog_rung {s : Lc} (hc : s.cfg.InRange) (h : s.sel.currentMcs ≤ 11) (now : ℕ)
    (io : SyncIo) : (s.watchdog now io).1.sel.currentMcs ≤ 11 := by
  have hw : (s.watched now).sel.currentMcs ≤ 11 := by
    rcases watched_rung s now with ⟨-, hsame⟩ | ⟨x, hx⟩
    · exact hsame ▸ h
    · exact hx ▸ (clampMcs_range hc x).2
  have hkeep : ((s.watched now).watchdogCommit now io).1.sel.currentMcs ≤ 11 := by
    rw [watchdogCommit_sel]
    exact hw
  cases hdue : s.watchdogDue now
  · rw [watchdog_idle hdue]
    exact h
  · rw [watchdog_due hdue]
    cases s.watchdogDecision now
    case none => exact hw
    all_goals exact hkeep

/-- An adoption clamps by the configuration the dispatch left. -/
theorem wcmdFrame_rung {s : Lc} (hc : s.cfg.InRange) (h : s.sel.currentMcs ≤ 11) (req : WcmdReq)
    (loop : Bool) (now nowAdopt nowObs : ℕ) (io : CmdIo) :
    (s.wcmdFrame req loop now nowAdopt nowObs io).1.sel.currentMcs ≤ 11 := by
  have hcfg := (wcmdDispatch_toggles s.cfg s.wcmd s.air now io req loop).inRange hc
  simp only [Lc.wcmdFrame]
  split
  · exact h
  · simp only [Lc.adoptOutstanding, Lc.adoptWritten]
    split
    · exact h
    · split
      · exact (Selector.commit_currentMcs _ _ _ _) ▸ (clampMcs_range hcfg _).2
      · exact h

/-- A record clamps what it decides; a refused commit brings the rung before it back. -/
theorem rxAnt_rung {s : Lc} (hc : s.cfg.InRange) (h : s.sel.currentMcs ≤ 11) (r : RxAnt)
    (now nowCommit nowObs : ℕ) (io : RxIo) :
    (s.rxAnt r now nowCommit nowObs io).1.sel.currentMcs ≤ 11 := by
  rcases hj : s.judged r now with _ | ⟨s', sd⟩
  · obtain ⟨scorer, hr⟩ := rxAnt_none hj nowCommit nowObs io
    rw [hr]
    exact h
  · have hs' : s'.sel.currentMcs ≤ 11 := by
      by_cases hsd : sd = .none
      · exact (judged_none_rung hj hsd).1 ▸ h
      · exact (judged_range hj hc hsd).2
    rw [rxAnt_some hj]
    rcases act_sel s' s.sel sd nowCommit nowObs io with hs | hs
    · exact (congrArg Selector.currentMcs hs).trans_le hs'
    · exact (congrArg Selector.currentMcs hs).trans_le h

/-- Every event keeps the rung at most 11. -/
theorem handle_rung {s : Lc} (hc : s.cfg.InRange) (h : s.sel.currentMcs ≤ 11) (e : Event) :
    (s.handle e).1.sel.currentMcs ≤ 11 := by
  cases hl : e.listens
  · cases e with
    | pendingTick dt reply => exact pendingTick_rung h _ reply
    | watchdog dt io => exact watchdog_rung hc h _ io
    | httpCmd dt key value io =>
        simp only [Lc.handle, Lc.httpCmd]
        split <;> exact h
    | wcmd dt dt₁ dt₂ req loop io => exact wcmdFrame_rung hc h req loop _ _ _ io
    | rxAnt dt dt₁ dt₂ r io => exact rxAnt_rung hc h r _ _ _ io
    | _ => cases hl
  · exact (congrArg (fun c => c.sel.currentMcs) (handle_command hl s)).trans_le h

theorem Boot.init_rung (b : Boot) : b.init.sel.currentMcs ≤ 11 := by
  have hrung : b.init.sel.currentMcs = -1 := by
    rw [Boot.init]
    dsimp only
    split_ifs <;> rfl
  omega

end Waybeam.Vehicle
