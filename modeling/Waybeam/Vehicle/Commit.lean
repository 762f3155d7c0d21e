/-
# `Waybeam.Vehicle.Commit` — ordered MCS commits

An MCS drop is preceded by a bitrate drop: the encoder must spool down before the radio
can no longer carry what it sends.

    drop, lead > 0     bitrate asserted for the new MCS, up-lock armed, SET_RADIO deferred
    up, equal, lead 0  a queued drop is cancelled, up-lock shortened on an increase, SET_RADIO sent

The deferred SET_RADIO is sent by the pending tick of the main loop, which retries until
it is acknowledged.
-/
import Waybeam.Vehicle.Radio

namespace Waybeam.Vehicle

/-- A queued drop: `PendingMcsDown` while active. -/
structure PendingMcsDown where
  deadlineUs : ℕ
  targetMcs : ℤ
  pendingRadio : RadioBody

/-- `wfb_set_radio`: whether the ack arrived, what wfb_tx transmits with afterwards. -/
def wfbSetRadio (now : ℕ) (who : SetBy) (body : RadioBody) (reply : SetReply) (air : RadioBody) :
    Bool × RadioBody × List Obs :=
  let acked := reply = .acked
  (acked, if reply = .refused then air else body.onWire, [.setRadio now who body acked])

/-- The radio after a drop to `newMcs`, as the pre-drop assert sees it. -/
def RadioState.future (radio : RadioState) (newMcs : ℤ) : RadioState :=
  { radio with
    mcs := newMcs
    phyMbps := Vehicle.phyMbps newMcs radio.bandwidth radio.shortGi radio.vhtMode radio.vhtNss }

/-- `commit_mcs_pre_drop_bitrate`: arm the up-lock over lead and settle, then assert the
bitrate of the new MCS. -/
def commitMcsPreDropBitrate (cfg : Config) (radio : RadioState) (f : FecState) (newMcs : ℤ)
    (now : ℕ) (answer : Bool) : FecState × List Obs :=
  if !cfg.fec.enabled || !radio.valid || f.ctrl.current.isNone then (f, [])
  else
    let lockEnd := now + usOf (cfg.fec.bitrateLeadS + cfg.fec.mcsSettleS)
    let ctrl :=
      if f.ctrl.bitrateUpLockUntilUs < lockEnd
      then { f.ctrl with bitrateUpLockUntilUs := lockEnd } else f.ctrl
    let (f, obs) := bitrateAssert (radio.future newMcs) cfg { f with ctrl } now answer
    (f, .preDrop now newMcs :: obs)

/-- The return codes `0`, `1` and `-1`. -/
inductive CommitRc where
  | acked
  | deferred
  | failed
  deriving DecidableEq, Repr

/-- The answers a commit may need. -/
structure CommitIo where
  venc : Bool := true
  set : SetReply := .acked
  deriving DecidableEq, Repr

/-- What a commit leaves behind. -/
structure CommitOut where
  rc : CommitRc
  pending : Option PendingMcsDown
  fec : FecState
  air : RadioBody
  obs : List Obs

/-- Whether a commit to `newMcs` is deferred. -/
def commitDefers (cfg : Config) (body : RadioBody) (newMcs : ℤ) : Bool :=
  decide (newMcs < body.mcs) && decide (0 < cfg.fec.bitrateLeadS) && !cfg.dryRun

/-- The up-lock of an increase: set, not extended, since the drop it guarded is undone. -/
def upGraceLock (cfg : Config) (body : RadioBody) (newMcs : ℤ) (now : ℕ) (f : FecState) :
    FecState :=
  if body.mcs < newMcs ∧ 0 < cfg.fec.mcsUpGraceS ∧ !cfg.dryRun then
    { f with ctrl := { f.ctrl with bitrateUpLockUntilUs := now + usOf cfg.fec.mcsUpGraceS } }
  else f

/-- `commit_mcs_change`.  Whatever drop was queued before is replaced or cancelled. -/
def commitMcsChange (cfg : Config) (body : RadioBody) (newMcs : ℤ) (radio : RadioState)
    (f : FecState) (air : RadioBody) (who : SetBy) (now : ℕ) (io : CommitIo) : CommitOut :=
  let r := body.withMcs newMcs
  if commitDefers cfg body newMcs then
    let (f, obs) := commitMcsPreDropBitrate cfg radio f newMcs now io.venc
    { rc := .deferred
      pending := some {
        deadlineUs := now + usOf cfg.fec.bitrateLeadS, targetMcs := newMcs, pendingRadio := r }
      fec := f, air, obs := obs ++ [.queued now newMcs] }
  else
    let f := upGraceLock cfg body newMcs now f
    if cfg.dryRun then { rc := .acked, pending := none, fec := f, air, obs := [] }
    else
      let (acked, air, obs) := wfbSetRadio now who r io.set air
      { rc := if acked then .acked else .failed, pending := none, fec := f, air, obs }

end Waybeam.Vehicle
