/-
# `Waybeam.Ground.Csa` — the orchestrator of channel switches

A request arms a session; from then on the supervisor's tick drives it:

    BURST   five csa_commit frames to the uplink's port, 20 ms apart; a failed send aborts
    ARMED   until T_switch, then `iw` on every interface of the session
    VERIFY  until the revert deadline: back to the previous channel, unless the first rx
            tunnel's packet count has changed since T_switch or the request said not to

The three are looked at in this order in every tick, so a late tick can go through several.
Everything that can happen to the supervisor and to the wfb_rx it runs is an event of one
machine; requests, ticks and stats are in any order.
-/
import Waybeam.Ground.State
import Waybeam.Ground.Query

namespace Waybeam.Ground

open Text

/-! ## The frame -/

/-- The format string of a frame, cut at its arguments; the last piece closes the line. -/
def csaFormat : List Bytes :=
  ["\x7b\"type\":\"csa_commit\",\"ver\":1,\"sess\":".toList, ",\"seq\":".toList,
    ",\"src\":\"ground\",\"target_chan\":".toList, ",\"target_ht\":\"".toList,
    "\",\"dt_to_switch_ms\":".toList, ",\"t_revert_ms\":".toList, ",\"prev_chan\":".toList,
    ",\"prev_ht\":\"".toList]

def csaClose : Bytes := "\"\x7d\n".toList

/-- Its arguments. -/
def CsaCommit.args (f : CsaCommit) : List Bytes :=
  [decimal f.sess.toNat, decimal f.seq.toNat, signed f.targetChan, f.targetHt,
    signed f.dtToSwitchMs, signed f.tRevertMs, signed f.prevChan, f.prevHt]

/-- The frame as it is printed. -/
def CsaCommit.text (f : CsaCommit) : Bytes := printf (csaFormat.zip f.args) csaClose

namespace CsaState

/-- The frame of the session at an instant: every copy names the same T_switch. -/
def commit (c : CsaState) (seq : UInt32) (now : ℕ) : CsaCommit where
  sess := c.sess
  seq := seq
  targetChan := c.targetChan
  targetHt := c.targetHt
  dtToSwitchMs := (c.tSwitchUs - now) / 1000
  tRevertMs := (c.tRevertUs - c.tSwitchUs) / 1000
  prevChan := c.prevChan
  prevHt := c.prevHt

end CsaState

namespace Sup

/-! ## Tunnels by their place -/

/-- The tunnel the commands go up through, if it has a port. -/
def uplink (s : Sup) : Option ℤ :=
  match s.tunnels.find? fun t => t.name = s.vencCmdUplink && t.role = .tx with
  | some up => if up.udpInPort ≤ 0 then none else some up.udpInPort
  | none => none

/-- `csa_pick_rx_tunnel_idx` -/
def csaPickRxTunnelIdx (s : Sup) : Option ℕ := s.tunnels.findIdx? fun t => t.role = .rx

/-- `st_pkt_all` of a tunnel. -/
def stPktAll (s : Sup) (i : ℕ) : UInt32 := (s.tunnels[i]?.map (·.stPktAll)).getD 0

/-- What happens to one tunnel. -/
def onTunnel (s : Sup) (i : ℕ) (e : TunnelEvent) : Sup × List Obs :=
  match s.tunnels[i]? with
  | none => (s, [])
  | some t => ({ s with tunnels := s.tunnels.set i (t.step e).1 }, (t.step e).2.map (.tunnel i))

/-! ## Sending -/

/-- Inside a tick: how much later the clock is read for a frame, and what `sendto` answers. -/
structure SendIo where
  lag : ℕ
  sent : Bool

/-- `csa_send_commit_frame`: whether it returned 0. -/
def csaSendCommitFrame (s : Sup) (t : ℕ) (io : SendIo) : Bool × Sup × List Obs :=
  match s.uplink with
  | none => (false, s, [])
  | some port =>
      let f := s.csa.commit s.csaSeqInBurst (t + io.lag)
      let s := { s with csaSeqInBurst := s.csaSeqInBurst + 1 }
      -- the line is printed into 320 bytes
      if 320 ≤ f.text.length then (false, s, []) else (io.sent, s, [.frame port f io.sent])

/-! ## `csa_tick` -/

/-- BURST: the next frame of the five, or the end of the session. -/
def csaBurst (t : ℕ) (io : SendIo) (s : Sup) : Sup × List Obs :=
  if s.csa.phase = .burst ∧ s.csa.nextFrameUs ≤ t ∧ s.csa.framesSent < s.csa.framesTotal then
    match s.csaSendCommitFrame t io with
    | (false, s, os) => ({ s with csa := { s.csa with phase := .idle } }, os)
    | (true, s, os) =>
        let sent := s.csa.framesSent + 1
        let phase : CsaPhase := if s.csa.framesTotal ≤ sent then .armed else .burst
        ({ s with csa := { s.csa with framesSent := sent, nextFrameUs := t + 20000, phase := phase } },
          os)
  else (s, [])

/-- The session as it goes into VERIFY, with the rx counter of that moment. -/
def csaHopped (s : Sup) (t : ℕ) : CsaState :=
  let idx := s.csaPickRxTunnelIdx
  { s.csa with
    phase := .verify, baselineRxIdx := idx
    baselinePktAll := (idx.map s.stPktAll).getD 0, baselinePktUs := t }

/-- ARMED: at T_switch the rx counter is noted and the interfaces hop. -/
def csaSwitch (t : ℕ) (s : Sup) : Sup × List Obs :=
  if s.csa.phase = .armed ∧ s.csa.tSwitchUs ≤ t then
    ({ s with csa := s.csaHopped t }, [.switched (s.csaHopped t) (s.csaHopped t).hop])
  else (s, [])

/-- VERIFY: the counter moved, or the request said so, or back. -/
def csaVerify (t : ℕ) (s : Sup) : Sup × List Obs :=
  if s.csa.phase = .verify ∧ s.csa.tRevertUs ≤ t then
    let alive := s.csa.baselineRxIdx.any fun i => s.stPktAll i ≠ s.csa.baselinePktAll
    let iw := if alive || s.csa.noRevert then [] else s.csa.back
    ({ s with csa := { s.csa with phase := .idle } }, [.verified s.csa iw])
  else (s, [])

/-- `csa_tick` -/
def csaTick (s : Sup) (t : ℕ) (io : SendIo) : Sup × List Obs :=
  andThen (andThen (s.csaBurst t io) (csaSwitch t)) (csaVerify t)

/-! ## `POST /api/v1/system/csa` -/

/-- One session at a time, and none while the scanner drives the interfaces. -/
def csaFree (s : Sup) : Except CsaRefusal Unit :=
  if s.csa.phase ≠ .idle then .error (.active s.csa.phase s.csa.sess)
  else if s.scanRunning then .error (.scanning s.scanSess)
  else .ok ()

end Sup

/-- `?chan=` -/
def csaChan (q : Bytes) : Except CsaRefusal ℤ :=
  match qsGetInt q "chan".toList with
  | some chan => if chan < 1 ∨ 200 < chan then .error .chan else .ok chan
  | none => .error .chan

/-- `?iface=` and `?ht=`, still encoded. -/
def csaArgs (q : Bytes) : Except CsaRefusal (Bytes × Bytes) :=
  match qsGet q "iface".toList, qsGet q "ht".toList with
  | some iface, some ht =>
      if iface = [] ∨ ht = [] ∨ 8 ≤ ht.length then .error .ifaceOrHt else .ok (iface, ht)
  | _, _ => .error .ifaceOrHt

/-- The names between the commas; a comma at the end is passed over. -/
def csaIfaceNames (iface : Bytes) : List Bytes :=
  let names := iface.splitOn ','
  if names.getLast? = some [] then names.dropLast else names

namespace Sup

/-- Up to four names of interfaces, all of which some tunnel has. -/
def csaIfaces (s : Sup) (iface : Bytes) : Except CsaRefusal (List Bytes) :=
  let names := csaIfaceNames iface
  if (names.take 4).any fun n => n = [] || 16 ≤ n.length then .error .badIface
  else if 4 < names.length then .error .tooManyIfaces
  else if names = [] then .error .noIface
  else
    match names.find? fun n => s.tunnels.all fun t => !t.ifaces.contains n with
    | some n => .error (.unknownIface n)
    | none => .ok names

end Sup

/-- One of the three widths. -/
def csaHt (raw : Bytes) : Except CsaRefusal Bytes :=
  let ht := cstr (qsPctDecode 7 raw)
  if ht = "HT20".toList ∨ ht = "HT40+".toList ∨ ht = "HT40-".toList then .ok ht else .error .ht

/-- `?prev_ht=`, decoded; any bytes will do. -/
def csaPrevHt (q : Bytes) : Bytes :=
  match qsGet q "prev_ht".toList with
  | some raw =>
      if raw ≠ [] ∧ raw.length < 8 then cstr (qsPctDecode 7 raw) else "HT20".toList
  | none => "HT20".toList

/-- A duration in milliseconds, clamped. -/
def csaMs (q key : Bytes) (dflt lo hi : ℤ) : ℕ :=
  (clampInt lo hi ((qsGetInt q key).getD dflt)).toNat

namespace Sup

/-- The session a request arms when the answers to its questions are these. -/
def session (s : Sup) (q : Bytes) (t : ℕ) (chan : ℤ) (ifaces : List Bytes) (ht : Bytes) : CsaState :=
  let tSwitch := t + csaMs q "lead_ms".toList 500 100 5000 * 1000
  { s.csa with
    sess := s.csa.sess + 1
    tSwitchUs := tSwitch
    tRevertUs := tSwitch + csaMs q "t_revert_ms".toList 3000 500 30000 * 1000
    nextFrameUs := t
    framesSent := 0
    framesTotal := 5
    targetChan := chan
    targetHt := ht
    prevChan := (qsGetInt q "prev_chan".toList).getD chan
    prevHt := csaPrevHt q
    ifaces := ifaces
    noRevert := (qsGetInt q "no_revert".toList).getD 0 ≠ 0
    phase := .burst }

/-- `system/csa`: the session a request arms, or why it does not. -/
def csaArm (s : Sup) (q : Bytes) (t : ℕ) : Except CsaRefusal CsaState := do
  s.csaFree
  let chan ← csaChan q
  let args ← csaArgs q
  let ifaces ← s.csaIfaces args.1
  let ht ← csaHt args.2
  match s.uplink with
  | none => .error .noUplink
  | some _ => .ok (s.session q t chan ifaces ht)

/-- The request and its answer. -/
def csaPost (s : Sup) (q : Bytes) (t : ℕ) : Sup × List Obs :=
  match s.csaArm q t with
  | .error why => (s, [.refused why])
  | .ok csa => ({ s with csa := csa, csaSeqInBurst := 0 }, [.armed csa])

end Sup

/-! ## The machine -/

/-- What can happen. -/
inductive Event where
  | tunnel (i : ℕ) (e : TunnelEvent)
  /-- a scan starts or is over -/
  | scan (running : Bool)
  /-- a channel switch is requested, `dt` later -/
  | post (dt : ℕ) (q : Bytes)
  /-- `supervisor_tick`, `dt` later -/
  | tick (dt : ℕ) (io : Sup.SendIo)

/-- One event. -/
def Sup.step (s : Sup) : Event → Sup × List Obs
  | .tunnel i e => s.onTunnel i e
  -- a scan is refused while a session is up
  | .scan running =>
      if s.csa.phase ≠ .idle then (s, [])
      else
        ({ s with scanRunning := running, scanSess := if running then s.scanSess + 1 else s.scanSess },
          [])
  | .post dt q => Sup.csaPost { s with clock := s.clock + dt } q (s.clock + dt)
  | .tick dt io => Sup.csaTick { s with clock := s.clock + dt } (s.clock + dt) io

/-- The supervisor as a machine over everything that can happen to it. -/
def machine : Machine Sup Event Obs := ⟨Sup.step⟩

/-- The supervisor at its start, with the tunnels of its configuration. -/
def Sup.boot (tunnels : List Tunnel) (vencCmdUplink : String) : Sup where
  tunnels := tunnels.map fun t => { t with stPktAll := 0, countPAll := none, socket := [] }
  vencCmdUplink := vencCmdUplink

/-! ## What a request that is accepted asks for -/

theorem bind_ok {ε α β : Type} {x : Except ε α} {f : α → Except ε β} {r : β}
    (h : (x >>= f) = .ok r) : ∃ a, x = .ok a ∧ f a = .ok r := by
  cases x with
  | error e => exact nomatch h
  | ok a => exact ⟨a, rfl, h⟩

/-- The answers of a request that is accepted. -/
structure Accepted (s : Sup) (q : Bytes) (chan : ℤ) (ifaces : List Bytes) (ht : Bytes) : Prop where
  free : s.csaFree = .ok ()
  chan : csaChan q = .ok chan
  ifaces : ∃ iface, s.csaIfaces iface = .ok ifaces
  ht : ∃ raw, csaHt raw = .ok ht
  uplink : s.uplink.isSome

theorem csaArm_ok {s : Sup} {q : Bytes} {t : ℕ} {csa : CsaState} (h : s.csaArm q t = .ok csa) :
    ∃ chan ifaces ht, Accepted s q chan ifaces ht ∧ csa = s.session q t chan ifaces ht := by
  obtain ⟨⟨⟩, hfree, h⟩ := bind_ok h
  obtain ⟨chan, hchan, h⟩ := bind_ok h
  obtain ⟨args, -, h⟩ := bind_ok h
  obtain ⟨ifaces, hifaces, h⟩ := bind_ok h
  obtain ⟨ht, hht, h⟩ := bind_ok h
  cases hup : s.uplink with
  | none =>
      rw [hup] at h
      exact nomatch h
  | some port =>
      rw [hup] at h
      cases h
      exact ⟨chan, ifaces, ht, ⟨hfree, hchan, ⟨_, hifaces⟩, ⟨_, hht⟩, by simp [hup]⟩, rfl⟩

theorem csaFree_ok {s : Sup} (h : s.csaFree = .ok ()) :
    s.csa.phase = .idle ∧ s.scanRunning = false := by
  rw [Sup.csaFree] at h
  split at h
  · cases h
  · next hp =>
      split at h
      · cases h
      · next hs => exact ⟨not_not.mp hp, by simpa using hs⟩

theorem csaChan_ok {q : Bytes} {chan : ℤ} (h : csaChan q = .ok chan) : 1 ≤ chan ∧ chan ≤ 200 := by
  rw [csaChan] at h
  split at h
  · split at h
    · cases h
    · cases h
      omega
  · cases h

theorem csaIfaces_ok {s : Sup} {iface : Bytes} {ifaces : List Bytes}
    (h : s.csaIfaces iface = .ok ifaces) : ifaces ≠ [] := by
  rw [Sup.csaIfaces] at h
  split at h
  · cases h
  · split at h
    · cases h
    · split at h
      · cases h
      · next hne =>
          split at h
          · cases h
          · cases h
            exact hne

theorem csaHt_ok {raw ht : Bytes} (h : csaHt raw = .ok ht) :
    ht = "HT20".toList ∨ ht = "HT40+".toList ∨ ht = "HT40-".toList := by
  rw [csaHt] at h
  split at h
  · next hok =>
      cases h
      exact hok
  · cases h

end Waybeam.Ground
