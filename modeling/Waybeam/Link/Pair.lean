/-
# `Waybeam.Link.Pair` — the ground station and the vehicle, with the air between them

Two parties, each with a machine of its own, and what they share:

    radio    the channel and width every ground interface and the vehicle's interface is on;
             each `iw` of either party changes it
    air      every csa_commit frame the ground station has sent.  A frame may reach the vehicle
             at any later moment, any number of times, in any order, or never
    inbox    datagrams that have reached the vehicle's socket and are not read yet

All other traffic gets through, in both directions, if and only if both parties are on one
channel: a packet of the vehicle reaches a wfb_rx of the ground station only then, and a
datagram of the ground station the vehicle's socket.  The two clocks are not related.
-/
import Waybeam.Link.Frame

namespace Waybeam.Link

open Text Csa Ground

/-! ## The radio -/

/-- A channel and its width. -/
abbrev Tuning := ℤ × Bytes

/-- What the interfaces are on. -/
structure Radio where
  gs : Bytes → Tuning
  veh : Tuning

/-- The `iw` commands of the ground station, in order. -/
def Radio.tune (r : Radio) (iw : List IwCmd) : Radio :=
  { r with gs := iw.foldl (fun gs c => Function.update gs c.iface (c.chan, c.ht)) r.gs }

/-! ## The pair -/

/-- What the two parties do. -/
inductive Obs where
  /-- the query of a request to the ground station -/
  | asked (q : Bytes)
  | ground (o : Ground.Obs)
  /-- the vehicle reads a copy of the i-th frame sent -/
  | delivered (i : ℕ)
  | vehicle (o : Csa.Obs)
  /-- somebody else changes the channels -/
  | retuned (r : Radio)

/-- What becomes of the interfaces. -/
def Radio.see (r : Radio) : Obs → Radio
  | .ground (.switched _ iw) => r.tune iw
  | .ground (.verified _ iw) => r.tune iw
  | .vehicle (.switched chan ht _) => { r with veh := (chan, ht) }
  | .vehicle (.reverted chan ht _) => { r with veh := (chan, ht) }
  | .retuned r => r
  | _ => r

/-- The frame an observation puts on the air. -/
def Obs.frame : Obs → Option CsaCommit
  | .ground (.frame _ f true) => some f
  | _ => none

structure Pair where
  ground : Sup
  vehicle : Agent := {}
  radio : Radio
  air : List CsaCommit := []
  inbox : ℕ := 0

/-- The vehicle is on the channel of every interface of the session, the one in flight or the last. -/
def Pair.Together (p : Pair) : Prop :=
  ∀ i ∈ p.ground.csa.ifaces, (p.radio.gs i).1 = p.radio.veh.1

instance (p : Pair) : Decidable p.Together := inferInstanceAs (Decidable (∀ i ∈ _, _))

/-- What can happen. -/
inductive Event where
  /-- something at the ground station; a packet for one of its wfb_rx comes from the vehicle -/
  | ground (e : Ground.Event)
  /-- the vehicle reads a copy of the i-th frame -/
  | deliver (i : ℕ) (now : ℤ)
  /-- a datagram for the vehicle's socket -/
  | traffic
  /-- the vehicle reads a datagram that waits -/
  | hear (now : ℤ)
  /-- the vehicle's `csa_tick` -/
  | tick (now : ℤ)
  | retune (r : Radio)

namespace Pair

/-- A packet from the vehicle. -/
def fromVehicle : Ground.Event → Bool
  | .tunnel _ .packet => true
  | _ => false

/-- The query of a request. -/
def query : Ground.Event → List Obs
  | .post _ q => [.asked q]
  | _ => []

/-- One call of the vehicle. -/
def call (cfg : CsaCfg) (p : Pair) (now : ℤ) (call : Call) : Pair × List Obs :=
  let r := (Csa.machine cfg).step p.vehicle ⟨now, call⟩
  ({ p with vehicle := r.1 }, r.2.map .vehicle)

/-- What the parties do. -/
def act (cfg : CsaCfg) (p : Pair) : Event → Pair × List Obs
  | .ground e =>
      if fromVehicle e ∧ ¬p.Together then (p, [])
      else
        let r := Ground.machine.step p.ground e
        ({ p with ground := r.1 }, query e ++ r.2.map .ground)
  | .deliver i now =>
      match p.air[i]? with
      | none => (p, [])
      | some f =>
          let r := p.call cfg now (.feed f.text)
          (r.1, .delivered i :: r.2)
  | .traffic => if p.Together then ({ p with inbox := p.inbox + 1 }, []) else (p, [])
  | .hear now =>
      match p.inbox with
      | 0 => (p, [])
      | n + 1 => { p with inbox := n }.call cfg now .linkAlive
  | .tick now => p.call cfg now .tick
  | .retune r => (p, [.retuned r])

/-- One event: what the parties do, and what it does to what they share. -/
def step (cfg : CsaCfg) (p : Pair) (e : Event) : Pair × List Obs :=
  let r := p.act cfg e
  ({ r.1 with radio := r.2.foldl Radio.see p.radio, air := p.air ++ r.2.filterMap Obs.frame }, r.2)

def machine (cfg : CsaCfg) : Machine Pair Event Obs := ⟨Pair.step cfg⟩

/-- Both parties at their start, somewhere. -/
def boot (tunnels : List Tunnel) (vencCmdUplink : String) (radio : Radio) : Pair where
  ground := Sup.boot tunnels vencCmdUplink
  radio := radio

end Pair

/-! ## The interfaces after a hop -/

theorem tune_gs (r : Radio) (ifaces : List Bytes) (x : Tuning) (i : Bytes) :
    (r.tune (ifaces.map (⟨·, x.1, x.2⟩))).gs i = if i ∈ ifaces then x else r.gs i := by
  simp only [Radio.tune]
  generalize r.gs = gs
  induction ifaces generalizing gs with
  | nil => rfl
  | cons j ifaces ih =>
      rw [List.map_cons, List.foldl_cons, ih]
      by_cases hi : i ∈ ifaces
      · rw [if_pos hi, if_pos (List.mem_cons_of_mem _ hi)]
      · rw [if_neg hi]
        by_cases hj : i = j
        · subst hj
          rw [Function.update_self, if_pos List.mem_cons_self]
        · rw [Function.update_of_ne hj, if_neg (List.not_mem_cons_of_ne_of_not_mem hj hi)]

@[simp] theorem tune_veh (r : Radio) (iw : List IwCmd) : (r.tune iw).veh = r.veh := rfl

/-! ## What a request leaves in the frames -/

/-- The query armed the session. -/
def Asked (q : Bytes) (c : Ground.CsaState) : Prop := ∃ s t, Sup.csaArm s q t = .ok c

/-- A frame of the session that the query armed. -/
structure Legible (q : Bytes) (f : CsaCommit) : Prop where
  printable : Printable f
  prevChan : f.prevChan = (qsGetInt q "prev_chan".toList).getD f.targetChan
  prevHt : f.prevHt = csaPrevHt q
  /-- the vehicle's `(int)` of it -/
  int : i32 f.prevChan = f.prevChan

section Asked

variable {q : Bytes} {c c' : Ground.CsaState}

theorem Asked.prev (h : Asked q c) :
    c.prevChan = (qsGetInt q "prev_chan".toList).getD c.targetChan ∧ c.prevHt = csaPrevHt q := by
  obtain ⟨s, t, harm⟩ := h
  obtain ⟨chan, ifaces, ht, -, rfl⟩ := csaArm_ok harm
  exact ⟨rfl, rfl⟩

theorem Asked.legible (h : Asked q c) (seq : UInt32) {now : ℕ} (hnow : c.tSwitchUs ≤ now + 5000000) :
    Legible q (c.commit seq now) := by
  obtain ⟨hchan, hht⟩ := h.prev
  obtain ⟨s, t, harm⟩ := h
  refine ⟨printable_commit ⟨s, q, t, harm⟩ seq hnow, hchan, hht, ?_⟩
  obtain ⟨chan, ifaces, ht, hacc, rfl⟩ := csaArm_ok harm
  refine i32_of_range ?_
  show -2 ^ 31 ≤ (qsGetInt q "prev_chan".toList).getD chan ∧
    (qsGetInt q "prev_chan".toList).getD chan < 2 ^ 31
  cases hq : qsGetInt q "prev_chan".toList with
  | none =>
      have hr := csaChan_ok hacc.chan
      show -2 ^ 31 ≤ chan ∧ chan < 2 ^ 31
      omega
  | some prev => exact qsGetInt_range hq

/-- The session in flight is the one the query armed. -/
def Upholds (s : Sup) (q : Bytes) : Prop :=
  s.csa.phase ≠ .idle →
    ∃ c, Asked q c ∧ SameSession c s.csa ∧ c.tSwitchUs ≤ s.clock + 5000000

/-- What the ground station does in one event: a request is answered, a tick speaks for its
session, and the rest leaves the session alone. -/
inductive GroundMoves (s : Sup) (q : Bytes) : Ground.Event → Sup → List Ground.Obs → Prop
  | aside {e : Ground.Event} {s' : Sup} {os : List Ground.Obs} (hq : Pair.query e = [])
      (hcsa : s'.csa = s.csa) (hclock : s.clock ≤ s'.clock)
      (hos : ∀ o ∈ os, ∃ i what, o = .tunnel i what) :
      GroundMoves s q e s' os
  | refused {dt : ℕ} {q' : Bytes} {s' : Sup} {why : CsaRefusal} (hcsa : s'.csa = s.csa)
      (hclock : s.clock ≤ s'.clock) :
      GroundMoves s q (.post dt q') s' [.refused why]
  | armed {dt : ℕ} {q' : Bytes} {s' : Sup} {c : Ground.CsaState} (hidle : s.csa.phase = .idle)
      (harm : Sup.csaArm { s with clock := s.clock + dt } q' (s.clock + dt) = .ok c)
      (hcsa : s'.csa = c) (hclock : s'.clock = s.clock + dt) :
      GroundMoves s q (.post dt q') s' [.armed c]
  | tick {dt : ℕ} {io : Sup.SendIo} {c : Ground.CsaState} (hask : Asked q c)
      (hsame : SameSession c s.csa) (hlead : c.tSwitchUs ≤ s.clock + dt + 5000000)
      (hspoken : Spoken c (({ s with clock := s.clock + dt } : Sup).csaTick (s.clock + dt) io)) :
      GroundMoves s q (.tick dt io)
        (({ s with clock := s.clock + dt } : Sup).csaTick (s.clock + dt) io).1
        (({ s with clock := s.clock + dt } : Sup).csaTick (s.clock + dt) io).2

theorem ground_moves {s : Sup} (h : Upholds s q) (e : Ground.Event) :
    GroundMoves s q e (Ground.machine.step s e).1 (Ground.machine.step s e).2 := by
  have hdoes := step_does s e
  generalize (Ground.machine.step s e).1 = s' at hdoes ⊢
  generalize (Ground.machine.step s e).2 = os at hdoes ⊢
  cases hdoes with
  | aside hpost hcsa hclock hos =>
      refine .aside ?_ hcsa hclock hos
      cases e with
      | post dt q' => exact absurd rfl (hpost dt q')
      | _ => rfl
  | refused hcsa hclock => exact .refused hcsa hclock
  | armed hidle harm hcsa hclock => exact .armed hidle harm hcsa hclock
  | @tick dt io hup =>
      obtain ⟨c, hask, hsame, hlead⟩ := h hup
      exact .tick hask hsame (by omega) (tick_spoken hsame hlead dt io)

/-- The frames of a tick are frames of the session. -/
theorem legible_of_spoken (hask : Asked q c) {os : List Ground.Obs} (hos : ∀ o ∈ os, SpeaksFor c o)
    {f : CsaCommit} (hf : f ∈ (os.map Obs.ground).filterMap Obs.frame) : Legible q f := by
  obtain ⟨o, ho, hof⟩ := List.mem_filterMap.mp hf
  obtain ⟨o', ho', rfl⟩ := List.mem_map.mp ho
  cases o' with
  | frame port f' sent =>
      cases sent with
      | false => cases hof
      | true =>
          cases hof
          obtain ⟨seq, now, hnow, rfl⟩ := hos _ ho'
          exact hask.legible seq hnow
  | _ => cases hof

theorem frames_of_vehicle (os : List Csa.Obs) : (os.map Obs.vehicle).filterMap Obs.frame = [] := by
  refine List.filterMap_eq_nil_iff.mpr fun o ho => ?_
  obtain ⟨o', -, rfl⟩ := List.mem_map.mp ho
  rfl

/-- An event that is no request brings the record nothing but what the tunnels do. -/
theorem tunnels_of_aside {e : Ground.Event} {os : List Ground.Obs} (hq : Pair.query e = [])
    (hos : ∀ o ∈ os, ∃ i what, o = .tunnel i what) :
    ∀ o ∈ Pair.query e ++ os.map Obs.ground, ∃ i what, o = .ground (.tunnel i what) := by
  rw [hq, List.nil_append]
  intro o ho
  obtain ⟨o', ho', rfl⟩ := List.mem_map.mp ho
  obtain ⟨i, what, rfl⟩ := hos o' ho'
  exact ⟨i, what, rfl⟩

theorem frames_of_tunnels {os : List Obs} (hos : ∀ o ∈ os, ∃ i what, o = .ground (.tunnel i what)) :
    os.filterMap Obs.frame = [] := by
  refine List.filterMap_eq_nil_iff.mpr ?_
  intro o ho
  obtain ⟨i, what, rfl⟩ := hos o ho
  rfl

theorem see_tunnels (r : Radio) {os : List Obs}
    (hos : ∀ o ∈ os, ∃ i what, o = .ground (.tunnel i what)) : os.foldl Radio.see r = r := by
  induction os with
  | nil => rfl
  | cons o os ih =>
      obtain ⟨i, what, rfl⟩ := hos o List.mem_cons_self
      exact ih fun o ho => hos o (List.mem_cons_of_mem _ ho)

/-- The query behind the session in flight after an event. -/
def behind (q : Bytes) (e : Ground.Event) (os : List Ground.Obs) : Bytes :=
  match e, os with
  | .post _ q', [.armed _] => q'
  | _, _ => q

theorem behind_of_aside {e : Ground.Event} (hq : Pair.query e = []) (os : List Ground.Obs) :
    behind q e os = q := by
  cases e with
  | post dt q' => cases hq
  | _ => rfl

theorem GroundMoves.upholds {s s' : Sup} {e : Ground.Event} {os : List Ground.Obs} (h : Upholds s q)
    (hm : GroundMoves s q e s' os) : Upholds s' (behind q e os) := by
  cases hm with
  | aside hq hcsa hclock hos =>
      rw [behind_of_aside hq]
      intro hp
      obtain ⟨c, hask, hsame, hlead⟩ := h (hcsa ▸ hp)
      exact ⟨c, hask, hcsa ▸ hsame, by omega⟩
  | refused hcsa hclock =>
      intro hp
      obtain ⟨c, hask, hsame, hlead⟩ := h (hcsa ▸ hp)
      exact ⟨c, hask, hcsa ▸ hsame, by omega⟩
  | armed _ harm hcsa hclock =>
      intro _
      refine ⟨_, ⟨_, _, harm⟩, ?_, ?_⟩
      · rw [hcsa]
      · rw [hclock]
        exact csaArm_lead harm
  | @tick dt io c hask hsame hlead hspoken =>
      intro _
      refine ⟨c, hask, hspoken.same, ?_⟩
      rw [csaTick_clock]
      exact hlead

end Asked

end Waybeam.Link
