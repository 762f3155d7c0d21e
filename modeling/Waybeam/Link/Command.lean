/-
# `Waybeam.Link.Command` — commands from the ground and from the console

Two counters number the command frames of one vehicle: the ground station's, shared by all it
emits and back to zero when it restarts, and the one of the vehicle's own console.  Both number
from 1, and the dispatcher's slot knows neither where a number came from nor which value came
with it, so two commands can meet in one number:

    ground    1   key 1 := 5000     applied
    console   1   key 1 := 8000     OK, nothing done

The net is the dispatcher with both counters and every frame the ground station has sent; a
frame may arrive at any later moment, any number of times (`no_false_coalescing_iff`).
-/
import Waybeam.Vehicle.Dedup

namespace Waybeam.Link

open Vehicle

/-! ## What is demanded of a receipt -/

/-- A frame answered OK by the dedup carries the value its key was given last; one that was
neither applied nor taken for a copy is not answered OK. -/
def sameOk (g : Book) : Receipt → Bool
  | .applied _ _ => true
  | .coalesced req _ => g.lastValue req.key = some req.value
  | .refused _ status _ => status ≠ .ok

/-- No command is taken for a copy of another one. -/
def noFalseCoalescing : Monitor Receipt Book := book sameOk

/-- A frame under the number that the last taker of its key's slot had, inside the window: the
key was given the frame's value last. -/
def Unambiguous (pg : Proxy × Book) (e : Arrival) : Prop :=
  ∀ key ∈ wcmdAdmits e.cfg e.req e.peerIsLoopback, ∀ a ∈ pg.2.slot e.req.key,
    a.1.seq = e.req.seq → pg.1.clock + e.dt - a.2 < wcmdBurstDedupUs →
    pg.2.lastValue e.req.key = some e.req.value

theorem sameOk_iff {p : Proxy} {g : Book} (h : SlotsAgree p g) (e : Arrival) :
    noFalseCoalescing.Accepts g (p.step e).2 ↔ Unambiguous (p, g) e := by
  cases hadm : wcmdAdmits e.cfg e.req e.peerIsLoopback with
  | none =>
      have haway : TurnedAway p.st (p.out e) := wcmdDispatch_turnedAway _ _ _ _ _ hadm
      rw [step_turnedAway haway]
      refine iff_of_true ⟨decide_eq_true haway.notOk, trivial⟩ ?_
      intro key hkey
      rw [hadm] at hkey
      cases hkey
  | some key =>
      have hk := ofByte_of_admits hadm
      have hdupIff := h.isDup_iff hk e.req.seq (p.clock + e.dt)
      have hend : Ends p.st key e.req.seq (p.clock + e.dt) (p.out e) _ :=
        wcmdDispatch_admitted _ _ _ _ _ hadm
      have hreceipt := step_ends hend
      cases hdup : p.st.isDup key e.req.seq (p.clock + e.dt) with
      | false =>
          have haccept : noFalseCoalescing.Accepts g (p.step e).2 := by
            rw [hdup, if_neg Bool.false_ne_true] at hend hreceipt
            rw [hreceipt]
            cases hcarry : wcmdCarries e.cfg p.st key e.req.value (p.clock + e.dt) e.io with
            | true => exact ⟨rfl, trivial⟩
            | false =>
                rw [hcarry] at hend
                refine ⟨decide_eq_true ?_, trivial⟩
                cases hend with
                | refused _ _ _ hok _ => exact hok
                | hookFailed _ _ _ _ hr =>
                    rw [hr]
                    exact fun h => nomatch h
          refine iff_of_true haccept ?_
          intro _ _ a ha hseq hnear
          have hyes := hdupIff.mpr ⟨a, ha, hseq, hnear⟩
          rw [hdup] at hyes
          cases hyes
      | true =>
          obtain ⟨a, ha, hseq, hnear⟩ := hdupIff.mp hdup
          have haccept : noFalseCoalescing.Accepts g [.coalesced e.req (p.clock + e.dt)] ↔
              g.lastValue e.req.key = some e.req.value := by
            rw [Monitor.accepts_cons, and_iff_left (Monitor.accepts_nil ..)]
            exact decide_eq_true_iff
          rw [hreceipt, hdup, if_pos rfl]
          refine haccept.trans ⟨fun hval _ _ _ _ _ _ => hval, fun hall => ?_⟩
          exact hall key hadm a ha hseq hnear

/-! ## The net -/

/-- The dispatcher with the two counters that number its frames, and the frames the ground
station has sent. -/
structure Net where
  proxy : Proxy := {}
  gWcmdSeq : UInt16 := 0
  localCmdSeq : UInt16 := 0
  air : List WcmdReq := []

/-- Moves of the net.  A frame once sent may arrive any number of times, in any order, or never. -/
inductive NetEvent where
  | emit (key : UInt8) (value : ℤ)
  | gsRestart
  | deliver (i : ℕ) (scene : Scene)
  | console (key value : ℤ) (scene : Scene)

namespace Net

variable (n : Net)

/-- `wcmd_emit`: the copies of the burst are one frame. -/
def wcmdEmit (key : UInt8) (value : ℤ) : Net :=
  let seq := n.gWcmdSeq + 1
  { n with gWcmdSeq := seq, air := n.air ++ [⟨seq, key, i32 value⟩] }

/-- A frame at the dispatcher. -/
def dispatch (req : WcmdReq) (scene : Scene) : Net × List Receipt :=
  let (proxy, receipts) := n.proxy.step { scene with req := req }
  ({ n with proxy }, receipts)

/-- HTTP `/cmd` on the vehicle. -/
def apiCmd (key value : ℤ) (scene : Scene) : Net × List Receipt :=
  if key < 1 ∨ 20 < key then (n, [])
  else
    let seq := n.localCmdSeq + 1
    { n with localCmdSeq := seq }.dispatch ⟨seq, UInt8.ofNat key.toNat, i32 value⟩
      { scene with peerIsLoopback := true }

def step : NetEvent → Net × List Receipt
  | .emit key value => (n.wcmdEmit key value, [])
  | .gsRestart => ({ n with gWcmdSeq := 0 }, [])
  | .deliver i scene =>
      match n.air[i]? with
      | none => (n, [])
      | some req => n.dispatch req scene
  | .console key value scene => n.apiCmd key value scene

/-- The frame a move brings to the dispatcher. -/
def arrival : NetEvent → Option Arrival
  | .emit _ _ | .gsRestart => none
  | .deliver i scene => n.air[i]?.map fun req => { scene with req := req }
  | .console key value scene =>
      if key < 1 ∨ 20 < key then none
      else
        some { scene with
          peerIsLoopback := true, req := ⟨n.localCmdSeq + 1, UInt8.ofNat key.toNat, i32 value⟩ }

def machine : Machine Net NetEvent Receipt := ⟨Net.step⟩

/-- A move that brings no frame leaves the dispatcher alone. -/
theorem step_of_none {n : Net} {e : NetEvent} (h : n.arrival e = none) :
    (n.step e).1.proxy = n.proxy ∧ (n.step e).2 = [] := by
  cases e with
  | emit key value => exact ⟨rfl, rfl⟩
  | gsRestart => exact ⟨rfl, rfl⟩
  | deliver i scene =>
      rw [arrival, Option.map_eq_none_iff] at h
      rw [step, h]
      exact ⟨rfl, rfl⟩
  | console key value scene =>
      rw [arrival] at h
      rw [step, apiCmd]
      split at h
      · next hkey =>
          rw [if_pos hkey]
          exact ⟨rfl, rfl⟩
      · cases h

/-- A move that brings one is the dispatcher's step. -/
theorem step_of_some {n : Net} {e : NetEvent} {a : Arrival} (h : n.arrival e = some a) :
    (n.step e).1.proxy = (n.proxy.step a).1 ∧ (n.step e).2 = (n.proxy.step a).2 := by
  cases e with
  | emit key value => cases h
  | gsRestart => cases h
  | deliver i scene =>
      rw [arrival, Option.map_eq_some_iff] at h
      obtain ⟨req, hreq, rfl⟩ := h
      rw [step, hreq]
      exact ⟨rfl, rfl⟩
  | console key value scene =>
      rw [arrival] at h
      rw [step, apiCmd]
      split at h
      · cases h
      · next hkey =>
          cases h
          rw [if_neg hkey]
          exact ⟨rfl, rfl⟩

/-- Every frame a move brings is unambiguous. -/
def Unambiguous (ng : Net × Book) (e : NetEvent) : Prop :=
  ∀ a ∈ ng.1.arrival e, Link.Unambiguous (ng.1.proxy, ng.2) a

/-- Every move keeps the ledger in agreement with the dispatcher's slots. -/
theorem slotsAgree_step {n : Net} {g : Book} (h : SlotsAgree n.proxy g) (e : NetEvent) :
    SlotsAgree (n.step e).1.proxy (noFalseCoalescing.after g (n.step e).2) := by
  cases harr : n.arrival e with
  | none =>
      obtain ⟨hp, ho⟩ := step_of_none harr
      rw [hp, ho]
      exact h
  | some a =>
      obtain ⟨hp, ho⟩ := step_of_some harr
      rw [hp, ho]
      exact Vehicle.slotsAgree_step h a sameOk

/-- The receipts of a move are right iff the frame it brings is unambiguous. -/
theorem sameOk_iff {n : Net} {g : Book} (h : SlotsAgree n.proxy g) (e : NetEvent) :
    noFalseCoalescing.Accepts g (n.step e).2 ↔ Unambiguous (n, g) e := by
  rw [Unambiguous]
  cases harr : n.arrival e with
  | none =>
      rw [(step_of_none harr).2]
      refine iff_of_true trivial ?_
      intro a ha
      cases ha
  | some a =>
      rw [(step_of_some harr).2, Link.sameOk_iff h a]
      constructor
      · rintro hone _ ⟨⟩
        exact hone
      · intro hall
        exact hall a rfl

end Net

/-- Over every run of the ground station, its restarts and the local console: no command is
answered OK as a copy of one with another value iff no two commands of a key with different
values meet in one number inside the window. -/
theorem no_false_coalescing_iff (es : List NetEvent) :
    noFalseCoalescing.Accepts {} (Net.machine.trace {} es) ↔
      (Net.machine.watch noFalseCoalescing).Meets Net.Unambiguous ({}, {}) es := by
  let Inv (n : Net) (g : Book) : Prop := SlotsAgree n.proxy g
  have hkeep : ∀ n g e, Inv n g → Net.Unambiguous (n, g) e →
      Inv (Net.machine.step n e).1 (noFalseCoalescing.after g (Net.machine.step n e).2) :=
    fun _ _ e h _ => Net.slotsAgree_step h e
  have hok : ∀ n g e, Inv n g →
      (noFalseCoalescing.Accepts g (Net.machine.step n e).2 ↔ Net.Unambiguous (n, g) e) :=
    fun _ _ e h => Net.sameOk_iff h e
  have hboot : Inv {} {} := slotsAgree_boot
  exact Machine.accepts_trace_iff hkeep hok hboot es

/-- The first command of the ground station sets one bitrate; the first one of the console, a
fifth of a second later, another. -/
def collidingRun : List NetEvent :=
  [.emit 1 5000, .deliver 0 { dt := 1000000 }, .console 1 8000 { dt := 200000 }]

theorem no_false_coalescing_broken :
    ¬ ∀ es : List NetEvent, noFalseCoalescing.Accepts {} (Net.machine.trace {} es) :=
  not_forall.mpr ⟨collidingRun, by decide +kernel⟩

end Waybeam.Link
