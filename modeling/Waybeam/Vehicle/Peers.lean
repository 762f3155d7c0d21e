/-
# `Waybeam.Vehicle.Peers` — what the other ends of the server's connections see

`World` is folded over what the server does: for each connection its phase, what was read from
it, what it asked for, and for a subscriber the events there have been since it attached.  It
accepts a use of a connection only while that is open.

`Inv` ties it to the slots.  The parameter of `Inv` says how a slot stands to its peer, since that
changes in the course of a step:

    Tells []       between steps: a reader's bytes are its buffer, a subscriber has every event
    Tells [event]  a subscriber the broadcast has not come to
    frozen         the slot whose request is being answered: nobody writes to it on the side

Every step keeps it (`turn_inv`), so every run does (`run_inv`).
-/
import Mathlib.Data.Fintype.Card
import Waybeam.Vehicle.Api

namespace Waybeam.Vehicle.Api

open Text

/-! ## The world -/

inductive Phase where
  | unborn
  | live
  | gone
  deriving DecidableEq

/-- The other end of a connection. -/
structure Peer where
  phase : Phase := .unborn
  /-- what was read from it -/
  heard : Bytes := []
  /-- the buffers that were taken for its request -/
  asked : List Bytes := []
  controls : List Control := []
  /-- the events since it became a subscriber -/
  feed : Option (List SseEvent) := none
  /-- what it was sent, of a subscriber since it is one -/
  got : Bytes := []

/-- One more event for a subscriber. -/
def Peer.tell (event : SseEvent) (p : Peer) : Peer :=
  if p.phase = .live then { p with feed := p.feed.map (· ++ [event]) } else p

structure World where
  next : ℕ := 0
  peers : Conn → Peer := fun _ => {}

def World.set (w : World) (c : Conn) (p : Peer) : World :=
  { w with peers := Function.update w.peers c p }

/-- The history of the connections, and the condition on their use. -/
def world : Monitor Obs World where
  upd w o :=
    match o with
    | .accepted c => { w.set c { w.peers c with phase := .live } with next := w.next + 1 }
    | .received c bytes => w.set c { w.peers c with heard := (w.peers c).heard ++ bytes }
    | .sent c bytes => w.set c { w.peers c with got := (w.peers c).got ++ bytes }
    | .closed c => w.set c { w.peers c with phase := .gone }
    | .asked c buf => w.set c { w.peers c with asked := (w.peers c).asked ++ [buf] }
    | .control c k => w.set c { w.peers c with controls := (w.peers c).controls ++ [k] }
    | .attached c => w.set c { w.peers c with feed := some [], got := [] }
    | .event e => { w with peers := fun c => (w.peers c).tell e }
  ok w o :=
    match o with
    | .accepted c => c = w.next ∧ (w.peers c).phase = .unborn
    | .received c _ | .sent c _ | .closed c | .asked c _ | .control c _ | .attached c =>
        (w.peers c).phase = .live
    | .event _ => true

/-! ## Peers in order -/

/-- The events, one after the other. -/
def streamOf (events : List SseEvent) : Bytes := events.flatMap SseEvent.bytes

/-- All of the events were sent, or all but the last and of that one a part. -/
def Delivered (events : List SseEvent) (got : Bytes) : Prop :=
  got = streamOf events ∨
    ∃ before last part, events = before ++ [last] ∧ part <+: last.bytes ∧ part ≠ last.bytes ∧
      got = streamOf before ++ part

/-- What the bytes read from a connection ask to be changed. -/
def controlOf (long : ℕ) (buf : Bytes) : Option Control := (ask buf).control long

/-- What it asked is all that was read from it, with a blank line in it. -/
def Peer.AskedOnce (p : Peer) : Prop := p.asked = [] ∨ p.asked = [p.heard] ∧ complete p.heard = true

/-- What holds of a peer at any time. -/
structure Sound (long : ℕ) (p : Peer) : Prop where
  asked : p.AskedOnce
  controls : p.controls = p.asked.filterMap (controlOf long)
  feed : ∀ events, p.feed = some events → Delivered events p.got

/-- How a slot stands to its peer; `owed` are the events on their way. -/
structure Tells (long : ℕ) (owed : List SseEvent) (a : ApiClient) (p : Peer) : Prop where
  phase : p.phase = .live
  asked : p.AskedOnce
  controls : p.controls = p.asked.filterMap (controlOf long)
  reading : a.sse = false → p.feed = none ∧ p.asked = [] ∧ p.heard = a.buf
  subscribed : a.sse = true → ∃ events, p.feed = some (events ++ owed) ∧ p.got = streamOf events

/-- A connection that is closed. -/
structure Settled (long : ℕ) (p : Peer) : Prop extends Sound long p where
  gone : p.phase = .gone

/-- The slots and the world, where slot and peer stand to each other as `R` says. -/
structure Inv (long : ℕ) (R : Slot → ApiClient → Peer → Prop) (s : Server) (w : World) : Prop where
  next : w.next = s.accepted
  unborn : ∀ c, s.accepted ≤ c → w.peers c = {}
  born : ∀ i c, (s.clients i).fd = some c → c < s.accepted
  one : ∀ i j c, (s.clients i).fd = some c → (s.clients j).fd = some c → i = j
  slot : ∀ i c, (s.clients i).fd = some c → R i (s.clients i) (w.peers c)
  rest : ∀ c, c < s.accepted → (∀ i, (s.clients i).fd ≠ some c) → Settled long (w.peers c)
  open' : ∀ i, (s.clients i).sse = true → (s.clients i).fd.isSome
  few : s.countSse ≤ API_MAX_SSE

/-- The slots in `frozen` are being served; their peers are as given. -/
def Role (long : ℕ) (frozen : Slot → Option Peer) (owed : Slot → List SseEvent) (i : Slot)
    (a : ApiClient) (p : Peer) : Prop :=
  match frozen i with
  | some p₀ => a.sse = false ∧ p₀.feed = none ∧ p = p₀
  | none => Tells long (owed i) a p

/-- Between steps. -/
def Calm (long : ℕ) : Server → World → Prop := Inv long (Role long (fun _ => none) (fun _ => []))

variable {long : ℕ} {R R' : Slot → ApiClient → Peer → Prop} {s : Server} {w : World} {i : Slot} {c : Conn}

/-! ## One slot at a time -/

@[simp] theorem setClient_same (a : ApiClient) : (s.setClient i a).clients i = a :=
  Function.update_self ..

theorem setClient_ne {j : Slot} (h : j ≠ i) (a : ApiClient) :
    (s.setClient i a).clients j = s.clients j :=
  Function.update_of_ne h ..

@[simp] theorem setClient_accepted (a : ApiClient) : (s.setClient i a).accepted = s.accepted := rfl

@[simp] theorem set_peers (p : Peer) : (w.set c p).peers c = p := Function.update_self ..

theorem set_peers_ne {d : Conn} (h : d ≠ c) (p : Peer) : (w.set c p).peers d = w.peers d :=
  Function.update_of_ne h ..

@[simp] theorem set_set (p q : Peer) : (w.set c p).set c q = w.set c q := by
  simp [World.set]

@[simp] theorem set_next (p : Peer) : (w.set c p).next = w.next := rfl

theorem slots_nodup : slots.Nodup := List.nodup_finRange _

theorem mem_slots (i : Slot) : i ∈ slots := List.mem_finRange i

theorem countSse_eq (s : Server) :
    s.countSse = (Finset.univ.filter fun i => (s.clients i).sse = true).card := by
  rw [Server.countSse, List.countP_eq_length_filter, ← List.toFinset_card_of_nodup (slots_nodup.filter _)]
  congr 1
  ext i
  simp [mem_slots]

theorem countSse_setClient_le {a : ApiClient} (h : a.sse = true → (s.clients i).sse = true) :
    (s.setClient i a).countSse ≤ s.countSse := by
  refine List.countP_mono_left fun j _ hj => ?_
  by_cases hji : j = i
  · rw [hji, setClient_same] at hj
    rw [hji]
    exact h hj
  · rwa [setClient_ne hji] at hj

theorem countSse_setClient_succ (a : ApiClient) : (s.setClient i a).countSse ≤ s.countSse + 1 := by
  rw [countSse_eq, countSse_eq]
  refine le_trans (Finset.card_le_card (t := insert i _) fun j hj => ?_) (Finset.card_insert_le i _)
  rw [Finset.mem_insert]
  by_cases hji : j = i
  · exact .inl hji
  · right
    rw [Finset.mem_filter, setClient_ne hji] at hj
    exact Finset.mem_filter.mpr hj

/-- The slot keeps its connection or gives it up. -/
theorem Inv.set (h : Inv long R s w) (hfd : (s.clients i).fd = some c) {a : ApiClient} {p : Peer}
    (ha : ∀ d, a.fd = some d → d = c) (hi : a.fd = some c → R' i a p)
    (hp : a.fd = none → Settled long p) (hopen : a.sse = true → a.fd.isSome)
    (hfew : (s.setClient i a).countSse ≤ API_MAX_SSE) (hR : ∀ j, j ≠ i → ∀ a p, R j a p → R' j a p) :
    Inv long R' (s.setClient i a) (w.set c p) := by
  have hback : ∀ j d, ((s.setClient i a).clients j).fd = some d → (s.clients j).fd = some d := by
    intro j d hj
    by_cases hji : j = i
    · rw [hji, setClient_same] at hj
      rw [hji, hfd, ha d hj]
    · rwa [setClient_ne hji] at hj
  have hother : ∀ j, j ≠ i → ∀ d, (s.clients j).fd = some d → d ≠ c :=
    fun j hji d hj heq => hji (h.one j i c (heq ▸ hj) hfd)
  constructor
  · exact h.next
  · intro d hd
    have hdc : d ≠ c := fun heq => absurd (heq ▸ h.born i c hfd) (Nat.not_lt.mpr hd)
    rw [set_peers_ne hdc]
    exact h.unborn d hd
  · exact fun j d hj => h.born j d (hback j d hj)
  · exact fun j k d hj hk => h.one j k d (hback j d hj) (hback k d hk)
  · intro j d hj
    by_cases hji : j = i
    · rw [hji, setClient_same] at hj ⊢
      cases ha d hj
      rw [set_peers]
      exact hi hj
    · rw [setClient_ne hji] at hj ⊢
      rw [set_peers_ne (hother j hji d hj)]
      exact hR j hji _ _ (h.slot j d hj)
  · intro d hd hfree
    by_cases hdc : d = c
    · rw [hdc, set_peers]
      refine hp ?_
      have hi' := hfree i
      rw [setClient_same, hdc] at hi'
      cases hfd' : a.fd with
      | none => rfl
      | some e => exact absurd (ha e hfd' ▸ hfd') hi'
    · rw [set_peers_ne hdc]
      refine h.rest d hd fun j => ?_
      by_cases hji : j = i
      · rw [hji, hfd]
        exact fun heq => hdc (Option.some.inj heq).symm
      · have hj := hfree j
        rwa [setClient_ne hji] at hj
  · intro j hj
    by_cases hji : j = i
    · rw [hji, setClient_same] at hj ⊢
      exact hopen hj
    · rw [setClient_ne hji] at hj ⊢
      exact h.open' j hj
  · exact hfew

/-- The slot keeps its connection. -/
theorem Inv.keep (h : Inv long R s w) (hfd : (s.clients i).fd = some c) {a : ApiClient} {p : Peer}
    (ha : a.fd = some c) (hi : R' i a p) (hfew : (s.setClient i a).countSse ≤ API_MAX_SSE)
    (hR : ∀ j, j ≠ i → ∀ a p, R j a p → R' j a p) : Inv long R' (s.setClient i a) (w.set c p) := by
  refine h.set hfd ?_ (fun _ => hi) ?_ ?_ hfew hR
  · intro d hd
    exact (Option.some.inj (ha.symm.trans hd)).symm
  · intro hnone
    rw [ha] at hnone
    cases hnone
  · rw [ha]
    exact fun _ => rfl

/-- The slot gives its connection up. -/
theorem Inv.free (h : Inv long R s w) (hfd : (s.clients i).fd = some c) {a : ApiClient} {p : Peer}
    (ha : a.fd = none) (hsse : a.sse = false) (hp : Settled long p)
    (hR : ∀ j, j ≠ i → ∀ a p, R j a p → R' j a p) : Inv long R' (s.setClient i a) (w.set c p) := by
  refine h.set hfd ?_ ?_ (fun _ => hp) ?_ ?_ hR
  · rw [ha]
    intro d hd
    cases hd
  · rw [ha]
    intro hd
    cases hd
  · rw [hsse]
    intro hd
    cases hd
  · exact le_trans (countSse_setClient_le fun hs => absurd hs (by rw [hsse]; decide)) h.few

theorem Inv.mono (h : Inv long R s w) (hR : ∀ j a p, R j a p → R' j a p) : Inv long R' s w :=
  { h with slot := fun i c hi => hR i _ _ (h.slot i c hi) }

@[simp] theorem setClient_self : s.setClient i (s.clients i) = s := by
  simp [Server.setClient]

/-- A use of an open connection. -/
theorem wp_sent (hlive : (w.peers c).phase = .live) (bytes : Bytes) {Q : Server → World → Prop}
    (h : Q s (w.set c { w.peers c with got := (w.peers c).got ++ bytes })) :
    world.wp w (s, [.sent c bytes]) Q :=
  wp_emit (decide_eq_true hlive) h

/-- A last use, and the end. -/
theorem wp_sent_closed (hlive : (w.peers c).phase = .live) (bytes : Bytes) {Q : Server → World → Prop}
    (h : Q s (w.set c { w.peers c with got := (w.peers c).got ++ bytes, phase := .gone })) :
    world.wp w (s, [.sent c bytes, .closed c]) Q := by
  refine ⟨⟨decide_eq_true hlive, decide_eq_true ?_, trivial⟩, ?_⟩
  · show ((w.set c _).peers c).phase = .live
    rw [set_peers]
    exact hlive
  · show Q s ((w.set c _).set c { (w.set c _).peers c with phase := .gone })
    rw [set_peers, set_set]
    exact h

/-! ## Broadcasts -/

/-- The events on their way to the slots the broadcast has yet to come to. -/
def owing (event : SseEvent) (is : List Slot) (i : Slot) : List SseEvent := if i ∈ is then [event] else []

theorem owing_ne {j : Slot} (h : j ≠ i) (event : SseEvent) (is : List Slot) :
    owing event (i :: is) j = owing event is j := by
  simp [owing, h]

variable {frozen : Slot → Option Peer} {event : SseEvent} {took : Conn → ℕ}

/-- A reader is owed nothing. -/
theorem Role.reading {owed owed' : Slot → List SseEvent} {a : ApiClient} {p : Peer}
    (h : Role long frozen owed i a p) (hsse : a.sse = false) : Role long frozen owed' i a p := by
  unfold Role at h ⊢
  split
  · next hf =>
      rw [hf] at h
      exact h
  · next hf =>
      rw [hf] at h
      exact { h with subscribed := fun hs => absurd hs (by rw [hsse]; decide) }

/-- A subscriber is not frozen. -/
theorem Role.subscriber {owed : Slot → List SseEvent} {a : ApiClient} {p : Peer}
    (h : Role long frozen owed i a p) (hsse : a.sse = true) :
    frozen i = none ∧ Tells long (owed i) a p := by
  unfold Role at h
  cases hf : frozen i with
  | none =>
      rw [hf] at h
      exact ⟨rfl, h⟩
  | some p₀ =>
      rw [hf] at h
      exact absurd (h.1.symm.trans hsse) (by decide)

theorem Role.of_tells {owed : Slot → List SseEvent} {a : ApiClient} {p : Peer} (hf : frozen i = none)
    (h : Tells long (owed i) a p) : Role long frozen owed i a p := by
  unfold Role
  rw [hf]
  exact h

theorem Role.congr {owed owed' : Slot → List SseEvent} {a : ApiClient} {p : Peer}
    (h : Role long frozen owed i a p) (heq : owed i = owed' i) : Role long frozen owed' i a p := by
  unfold Role at h ⊢
  rwa [← heq]

theorem push_inv {is : List Slot} (hi : i ∉ is)
    (h : Inv long (Role long frozen (owing event (i :: is))) s w) :
    world.wp w (s.push event took i) (Inv long (Role long frozen (owing event is))) := by
  have hR : ∀ j, j ≠ i → ∀ a p, Role long frozen (owing event (i :: is)) j a p →
      Role long frozen (owing event is) j a p := fun j hj a p hr => hr.congr (owing_ne hj event is)
  -- a slot that is no subscriber, or empty, is passed over
  have hpass : ((s.clients i).sse = false ∨ (s.clients i).fd = none) →
      world.wp w (s, []) (Inv long (Role long frozen (owing event is))) := by
    intro hout
    refine wp_pure { h with slot := fun j c hj => ?_ }
    by_cases hji : j = i
    · rcases hout with hsse | hfd
      · exact (h.slot j c hj).reading (hji ▸ hsse)
      · rw [hji, hfd] at hj
        cases hj
    · exact hR j hji _ _ (h.slot j c hj)
  unfold Server.push
  split
  · next c hsse hfd =>
      obtain ⟨hf, htells⟩ := (h.slot i c hfd).subscriber hsse
      obtain ⟨events, hfeed, hgot⟩ := htells.subscribed hsse
      have hhere : owing event (i :: is) i = [event] := by simp [owing]
      have hdone : owing event is i = [] := by simp [owing, hi]
      rw [hhere] at hfeed
      split
      · refine wp_sent htells.phase event.bytes ?_
        rw [← setClient_self (s := s) (i := i)]
        refine h.keep hfd hfd (Role.of_tells hf ?_) (by rw [setClient_self]; exact h.few) hR
        refine ⟨htells.phase, htells.asked, htells.controls, ?_, ?_⟩
        · intro hreading
          rw [hsse] at hreading
          cases hreading
        · intro _
          refine ⟨events ++ [event], ?_, ?_⟩
          · rw [hdone, List.append_nil]
            exact hfeed
          · show (w.peers c).got ++ event.bytes = _
            rw [hgot, streamOf, streamOf, List.flatMap_append, List.flatMap_singleton]
      · next hshort =>
          refine wp_sent_closed htells.phase _ (h.free hfd rfl rfl ?_ hR)
          refine ⟨⟨htells.asked, htells.controls, ?_⟩, rfl⟩
          intro all hall
          rw [hfeed] at hall
          cases hall
          refine .inr ⟨events, event, event.bytes.take (took c), rfl, List.take_prefix .., ?_, ?_⟩
          · intro heq
            have hlen := congrArg List.length heq
            rw [List.length_take] at hlen
            omega
          · show (w.peers c).got ++ _ = _
            rw [hgot]
  · next hno =>
      refine hpass ?_
      cases hsse : (s.clients i).sse with
      | false => exact .inl rfl
      | true =>
          right
          cases hfd : (s.clients i).fd with
          | none => rfl
          | some c => exact absurd hfd (hno c hsse)

theorem tell_gone {p : Peer} (h : p.phase = .gone) (event : SseEvent) : p.tell event = p := by
  simp [Peer.tell, h]

theorem tell_none {p : Peer} (h : p.feed = none) (event : SseEvent) : p.tell event = p := by
  unfold Peer.tell
  split
  · rw [h]
    cases p
    cases h
    rfl
  · rfl

/-- An event on its way is owed to every subscriber. -/
theorem Inv.tell (h : Inv long (Role long frozen (fun _ => [])) s w) (event : SseEvent) :
    Inv long (Role long frozen (owing event slots)) s
      { w with peers := fun c => (w.peers c).tell event } := by
  refine { next := h.next, unborn := ?_, born := h.born, one := h.one, slot := ?_, rest := ?_,
           open' := h.open', few := h.few }
  · intro c hc
    show (w.peers c).tell event = _
    rw [h.unborn c hc]
    rfl
  · intro j c hj
    show Role long frozen _ j _ ((w.peers c).tell event)
    have hslot := h.slot j c hj
    unfold Role at hslot ⊢
    split
    · next p₀ hf =>
        rw [hf] at hslot
        obtain ⟨hsse, hfeed, hp⟩ := hslot
        exact ⟨hsse, hfeed, by rw [hp, tell_none hfeed]⟩
    · next hf =>
        rw [hf] at hslot
        have htell : (w.peers c).tell event =
            { w.peers c with feed := (w.peers c).feed.map (· ++ [event]) } := if_pos hslot.phase
        rw [htell]
        refine ⟨hslot.phase, hslot.asked, hslot.controls, ?_, ?_⟩
        · intro hsse
          obtain ⟨hfeed, hasked, hheard⟩ := hslot.reading hsse
          exact ⟨by rw [hfeed]; rfl, hasked, hheard⟩
        · intro hsse
          obtain ⟨events, hfeed, hgot⟩ := hslot.subscribed hsse
          refine ⟨events, ?_, hgot⟩
          rw [hfeed, List.append_nil, owing, if_pos (mem_slots j)]
          rfl
  · intro c hc hfree
    show Settled long ((w.peers c).tell event)
    rw [tell_gone (h.rest c hc hfree).gone]
    exact h.rest c hc hfree

theorem broadcast_inv (h : Inv long (Role long frozen (fun _ => [])) s w) :
    world.wp w (s.broadcast event took) (Inv long (Role long frozen (fun _ => []))) := by
  refine wp_andThen (wp_emit rfl (wp_mono (wp_each
    (P := fun is s w => is.Nodup ∧ Inv long (Role long frozen (owing event is)) s w) ?_
    ⟨slots_nodup, h.tell event⟩) ?_))
  · rintro i is s w ⟨hnodup, h⟩
    obtain ⟨hi, his⟩ := List.nodup_cons.mp hnodup
    exact wp_mono (push_inv hi h) fun _ _ h => ⟨his, h⟩
  · rintro s w ⟨-, h⟩
    exact h.mono fun j a p hr => hr.congr (by simp [owing])

theorem log_inv (h : Inv long (Role long frozen (fun _ => [])) s w) (l : Logged) :
    world.wp w (s.log l) (Inv long (Role long frozen (fun _ => []))) := by
  unfold Server.log
  split
  · exact broadcast_inv h
  · exact wp_pure h

theorem logs_inv (h : Inv long (Role long frozen (fun _ => [])) s w) (ls : List Logged) :
    world.wp w (each Server.log ls s) (Inv long (Role long frozen (fun _ => []))) :=
  wp_each (P := fun _ => Inv long (Role long frozen (fun _ => []))) (fun l _ _ _ h => log_inv h l) h

/-! ## A slot that is being served -/

/-- Of the slots only this one is. -/
def only (i : Slot) (p : Peer) (j : Slot) : Option Peer := if j = i then some p else none

/-- While slot `i` is served, for connection `c` with the other end at `p`. -/
structure Busy (long : ℕ) (i : Slot) (c : Conn) (p : Peer) (s : Server) (w : World) : Prop where
  inv : Inv long (Role long (only i p) (fun _ => [])) s w
  fd : (s.clients i).fd = some c

theorem Role.of_only {owed : Slot → List SseEvent} {j : Slot} {a : ApiClient} {p q : Peer} (hj : j ≠ i)
    (h : Role long (only i p) owed j a q) : Role long (fun _ => none) owed j a q := by
  have hnone : only i p j = none := if_neg hj
  unfold Role at h ⊢
  rwa [hnone] at h

theorem Role.to_only {owed : Slot → List SseEvent} {j : Slot} {a : ApiClient} {p q : Peer} (hj : j ≠ i)
    (h : Role long (fun _ => none) owed j a q) : Role long (only i p) owed j a q := by
  have hnone : only i p j = none := if_neg hj
  unfold Role at h ⊢
  rwa [hnone]

theorem Role.frozen_iff {owed : Slot → List SseEvent} {a : ApiClient} {p q : Peer} :
    Role long (only i p) owed i a q ↔ a.sse = false ∧ p.feed = none ∧ q = p := by
  have hsome : only i p i = some p := if_pos rfl
  unfold Role
  rw [hsome]

variable {p : Peer}

theorem Busy.here (h : Busy long i c p s w) :
    (s.clients i).sse = false ∧ p.feed = none ∧ w.peers c = p :=
  Role.frozen_iff.mp (h.inv.slot i c h.fd)

/-- Something happens to the connection. -/
theorem Busy.peer (h : Busy long i c p s w) {q : Peer} (hq : q.feed = none) :
    Busy long i c q s (w.set c q) where
  inv := by
    rw [← setClient_self (s := s) (i := i)]
    exact h.inv.keep h.fd h.fd (Role.frozen_iff.mpr ⟨h.here.1, hq, rfl⟩)
      (by rw [setClient_self]; exact h.inv.few) fun j hj a p hr => (hr.of_only hj).to_only hj
  fd := h.fd

/-- The serving of a slot begins. -/
theorem Calm.serve (h : Calm long s w) (hfd : (s.clients i).fd = some c)
    (hsse : (s.clients i).sse = false) {q : Peer} (hq : q.feed = none) :
    Busy long i c q s (w.set c q) where
  inv := by
    rw [← setClient_self (s := s) (i := i)]
    exact Inv.keep h hfd hfd (Role.frozen_iff.mpr ⟨hsse, hq, rfl⟩)
      (by rw [setClient_self]; exact h.few) fun j hj a p hr => hr.to_only hj
  fd := hfd

theorem Busy.release (h : Busy long i c p s w) (hp : Settled long p) :
    world.wp w (s.release i) (Calm long) := by
  have hinv := h.inv.free h.fd (a := { s.clients i with fd := none }) rfl h.here.1 hp
    fun j hj a p hr => hr.of_only hj
  have hsame : w.set c p = w := by
    rw [← h.here.2.2, World.set, Function.update_eq_self]
  rw [hsame] at hinv
  exact wp_pure hinv

/-- A slot that is no subscriber is left alone by a broadcast. -/
theorem push_clients {s : Server} {a : ApiClient} (ha : a.sse = false) (h : s.clients i = a) (j : Slot) :
    (s.push event took j).1.clients i = a := by
  unfold Server.push
  split
  · next hsse _ =>
      have hij : i ≠ j := by
        rintro rfl
        rw [h, ha] at hsse
        cases hsse
      split
      · exact h
      · exact (setClient_ne hij _).trans h
  · exact h

theorem logs_clients {a : ApiClient} (ha : a.sse = false) (h : s.clients i = a) (ls : List Logged) :
    (each Server.log ls s).1.clients i = a := by
  refine each_keeps (P := fun _ (s : Server) => s.clients i = a) (fun l _ s h => ?_) h
  unfold Server.log
  split
  · exact each_keeps (P := fun _ (s : Server) => s.clients i = a) (fun j _ _ h => push_clients ha h j) h
  · exact h

/-- Logging goes past it. -/
theorem Busy.logs (h : Busy long i c p s w) (ls : List Logged) :
    world.wp w (each Server.log ls s) (Busy long i c p) := by
  obtain ⟨hacc, hinv⟩ := logs_inv h.inv ls
  refine ⟨hacc, hinv, ?_⟩
  rw [logs_clients h.here.1 rfl ls]
  exact h.fd

theorem Busy.respond (h : Busy long i c p s w) (hlive : p.phase = .live) (ws : List WriteRes)
    (r : Reply) : world.wp w (s.respond c ws r)
      (Busy long i c { p with got := p.got ++ apiSend ws r, phase := .gone }) := by
  have hp := h.here.2.2
  refine wp_sent_closed (by rw [hp]; exact hlive) _ ?_
  rw [hp]
  exact h.peer h.here.2.1

/-- A connection that is closed where the server had read this much and it asked for nothing. -/
theorem Tells.settled {a : ApiClient} (h : Tells long [] a p) :
    Settled long { p with phase := .gone } where
  asked := h.asked
  controls := h.controls
  feed := by
    intro events hevents
    cases hsse : a.sse with
    | false =>
        have hnone := (h.reading hsse).1
        rw [show p.feed = some events from hevents] at hnone
        cases hnone
    | true =>
        obtain ⟨events', hfeed, hgot⟩ := h.subscribed hsse
        rw [show p.feed = some events from hevents, List.append_nil] at hfeed
        cases hfeed
        exact .inl hgot
  gone := rfl

theorem Calm.tells (h : Calm long s w) (hfd : (s.clients i).fd = some c) :
    Tells long [] (s.clients i) (w.peers c) := h.slot i c hfd

theorem drop_inv (h : Calm long s w) (hfd : (s.clients i).fd = some c) :
    world.wp w (s.drop i) (Calm long) := by
  have htells := Calm.tells h hfd
  unfold Server.drop
  rw [hfd]
  exact wp_emit (decide_eq_true htells.phase)
    (Inv.free h hfd rfl rfl htells.settled fun _ _ _ _ hr => hr)

/-! ## The steps -/

theorem Busy.control (h : Busy long i c p s w) (hlive : p.phase = .live) (hnone : p.controls = [])
    (k : Option Control) : world.wp w (s, (k.map (Obs.control c)).toList)
      (Busy long i c { p with controls := k.toList }) := by
  have hp := h.here.2.2
  cases k with
  | none =>
      have hsame : { p with controls := [] } = p := by
        cases p
        cases hnone
        rfl
      refine wp_pure ?_
      rw [Option.toList_none, hsame]
      exact h
  | some k =>
      refine wp_emit (decide_eq_true (hp ▸ hlive)) ?_
      show Busy long i c _ s (w.set c { w.peers c with controls := (w.peers c).controls ++ [k] })
      rw [hp, hnone]
      exact h.peer h.here.2.1

theorem handle_inv (h : Busy long i c p s w) (hlive : p.phase = .live)
    (hasked : p.asked = [(s.clients i).buf]) (hheard : p.heard = (s.clients i).buf)
    (hblank : complete (s.clients i).buf = true) (hnone : p.controls = []) (v : Visit) :
    world.wp w (s.handle long i c v) (Calm long) := by
  have hp := h.here.2.2
  have honce : p.AskedOnce := .inr ⟨by rw [hasked, hheard], by rw [hheard]; exact hblank⟩
  have hctl : p.asked.filterMap (controlOf long) = (controlOf long (s.clients i).buf).toList := by
    rw [hasked]
    cases hk : controlOf long (s.clients i).buf with
    | none => rw [List.filterMap_cons_none hk]; rfl
    | some k => rw [List.filterMap_cons_some hk]; rfl
  unfold Server.handle
  dsimp only
  split_ifs with hevents
  · refine wp_andThen ⟨⟨decide_eq_true (hp ▸ hlive), decide_eq_true ?_, trivial⟩, logs_inv ?_ _⟩
    · show ((w.set c _).peers c).phase = .live
      rw [set_peers, hp]
      exact hlive
    · show Inv long _ _ ((w.set c _).set c { (w.set c _).peers c with feed := some [], got := [] })
      rw [set_peers, set_set, hp]
      refine h.inv.keep h.fd (a := { s.clients i with buf := [], sse := true }) h.fd
        (Role.of_tells rfl ⟨hlive, honce, ?_, nofun, ?_⟩) ?_
        fun j hj a p hr => hr.of_only hj
      · rw [hctl, controlOf, hevents.1, hnone]
        rfl
      · exact fun _ => ⟨[], rfl, rfl⟩
      · exact le_trans (countSse_setClient_succ _) (Nat.succ_le_of_lt hevents.2)
  · refine wp_andThen (wp_mono (h.control hlive hnone _) fun s w h => ?_)
    refine wp_andThen (wp_mono (h.logs v.during) fun s w h => ?_)
    refine wp_andThen (wp_mono (h.respond hlive v.writes _) fun s w h => ?_)
    refine wp_andThen (wp_mono (h.logs v.after) fun s w h => ?_)
    refine h.release ⟨⟨honce, hctl.symm, ?_⟩, rfl⟩
    intro events hfeed
    rw [h.here.2.1] at hfeed
    cases hfeed

theorem receive_request {rs : List RecvRes} {buf : Bytes} (h : (receive rs buf).2 = .request) :
    complete (receive rs buf).1 = true := by
  induction rs generalizing buf with
  | nil =>
      unfold receive at h
      split at h <;> cases h
  | cons r rs ih =>
      unfold receive at h ⊢
      split at h
      · cases h
      · next hroom =>
          rw [if_neg hroom]
          cases r with
          | again | error => cases h
          | data bytes =>
              cases bytes with
              | nil => cases h
              | cons b bytes =>
                  dsimp only at h ⊢
                  split at h
                  · next hblank =>
                      rw [if_pos hblank]
                      exact hblank
                  · next hno =>
                      rw [if_neg hno]
                      exact ih h

/-- What was in the buffer stays there. -/
theorem receive_prefix (rs : List RecvRes) (buf : Bytes) : buf <+: (receive rs buf).1 := by
  induction rs generalizing buf with
  | nil =>
      unfold receive
      split <;> exact List.prefix_rfl
  | cons r rs ih =>
      unfold receive
      split
      · exact List.prefix_rfl
      · cases r with
        | again | error => exact List.prefix_rfl
        | data bytes =>
            cases bytes with
            | nil => exact List.prefix_rfl
            | cons b bytes =>
                dsimp only
                split
                · exact List.prefix_append _ _
                · exact (List.prefix_append _ _).trans (ih _)

theorem drain_inv (h : Calm long s w) (hfd : (s.clients i).fd = some c)
    (hsse : (s.clients i).sse = false) (v : Visit) :
    world.wp w (s.drain long i c v) (Calm long) := by
  obtain ⟨hphase, -, hctl, hreading, -⟩ := Calm.tells h hfd
  obtain ⟨hfeed, hasked, hheard⟩ := hreading hsse
  rw [hasked] at hctl
  obtain ⟨got, hgot⟩ := receive_prefix v.recvs (s.clients i).buf
  have hblank : (receive v.recvs (s.clients i).buf).2 = .request → _ := receive_request
  unfold Server.drain
  dsimp only
  generalize receive v.recvs (s.clients i).buf = r at hgot hblank ⊢
  obtain ⟨buf, end'⟩ := r
  dsimp only at hgot hblank ⊢
  subst hgot
  rw [List.drop_left]
  -- the bytes read, on both sides
  have hread : Calm long (s.setClient i { s.clients i with buf := (s.clients i).buf ++ got })
      (w.set c { w.peers c with heard := (w.peers c).heard ++ got }) := by
    refine Inv.keep h hfd hfd (Role.of_tells rfl ⟨hphase, .inl hasked, ?_, ?_, ?_⟩)
      (le_trans (countSse_setClient_le fun hs => hs) h.few) fun _ _ _ _ hr => hr
    · show (w.peers c).controls = List.filterMap _ (w.peers c).asked
      rw [hctl, hasked]
    · exact fun _ => ⟨hfeed, hasked, by show _ ++ got = _; rw [hheard]⟩
    · intro hs
      exact absurd (hsse.symm.trans hs) (by decide)
  refine wp_andThen (wp_emit (decide_eq_true hphase) ?_)
  show world.wp (w.set c { w.peers c with heard := (w.peers c).heard ++ got }) _ _
  generalize hs' : s.setClient i { s.clients i with buf := (s.clients i).buf ++ got } = s' at hread ⊢
  generalize hw' : w.set c { w.peers c with heard := (w.peers c).heard ++ got } = w' at hread ⊢
  have hslot : s'.clients i = { s.clients i with buf := (s.clients i).buf ++ got } := by
    rw [← hs', setClient_same]
  have hpeer : w'.peers c = { w.peers c with heard := (w.peers c).heard ++ got } := by
    rw [← hw', set_peers]
  have hfd' : (s'.clients i).fd = some c := by rw [hslot]; exact hfd
  have hsse' : (s'.clients i).sse = false := by rw [hslot]; exact hsse
  have hlive' : (w'.peers c).phase = .live := by rw [hpeer]; exact hphase
  have hfeed' : (w'.peers c).feed = none := by rw [hpeer]; exact hfeed
  cases end' with
  | waiting => exact wp_pure hread
  | hungUp => exact drop_inv hread hfd'
  | tooLarge =>
      have hbusy := hread.serve hfd' hsse' (q := w'.peers c) hfeed'
      rw [World.set, Function.update_eq_self] at hbusy
      refine wp_andThen (wp_mono (Busy.respond hbusy hlive' v.writes _) fun _ _ hdone => ?_)
      refine hdone.release ⟨⟨?_, ?_, ?_⟩, rfl⟩
      · exact .inl (by rw [hpeer]; exact hasked)
      · show (w'.peers c).controls = List.filterMap _ (w'.peers c).asked
        rw [hpeer]
        show (w.peers c).controls = List.filterMap _ (w.peers c).asked
        rw [hctl, hasked]
      · intro events hev
        rw [show (w'.peers c).feed = some events from hev] at hfeed'
        cases hfeed'
  | request =>
      refine wp_andThen (wp_emit (decide_eq_true hlive') ?_)
      refine handle_inv (hread.serve hfd' hsse' (q := { w'.peers c with
        asked := (w'.peers c).asked ++ [(s.clients i).buf ++ got] }) hfeed') hlive' ?_ ?_ ?_ ?_ v
      · show (w'.peers c).asked ++ _ = _
        rw [hpeer, hslot]
        show (w.peers c).asked ++ _ = _
        rw [hasked]
        rfl
      · show (w'.peers c).heard = _
        rw [hpeer, hslot]
        show (w.peers c).heard ++ got = _
        rw [hheard]
      · rw [hslot]
        exact hblank rfl
      · show (w'.peers c).controls = []
        rw [hpeer]
        exact hctl

theorem visit_inv (h : Calm long s w) (polled : Slot → Bool) (vs : Slot → Visit) (i : Slot) :
    world.wp w (s.visit long polled vs i) (Calm long) := by
  unfold Server.visit
  split
  · next c _ hfd =>
      split
      · split
        · exact drop_inv h hfd
        · exact wp_pure h
      · next hsse =>
          split
          · exact drain_inv h hfd (Bool.eq_false_iff.mpr hsse) _
          · exact wp_pure h
  · exact wp_pure h

theorem reap_inv (h : Calm long s w) (i : Slot) : world.wp w (s.reap i) (Calm long) := by
  unfold Server.reap
  split
  · next hc =>
      obtain ⟨c, hfd⟩ := Option.isSome_iff_exists.mp hc.1
      exact drop_inv h hfd
  · exact wp_pure h

theorem Calm.at (h : Calm long s w) (clock next : ℕ) :
    Calm long { s with clock := clock, nextSsePingUs := next } w :=
  { next := h.next, unborn := h.unborn, born := h.born, one := h.one, slot := h.slot, rest := h.rest
    open' := h.open', few := h.few }

/-- A connection more, in a free slot or in none. -/
theorem Inv.accepted (h : Calm long s w) {p : Peer} {clients : Slot → ApiClient} (clock : ℕ)
    (hsame : ∀ j, clients j = s.clients j ∨
      (s.clients j).fd = none ∧ (clients j).fd = some s.accepted ∧ (clients j).sse = false ∧
        Tells long [] (clients j) p)
    (hone : ∀ i j, (clients i).fd = some s.accepted → (clients j).fd = some s.accepted → i = j)
    (hp : (∀ j, (clients j).fd ≠ some s.accepted) → Settled long p) :
    Calm long { s with clients := clients, accepted := s.accepted + 1, clock := clock }
      { w.set s.accepted p with next := w.next + 1 } := by
  have hold : ∀ j d, (clients j).fd = some d → d = s.accepted ∨ (s.clients j).fd = some d := by
    intro j d hj
    rcases hsame j with heq | ⟨-, hnew, -, -⟩
    · exact .inr (heq ▸ hj)
    · rw [hnew] at hj
      cases hj
      exact .inl rfl
  constructor
  · exact congrArg (· + 1) h.next
  · intro d hd
    have hd' : s.accepted + 1 ≤ d := hd
    show (w.set s.accepted p).peers d = _
    rw [set_peers_ne (Nat.ne_of_gt hd')]
    exact h.unborn d (Nat.le_of_lt hd')
  · intro j d hj
    show d < s.accepted + 1
    rcases hold j d hj with heq | hj
    · rw [heq]
      exact Nat.lt_succ_self _
    · exact (h.born j d hj).trans (Nat.lt_succ_self _)
  · intro j k d hj hk
    rcases hold j d hj with heq | hj'
    · exact hone j k (heq ▸ hj) (heq ▸ hk)
    · rcases hold k d hk with heq | hk'
      · exact hone j k (heq ▸ hj) (heq ▸ hk)
      · exact h.one j k d hj' hk'
  · intro j d hj
    show Role long _ _ j (clients j) ((w.set s.accepted p).peers d)
    rcases hsame j with heq | ⟨-, hnew, -, htells⟩
    · have hj' : (s.clients j).fd = some d := heq ▸ hj
      rw [set_peers_ne (Nat.ne_of_lt (h.born j d hj')), heq]
      exact h.slot j d hj'
    · cases hnew.symm.trans hj
      rw [set_peers]
      exact htells
  · intro d hd hfree
    show Settled long ((w.set s.accepted p).peers d)
    by_cases hda : d = s.accepted
    · rw [hda, set_peers]
      exact hp fun j => hda ▸ hfree j
    · rw [set_peers_ne hda]
      refine h.rest d (Nat.lt_of_le_of_ne (Nat.lt_succ_iff.mp hd) hda) fun j hj => ?_
      rcases hsame j with heq | ⟨hnone, -, -, -⟩
      · exact hfree j ((congrArg ApiClient.fd heq).trans hj)
      · rw [hnone] at hj
        cases hj
  · intro j hj
    show ((clients j).fd).isSome
    rcases hsame j with heq | ⟨-, hnew, -, -⟩
    · rw [heq]
      exact h.open' j (heq ▸ hj)
    · rw [hnew]
      rfl
  · refine le_trans (List.countP_mono_left fun j _ hj => ?_) h.few
    rcases hsame j with heq | ⟨-, -, hsse, -⟩
    · exact heq ▸ hj
    · exact absurd (hsse.symm.trans hj) (by decide)

theorem accept_inv (h : Calm long s w) (a : Waiting) : world.wp w (s.accept a) (Calm long) := by
  have hnew : w.peers s.accepted = {} := h.unborn _ (Nat.le_refl _)
  have hfresh : world.ok w (.accepted s.accepted) := by
    refine decide_eq_true ⟨h.next.symm, ?_⟩
    rw [hnew]
  have hnone : ∀ j, (s.clients j).fd ≠ some s.accepted :=
    fun j hj => absurd (h.born j _ hj) (Nat.lt_irrefl _)
  unfold Server.accept
  dsimp only
  split
  · next i hfind =>
      have hfree : (s.clients i).fd = none :=
        Option.isNone_iff_eq_none.mp (List.find?_some (p := fun j => (s.clients j).fd.isNone) hfind)
      refine wp_emit hfresh ?_
      show Calm long { s with clients := Function.update s.clients i _, accepted := _, clock := _ }
        { w.set s.accepted { w.peers s.accepted with phase := .live } with next := w.next + 1 }
      rw [hnew]
      have honly : ∀ j a, (Function.update s.clients i a j).fd = some s.accepted → j = i := by
        intro j a hj
        by_contra hji
        rw [Function.update_of_ne hji] at hj
        exact hnone j hj
      refine Inv.accepted h _ (fun j => ?_) (fun j k hj hk => (honly j _ hj).trans (honly k _ hk).symm) ?_
      · by_cases hji : j = i
        · right
          rw [hji, Function.update_self]
          refine ⟨hfree, rfl, rfl, rfl, .inl rfl, rfl, fun _ => ⟨rfl, rfl, rfl⟩, nofun⟩
        · exact .inl (Function.update_of_ne hji ..)
      · intro hall
        exact absurd (by rw [Function.update_self]) (hall i)
  · refine wp_andThen (wp_emit hfresh (wp_sent_closed ?_ _ ?_))
    · show ((w.set _ _).peers _).phase = .live
      rw [set_peers]
    · -- refused: what is left of it is a closed connection
      show Calm long _ { (w.set _ _).set _ { (w.set _ _).peers _ with
        got := ((w.set _ _).peers _).got ++ _, phase := .gone } with next := w.next + 1 }
      rw [set_peers, set_set, hnew]
      exact Inv.accepted h _ (fun j => .inl rfl) (fun i _ hi => absurd hi (hnone i)) fun _ =>
        ⟨⟨.inl rfl, rfl, nofun⟩, rfl⟩

theorem heartbeat_inv (h : Calm long s w) (took : Conn → ℕ) :
    world.wp w (s.heartbeat took) (Calm long) := by
  unfold Server.heartbeat
  split
  · exact wp_andThen (wp_mono (broadcast_inv h) fun s w h => wp_pure (Calm.at h s.clock _))
  · exact wp_pure h

theorem turn_inv (h : Calm long s w) (t : Turn) : world.wp w (s.turn long t) (Calm long) := by
  refine wp_andThen (wp_mono (wp_each (P := fun _ => Calm long) (fun a _ _ _ h => accept_inv h a) h)
    fun s w h => ?_)
  refine wp_andThen (wp_mono (wp_each (P := fun _ => Calm long)
    (fun i _ _ _ h => visit_inv h _ t.visits i) h) fun s w h => ?_)
  refine wp_andThen (wp_mono (wp_each (P := fun _ => Calm long) (fun i _ _ _ h => reap_inv h i)
    (Calm.at h _ s.nextSsePingUs)) fun s w h => ?_)
  exact heartbeat_inv h _

theorem init_calm (long : ℕ) : Calm long {} {} where
  next := rfl
  unborn := fun _ _ => rfl
  born := nofun
  one := nofun
  slot := nofun
  rest := nofun
  open' := nofun
  few := by decide

/-- In every run the server uses only connections that are open, and the world is as the slots
say. -/
theorem run_calm (long : ℕ) (es : List Event) :
    world.Accepts {} ((api long).trace {} es) ∧
      Calm long ((api long).run {} es) (world.after {} ((api long).trace {} es)) := by
  have hstep : ∀ s w e, Calm long s w → True → world.wp w ((api long).step s e) (Calm long) := by
    intro s w e h _
    cases e with
    | turn t => exact turn_inv h t
    | log l => exact log_inv h l
  exact Machine.run_wp hstep (init_calm long) (Machine.Meets.of_forall fun _ _ => trivial)

/-- A connection is open as long as it has a slot. -/
theorem Calm.live_iff (h : Calm long s w) (c : Conn) :
    (w.peers c).phase = .live ↔ ∃ i, (s.clients i).fd = some c := by
  constructor
  · intro hlive
    by_contra hno
    rcases Nat.lt_or_ge c s.accepted with hlt | hge
    · have hgone := (h.rest c hlt fun i hi => hno ⟨i, hi⟩).gone
      rw [hlive] at hgone
      cases hgone
    · rw [h.unborn c hge] at hlive
      cases hlive
  · rintro ⟨i, hi⟩
    exact (Calm.tells h hi).phase

/-- Every peer is in order. -/
theorem Calm.sound (h : Calm long s w) (c : Conn) : Sound long (w.peers c) := by
  rcases Nat.lt_or_ge c s.accepted with hlt | hge
  · by_cases hslot : ∃ i, (s.clients i).fd = some c
    · obtain ⟨i, hi⟩ := hslot
      have htells := Calm.tells h hi
      refine ⟨htells.asked, htells.controls, fun events hevents => ?_⟩
      exact htells.settled.feed events hevents
    · exact (h.rest c hlt fun i hi => hslot ⟨i, hi⟩).toSound
  · rw [h.unborn c hge]
    exact ⟨.inl rfl, rfl, nofun⟩

end Waybeam.Vehicle.Api
