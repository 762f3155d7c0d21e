/-
# `Waybeam.Vehicle.Serving` — what a connection can make the vehicle do

A connection is used while it is open and by one slot, four slots at most are subscribers, and a
reader has two seconds; so the server always comes to take requests again (`run_slots`).

What a connection asks for is decided by its request up to the blank line, however that arrived and
whatever follows it, and it is carried out at most once (`run_control`).  The two requests that
reach the control loop are events of its model: `/set` is `httpSet` of the pairs that parse, `/cmd`
is `httpCmd` (`request_event`).
-/
import Waybeam.Vehicle.Peers
import Waybeam.Vehicle.QParam
import Waybeam.Vehicle.Tunables

namespace Waybeam.Vehicle.Api

open Text

variable {long : ℕ} {s : Server} {w : World}

/-! ## Slots -/

/-- A reader that is not too old. -/
def Young (s : Server) (i : Slot) : Prop :=
  ∀ c, (s.clients i).fd = some c → (s.clients i).sse = false → s.clock - (s.clients i).acceptedUs ≤ 2000000

theorem young_dropped {i j : Slot} (h : j = i ∨ Young s j) :
    Young (s.setClient i (s.clients i).dropped) j := by
  intro c hfd hsse
  by_cases hji : j = i
  · rw [hji, setClient_same] at hfd
    cases hfd
  · rw [setClient_ne hji] at hfd hsse ⊢
    exact (h.resolve_left hji) c hfd hsse

theorem young_push {e : SseEvent} {took : Conn → ℕ} {j : Slot} (h : Young s j) (i : Slot) :
    Young (s.push e took i).1 j := by
  unfold Server.push
  split
  · split
    · exact h
    · exact young_dropped (.inr h)
  · exact h

/-- After the pass of `Server.reap` nobody is. -/
theorem young_reap (s : Server) (j : Slot) : Young (each Server.reap slots s).1 j := by
  have hall := each_keeps (f := Server.reap) (P := fun is s => ∀ j, j ∉ is → Young s j) ?_
    (s := s) fun j hj => absurd (mem_slots j) hj
  · exact hall j List.not_mem_nil
  · intro i is s h j hj
    unfold Server.reap
    by_cases hji : j = i
    · subst hji
      split
      · exact young_dropped (.inl rfl)
      · next hno =>
          intro c hfd hsse
          by_contra hold
          exact hno ⟨by rw [hfd]; rfl, hsse, Nat.not_le.mp hold⟩
    · have hyoung := h j fun hmem => (List.mem_cons.mp hmem).elim hji hj
      split
      · exact young_dropped (.inr hyoung)
      · exact hyoung

theorem young_turn (s : Server) (t : Turn) (j : Slot) : Young (s.turn long t).1 j := by
  unfold Server.turn
  dsimp only [andThen]
  generalize (each (Server.visit long _ t.visits) slots _).1 = s'
  have hyoung := young_reap { s' with clock := s'.clock + t.dt } j
  generalize (each Server.reap slots _).1 = s₁ at hyoung ⊢
  unfold Server.heartbeat
  split
  · have hpushed : Young (each (Server.push .ping t.ping) slots s₁).1 j :=
      each_keeps (P := fun _ s => Young s j) (fun i _ _ h => young_push h i) hyoung
    exact fun c hfd => hpushed c hfd
  · exact hyoung

/-- In every run the connections are used while they are open and belong to one slot each, at most
four of which have subscribers; and at the end of a turn no other is older than two seconds. -/
theorem run_slots (long : ℕ) (es : List Event) (t : Turn) :
    world.Accepts {} ((api long).trace {} (es ++ [.turn t])) ∧
      (∀ c, ((world.after {} ((api long).trace {} (es ++ [.turn t]))).peers c).phase = .live ↔
        ∃! i, (((api long).run {} (es ++ [.turn t])).clients i).fd = some c) ∧
      ((api long).run {} (es ++ [.turn t])).countSse ≤ API_MAX_SSE ∧
      ∀ i, Young ((api long).run {} (es ++ [.turn t])) i := by
  obtain ⟨hacc, hcalm⟩ := run_calm long (es ++ [.turn t])
  refine ⟨hacc, fun c => ?_, hcalm.few, fun i => ?_⟩
  · rw [hcalm.live_iff c]
    constructor
    · rintro ⟨i, hi⟩
      exact ⟨i, hi, fun j hj => hcalm.one j i c hj hi⟩
    · exact fun ⟨i, hi, _⟩ => ⟨i, hi⟩
  · rw [Machine.run_append]
    exact young_turn _ t i

/-! ## Requests -/

/-- A request: up to its blank line, with a path in it. -/
structure Request (q : Bytes) : Prop where
  get : "GET ".toList <+: q
  blank : ' ' ∈ q.drop 4
  free : '\x00' ∉ q
  complete : complete q = true
  first : ∀ p, p <+: q → Api.complete p = true → p = q

/-- `/` is the only path that asks what the client accepts. -/
theorem control_html (html html' : Bool) (qs : Option Bytes) :
    ∀ r ∈ routes, (r.2 html qs).control long = (r.2 html' qs).control long := by
  intro r hr
  simp only [routes, List.mem_cons, List.not_mem_nil, or_false] at hr
  rcases hr with rfl | rfl | rfl | rfl | rfl | rfl | rfl | rfl | rfl | rfl | rfl | rfl | rfl | rfl | rfl | rfl <;>
    rfl

/-- What is asked for, on the path and the query. -/
def controlAt (long : ℕ) (path : Bytes) (qs : Option Bytes) : Option Control :=
  (routes.find? fun r => decide (r.1.toList = path)).bind fun r => (r.2 false qs).control long

/-- The target of a request line. -/
def controlOfTarget (long : ℕ) (target : Bytes) : Option Control :=
  controlAt long (cutAt '?' target).1 (cutAt '?' target).2

theorem controlOf_line {buf line : Bytes} (hreq : cstr buf = "GET ".toList ++ line) (hblank : ' ' ∈ line) :
    controlOf long buf = controlOfTarget long (line.takeWhile (· ≠ ' ')) := by
  have hget : "GET ".toList.isPrefixOf (cstr buf) = true := by
    rw [hreq]
    exact List.isPrefixOf_iff_prefix.mpr (List.prefix_append ..)
  have hdrop : (cstr buf).drop 4 = line := by
    rw [hreq]
    rfl
  rw [controlOf, ask]
  dsimp only
  rw [hget, Bool.not_true, if_neg Bool.false_ne_true, hdrop, if_neg (not_not.mpr hblank), controlOfTarget,
    controlAt]
  cases hfind : routes.find? fun r => decide (r.1.toList = (cutAt '?' (line.takeWhile (· ≠ ' '))).1) with
  | none => rfl
  | some r => exact control_html _ false _ r (List.mem_of_find?_eq_some hfind)

/-- What follows a request makes no difference. -/
theorem Request.controlOf_append {q : Bytes} (h : Request q) (rest : Bytes) :
    controlOf long (q ++ rest) = controlOf long q := by
  obtain ⟨line, rfl⟩ := h.get
  have hline : ' ' ∈ line := h.blank
  have hcstr : ∀ t, cstr (("GET ".toList ++ line) ++ t) = "GET ".toList ++ (line ++ cstr t) := by
    intro t
    rw [cstr, List.takeWhile_append_of_pos, List.append_assoc, ← cstr]
    intro c hc
    exact decide_eq_true fun h0 => h.free (h0 ▸ hc)
  have hstop : ∀ t : Bytes, (line ++ t).takeWhile (· ≠ ' ') = line.takeWhile (· ≠ ' ') := by
    intro t
    obtain ⟨a, b, rfl⟩ := List.append_of_mem hline
    rw [List.append_assoc, List.cons_append, takeWhile_stop (by decide), takeWhile_stop (by decide)]
  have hself := hcstr []
  rw [List.append_nil] at hself
  rw [controlOf_line (hcstr rest) (List.mem_append_left _ hline),
    controlOf_line hself (List.mem_append_left _ hline), hstop, hstop]

/-- In every run: of a connection that sends a request, and whatever else behind it, at most the
request is carried out, once; however what it sends is cut up, and whatever else goes on. -/
theorem run_control (long : ℕ) (es : List Event) (c : Conn) {q : Bytes} (rest : Bytes) (hq : Request q)
    (hstream : ((world.after {} ((api long).trace {} es)).peers c).heard <+: q ++ rest) :
    ((world.after {} ((api long).trace {} es)).peers c).controls = [] ∨
      ((world.after {} ((api long).trace {} es)).peers c).controls = (controlOf long q).toList := by
  have hsound := (run_calm long es).2.sound c
  generalize (world.after {} ((api long).trace {} es)).peers c = p at hsound hstream ⊢
  rw [hsound.controls]
  rcases hsound.asked with hnone | ⟨hasked, hblank⟩
  · left
    rw [hnone]
    rfl
  · right
    have hheard : controlOf long p.heard = controlOf long q := by
      rcases List.prefix_or_prefix_of_prefix hstream (List.prefix_append q rest) with hpre | ⟨more, hmore⟩
      · rw [hq.first _ hpre hblank]
      · rw [← hmore]
        exact hq.controlOf_append more
    rw [hasked, ← hheard]
    cases hc : controlOf long p.heard with
    | none => rw [List.filterMap_cons_none hc]; rfl
    | some k => rw [List.filterMap_cons_some hc]; rfl

/-- What the kernel hands out at a visit of any slot. -/
def reads (bytes : String) : Event :=
  .turn { visits := fun _ => { readable := true, recvs := [.data bytes.toList], page := ⟨200, some []⟩ } }

theorem run_control_cut :
    ((world.after {} ((api 64).trace {} [.turn { waiting := [⟨5, []⟩] }, reads "GET /set?fec.m",
        reads "tu=1400 HTTP/1.1\r\n\r\nGET /log/stop "])).peers 0).controls = [] ∨
      ((world.after {} ((api 64).trace {} [.turn { waiting := [⟨5, []⟩] }, reads "GET /set?fec.m",
        reads "tu=1400 HTTP/1.1\r\n\r\nGET /log/stop "])).peers 0).controls =
        (controlOf 64 "GET /set?fec.mtu=1400 HTTP/1.1\r\n\r\n".toList).toList := by
  have hfirst : ∀ p ∈ "GET /set?fec.mtu=1400 HTTP/1.1\r\n\r\n".toList.inits, complete p = true →
      p = "GET /set?fec.mtu=1400 HTTP/1.1\r\n\r\n".toList := by decide +kernel
  exact run_control 64 _ 0 "GET /log/stop ".toList
    ⟨by decide, by decide, by decide, by decide, fun p hp => hfirst p ((List.mem_inits p _).mpr hp)⟩
    (by decide +kernel)

/-! ## Requests to the control loop -/

/-- A request as a browser sends it. -/
def requestText (target headers : Bytes) : Bytes := "GET ".toList ++ (target ++ ' ' :: headers)

/-- What a change is to the control loop, where it is anything; `io` is what its calls answer. -/
def Control.event (long dt : ℕ) (io : CmdIo) : Control → Option Vehicle.Event
  | .set qs => some (.httpSet (Registry.pairsRead long qs))
  | .cmd key value => some (.httpCmd dt key value io)
  | _ => none

theorem controlOf_requestText {target : Bytes} (hfree : ∀ c ∈ target, c ≠ ' ' ∧ c ≠ '\x00')
    (headers : Bytes) : controlOf long (requestText target headers) = controlOfTarget long target := by
  have hreq : cstr (requestText target headers) = "GET ".toList ++ (target ++ ' ' :: cstr headers) := by
    rw [requestText, cstr, List.takeWhile_append_of_pos (by decide),
      List.takeWhile_append_of_pos fun c hc => decide_eq_true (hfree c hc).2]
    rfl
  rw [controlOf_line hreq (List.mem_append_right _ List.mem_cons_self),
    takeWhile_run (fun c hc => decide_eq_true (hfree c hc).1) (by simp)]

theorem cutAt_first {c : Char} {a : Bytes} (h : c ∉ a) (b : Bytes) : cutAt c (a ++ c :: b) = (a, some b) := by
  have hbehind : behind [c] (a ++ c :: b) = some b := by
    induction a with
    | nil => exact behind_self [c] b
    | cons d a ih =>
        have hd : ¬[c].isPrefixOf (d :: (a ++ c :: b)) = true := by
          intro hpre
          have hcd := (List.cons_prefix_cons.mp (List.isPrefixOf_iff_prefix.mp hpre)).1
          exact h (hcd ▸ List.mem_cons_self)
        rw [List.cons_append, behind, if_neg hd]
        exact ih fun h' => h (List.mem_cons_of_mem _ h')
  have hrun : (a ++ c :: b).takeWhile (· ≠ c) = a :=
    takeWhile_run (fun d hd => decide_eq_true fun heq => h (heq ▸ hd)) (by simp)
  rw [cutAt, hbehind, hrun]

theorem notMem_signed {c : Char} (hdig : c.isDigit = false) (hdash : c ≠ '-') (l : ℤ) : c ∉ signed l := by
  intro hc
  cases l with
  | ofNat n => exact Bool.false_ne_true (hdig.symm.trans (isDigit_of_mem_decimal hc))
  | negSucc n =>
      rcases List.mem_cons.mp hc with h | hc
      · exact hdash h
      · exact Bool.false_ne_true (hdig.symm.trans (isDigit_of_mem_decimal hc))

/-- The query of the WebUI's command console. -/
def cmdQuery (key value : ℤ) : Bytes := "key=".toList ++ (signed key ++ ("&value=".toList ++ signed value))

theorem qparam_cmdQuery {key value : ℤ} (hkey : -2 ^ (long - 1) ≤ key ∧ key < 2 ^ (long - 1))
    (hvalue : -2 ^ (long - 1) ≤ value ∧ value < 2 ^ (long - 1)) :
    qparamLong long (some (cmdQuery key value)) "key" = some key ∧
      qparamLong long (some (cmdQuery key value)) "value" = some value := by
  have hseg : '&' ∉ "key=".toList ++ signed key := by
    intro h
    rcases List.mem_append.mp h with h | h
    · exact absurd h (by decide)
    · exact notMem_signed rfl (by decide) key h
  have hlast : '&' ∉ "value=".toList ++ signed value := by
    intro h
    rcases List.mem_append.mp h with h | h
    · exact absurd h (by decide)
    · exact notMem_signed rfl (by decide) value h
  have hshape : cmdQuery key value =
      ("key=".toList ++ signed key) ++ '&' :: ("value=".toList ++ signed value) := by
    rw [cmdQuery, List.append_assoc]
    rfl
  have hread : ∀ l : ℤ, -2 ^ (long - 1) ≤ l ∧ l < 2 ^ (long - 1) → strtol long (signed l) = some l := by
    intro l hl
    have hsigned : readInt (signed l ++ []) = some (l, []) := readInt_signed l (by intro c hc; cases hc)
    rw [List.append_nil] at hsigned
    rw [strtol, hsigned, Option.map_some, clampLong_of_lt hl.1 hl.2]
  constructor
  · rw [qparamLong_eq long _ (show ∀ c ∈ "key".toList, _ by decide) (by decide), hshape, Ground.qsGet_amp hseg,
      if_pos ⟨signed key, rfl⟩, Option.bind_some]
    exact hread key hkey
  · rw [qparamLong_eq long _ (show ∀ c ∈ "value".toList, _ by decide) (by decide), hshape, Ground.qsGet_amp hseg,
      if_neg ?_, Ground.qsGet_last hlast, if_pos ⟨signed value, rfl⟩, Option.bind_some]
    · exact hread value hvalue
    · intro hpre
      exact absurd (List.cons_prefix_cons.mp hpre).1 (by decide)

/-- The tuning page's `/set` and the console's `/cmd` reach the loop as they were made: the one writes
what its text says, pair by pair, the other is a command of those numbers; a key that is none does
nothing. -/
theorem request_event (hlong : 32 ≤ long) (maxKeys dt : ℕ) (io : CmdIo) {lc : Lc} {m : Registry.Mem} {base : Config}
    (hcfg : lc.cfg = Registry.configOf m base) {qs : Bytes} (hqs : ∀ c ∈ qs, c ≠ ' ' ∧ c ≠ '\x00') {key value : ℤ}
    (hkey : -2 ^ (long - 1) ≤ key ∧ key < 2 ^ (long - 1))
    (hvalue : -2 ^ (long - 1) ≤ value ∧ value < 2 ^ (long - 1)) (headers : Bytes) :
    (((controlOf long (requestText ("/set?".toList ++ qs) headers)).bind (Control.event long dt io)).map
        fun e => (lc.handle e).1.cfg) = some (Registry.configOf (Registry.applyQuery long maxKeys m qs).cfg base) ∧
      ((controlOf long (requestText ("/cmd?".toList ++ cmdQuery key value) headers)).bind (Control.event long dt io) =
        if key < 1 ∨ wcmdNumKeys < key then none else some (.httpCmd dt key value io)) := by
  have hset : cutAt '?' ("/set?".toList ++ qs) = ("/set".toList, some qs) :=
    cutAt_first (a := "/set".toList) (by decide) qs
  have hcmd : cutAt '?' ("/cmd?".toList ++ cmdQuery key value) = ("/cmd".toList, some (cmdQuery key value)) :=
    cutAt_first (a := "/cmd".toList) (by decide) _
  have hfree : ∀ c ∈ cmdQuery key value, c ≠ ' ' ∧ c ≠ '\x00' := by
    have hsigned : ∀ l : ℤ, ∀ c ∈ signed l, c ≠ ' ' ∧ c ≠ '\x00' := fun l c hc =>
      ⟨fun h => notMem_signed rfl (by decide) l (h ▸ hc), fun h => notMem_signed rfl (by decide) l (h ▸ hc)⟩
    rw [cmdQuery]
    simp only [List.forall_mem_append]
    exact ⟨by decide, hsigned key, by decide, hsigned value⟩
  constructor
  · rw [controlOf_requestText (List.forall_mem_append.mpr ⟨by decide, hqs⟩), controlOfTarget, hset,
      ← Registry.httpSet_text hlong maxKeys hcfg]
    rfl
  · rw [controlOf_requestText (List.forall_mem_append.mpr ⟨by decide, hfree⟩), controlOfTarget, hcmd]
    obtain ⟨hreadKey, hreadValue⟩ := qparam_cmdQuery hkey hvalue
    have hcontrol : controlAt long "/cmd".toList (some (cmdQuery key value)) =
        if key < 1 ∨ wcmdNumKeys < key then none else some (.cmd key value) := by
      show (qparamLong long (some (cmdQuery key value)) "key").bind _ = _
      rw [hreadKey, Option.bind_some, hreadValue]
      rfl
    rw [hcontrol]
    split <;> rfl

theorem request_event_console :
    (((controlOf 32 (requestText ("/set?".toList ++ "fec.mtu=1400&mcs.mcs_max=99".toList) "HTTP/1.1\r\n\r\n".toList)).bind
          (Control.event 32 10 {})).map fun e => ((Boot.withDefaults {}).init.handle e).1.cfg) =
        some (Registry.configOf
          (Registry.applyQuery 32 8 Registry.configDefaults "fec.mtu=1400&mcs.mcs_max=99".toList).cfg {}) ∧
      ((controlOf 32 (requestText ("/cmd?".toList ++ cmdQuery 13 (-1)) "HTTP/1.1\r\n\r\n".toList)).bind
        (Control.event 32 10 {}) = if (13 : ℤ) < 1 ∨ wcmdNumKeys < 13 then none else some (.httpCmd 10 13 (-1) {})) :=
  request_event (by decide) 8 10 {} (Registry.configOf_defaults.symm ▸ rfl)
    (show ∀ c ∈ "fec.mtu=1400&mcs.mcs_max=99".toList, _ by decide) (by decide) (by decide) _

end Waybeam.Vehicle.Api
