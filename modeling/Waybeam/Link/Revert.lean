/-
# `Waybeam.Link.Revert` — where a revert leads

A revert should bring an interface back to what it was on when the session switched, and
nowhere near the target.  Neither party looks: both go where the request said, `prev_chan` and
`prev_ht`.  Left out, the first is the target's own channel, the second HT20.

    request                                      reverts to
    chan=149&ht=HT20&prev_chan=161&prev_ht=HT20  161 HT20
    chan=149&ht=HT20                             149 HT20     the target

Beside the pair runs a record of the tunings and of the request behind every frame.  A revert
is right exactly when the request names the tuning the interface was on (`reverts_home_iff`);
the vehicle reads `prev_ht` up to its first quote.
-/
import Waybeam.Link.Pair

namespace Waybeam.Link

open Text Csa Ground

/-! ## The record -/

/-- What the interfaces were on, and who asked for what. -/
structure Record where
  radio : Radio
  /-- the request under treatment, and the one that armed the session last -/
  asked : Bytes := []
  query : Bytes := []
  /-- the frames sent, each with the request behind it -/
  sent : List (CsaCommit × Bytes) := []
  /-- the request behind the frame the vehicle reads, and behind its session -/
  incoming : Bytes := []
  vehQuery : Bytes := []
  /-- the interfaces just before the session's switch -/
  gsStart : Bytes → Tuning := fun _ => (0, [])
  vehStart : Tuning := (0, [])
  vehTarget : Tuning := (0, [])

/-- The requests, and the tunings at a switch, before it is made. -/
def Record.note (g : Record) : Obs → Record
  | .asked q => { g with asked := q }
  | .ground (.armed _) => { g with query := g.asked }
  | .ground (.frame _ f true) => { g with sent := g.sent ++ [(f, g.query)] }
  | .ground (.switched _ _) => { g with gsStart := g.radio.gs }
  | .delivered i => { g with incoming := (g.sent[i]?.map (·.2)).getD [] }
  | .vehicle (.armed _ _) => { g with vehQuery := g.incoming }
  | .vehicle (.switched chan ht _) => { g with vehStart := g.radio.veh, vehTarget := (chan, ht) }
  | _ => g

def Record.see (g : Record) (o : Obs) : Record := { g.note o with radio := g.radio.see o }

/-- The tunings and requests, and what is demanded of each observation. -/
def record (ok : Record → Obs → Bool) : Monitor Obs Record := ⟨Record.see, ok⟩

/-! ## A revert, and the request it goes by -/

/-- Back to the start, and not to the target. -/
def GoesHome (start target back : Tuning) : Prop := back = start ∧ back ≠ target

/-- The request names the start, and the target is another tuning.  A `prev_chan` left out
names the target's channel. -/
def NamesHome (q prevHt : Bytes) (start target : Tuning) : Prop :=
  (qsGetInt q "prev_chan".toList).getD target.1 = start.1 ∧ prevHt = start.2 ∧ start ≠ target

instance (start target back : Tuning) : Decidable (GoesHome start target back) :=
  inferInstanceAs (Decidable (_ ∧ _))

instance (q prevHt : Bytes) (start target : Tuning) : Decidable (NamesHome q prevHt start target) :=
  inferInstanceAs (Decidable (_ ∧ _ ∧ _))

theorem goesHome_iff {q prevHt : Bytes} {start target : Tuning} {chan : ℤ}
    (h : chan = (qsGetInt q "prev_chan".toList).getD target.1) :
    GoesHome start target (chan, prevHt) ↔ NamesHome q prevHt start target := by
  subst h
  constructor
  · rintro ⟨rfl, hne⟩
    exact ⟨rfl, rfl, hne⟩
  · rintro ⟨hchan, hht, hne⟩
    have hback : ((qsGetInt q "prev_chan".toList).getD target.1, prevHt) = start :=
      Prod.ext hchan hht
    exact ⟨hback, hback ▸ hne⟩

/-- The width the vehicle reads. -/
def readPrevHt (q : Bytes) : Bytes := (csaPrevHt q).takeWhile (· ≠ '"')

/-- Every revert goes home. -/
def homeOk (g : Record) : Obs → Bool
  | .ground (.verified c iw) =>
      iw.all fun cmd =>
        GoesHome (g.gsStart cmd.iface) (c.targetChan, c.targetHt) (cmd.chan, cmd.ht)
  | .vehicle (.reverted chan ht _) => GoesHome g.vehStart g.vehTarget (chan, ht)
  | _ => true

/-- Every revert goes home if and only if the request behind it names the start. -/
def homeIffOk (g : Record) : Obs → Bool
  | .ground (.verified c iw) =>
      iw.all fun cmd =>
        GoesHome (g.gsStart cmd.iface) (c.targetChan, c.targetHt) (cmd.chan, cmd.ht) ↔
          NamesHome g.query (csaPrevHt g.query) (g.gsStart cmd.iface) (c.targetChan, c.targetHt)
  | .vehicle (.reverted chan ht _) =>
      GoesHome g.vehStart g.vehTarget (chan, ht) ↔
        NamesHome g.vehQuery (readPrevHt g.vehQuery) g.vehStart g.vehTarget
  | _ => true

/-! ## What the parties hold, the record knows -/

/-- The session of the vehicle, as the request had it. -/
structure Carried (s : Csa.CsaState) (g : Record) : Prop where
  prevChan : s.prevChan = (qsGetInt g.vehQuery "prev_chan".toList).getD s.targetChan
  prevHt : s.prevHt = readPrevHt g.vehQuery
  target : s.st = .verify → g.vehTarget = (s.targetChan, s.targetHt)

theorem Carried.kept {s : Csa.CsaState} {g g' : Record} (h : Carried s g)
    (hq : g'.vehQuery = g.vehQuery) (ht : g'.vehTarget = g.vehTarget) : Carried s g' where
  prevChan := hq ▸ h.prevChan
  prevHt := hq ▸ h.prevHt
  target := ht ▸ h.target

structure Known (p : Pair) (g : Record) : Prop where
  ground : Upholds p.ground g.query
  air : p.air = g.sent.map Prod.fst
  sent : ∀ x ∈ g.sent, Legible x.2 x.1
  vehicle : p.vehicle.csa.st ≠ .idle → Carried p.vehicle.csa g

section Ground

variable {g : Record}

/-- What a tick does to the record: frames are added, the start is noted, the rest stands. -/
structure Extends (g g' : Record) (fs : List CsaCommit) : Prop where
  query : g'.query = g.query
  sent : g'.sent = g.sent ++ fs.map (·, g.query)
  vehQuery : g'.vehQuery = g.vehQuery
  vehTarget : g'.vehTarget = g.vehTarget

/-- The observations of a tick pass, whatever the interfaces were on. -/
theorem accepts_spoken {c : Ground.CsaState} {os : List Ground.Obs} (hask : Asked g.query c)
    (hos : ∀ o ∈ os, SpeaksFor c o) (hne : ∀ c', Ground.Obs.armed c' ∉ os) :
    (record homeIffOk).Accepts g (os.map .ground) ∧
      Extends g ((record homeIffOk).after g (os.map .ground))
        ((os.map Obs.ground).filterMap Obs.frame) := by
  induction os generalizing g with
  | nil => exact ⟨trivial, ⟨rfl, by simp, rfl, rfl⟩⟩
  | cons o os ih =>
      obtain ⟨ho, hos⟩ := List.forall_mem_cons.mp hos
      have hkeep : Extends g (g.see (.ground o)) ((Obs.ground o).frame.toList) ∧
          homeIffOk g (.ground o) := by
        cases o with
        | frame port f sent =>
            cases sent with
            | true => exact ⟨⟨rfl, rfl, rfl, rfl⟩, rfl⟩
            | false => exact ⟨⟨rfl, (List.append_nil _).symm, rfl, rfl⟩, rfl⟩
        | switched c' iw => exact ⟨⟨rfl, (List.append_nil _).symm, rfl, rfl⟩, rfl⟩
        | tunnel i what => exact ⟨⟨rfl, (List.append_nil _).symm, rfl, rfl⟩, rfl⟩
        | refused why => exact ⟨⟨rfl, (List.append_nil _).symm, rfl, rfl⟩, rfl⟩
        | armed c' => exact absurd List.mem_cons_self (hne c')
        | verified c' iw =>
            refine ⟨⟨rfl, (List.append_nil _).symm, rfl, rfl⟩, ?_⟩
            obtain ⟨hchan, hht⟩ := hask.prev
            obtain ⟨hsame, rfl | rfl⟩ := ho
            · rfl
            · refine List.all_eq_true.mpr fun cmd hcmd => decide_eq_true ?_
              obtain ⟨i, -, rfl⟩ := List.mem_map.mp hcmd
              dsimp only
              rw [hht]
              refine goesHome_iff ?_
              rw [hsame.targetChan]
              exact hchan
      obtain ⟨hext, hok⟩ := hkeep
      have hrest := ih (hext.query ▸ hask) hos fun c' hc' => hne c' (List.mem_cons_of_mem _ hc')
      refine ⟨⟨hok, hrest.1⟩, ?_⟩
      obtain ⟨hquery, hsent, hveh, htarget⟩ := hrest.2
      refine ⟨hquery.trans hext.query, ?_, hveh.trans hext.vehQuery, htarget.trans hext.vehTarget⟩
      show ((record homeIffOk).after (g.see (.ground o)) (os.map .ground)).sent = _
      rw [hsent, hext.sent, hext.query, List.append_assoc, ← List.map_append, List.map_cons,
        List.filterMap_cons]
      cases (Obs.ground o).frame <;> rfl

/-- An event at the ground station passes, and the record goes on to know. -/
theorem ground_known {cfg : CsaCfg} {p : Pair} (h : Known p g) (e : Ground.Event) :
    (record homeIffOk).wp g (Pair.step cfg p (.ground e)) Known := by
  rw [Pair.step, Pair.act]
  split
  · exact wp_pure ⟨h.ground, (List.append_nil _).trans h.air, h.sent, h.vehicle⟩
  · have hmove := ground_moves h.ground e
    have hup := hmove.upholds h.ground
    dsimp only
    generalize (Ground.machine.step p.ground e).1 = s' at hmove hup ⊢
    generalize (Ground.machine.step p.ground e).2 = os at hmove hup ⊢
    cases hmove with
    | aside hq _ _ hos =>
        have htunnels := tunnels_of_aside hq hos
        have hkeep : ∀ o ∈ Pair.query e ++ os.map Obs.ground, (record homeIffOk).Ignores o := by
          intro o ho
          obtain ⟨i, what, rfl⟩ := htunnels o ho
          exact fun g => ⟨rfl, rfl⟩
        rw [behind_of_aside hq] at hup
        refine wp_ignored hkeep ⟨hup, ?_, h.sent, h.vehicle⟩
        rw [frames_of_tunnels htunnels, List.append_nil]
        exact h.air
    | refused =>
        exact ⟨⟨rfl, rfl, trivial⟩, ⟨hup, (List.append_nil _).trans h.air, h.sent,
          fun hst => (h.vehicle hst).kept rfl rfl⟩⟩
    | armed =>
        exact ⟨⟨rfl, rfl, trivial⟩, ⟨hup, (List.append_nil _).trans h.air, h.sent,
          fun hst => (h.vehicle hst).kept rfl rfl⟩⟩
    | @tick dt io c hask _ hlead hspoken =>
        obtain ⟨hacc, hext⟩ := accepts_spoken hask hspoken.obs (csaTick_arms_nothing _ _ io)
        refine ⟨hacc, ?_⟩
        show Known _ ((record homeIffOk).after g (List.map Obs.ground _))
        generalize (record homeIffOk).after g (List.map Obs.ground _) = g' at hext ⊢
        refine ⟨hext.query ▸ hup, ?_, ?_, fun hst => (h.vehicle hst).kept hext.vehQuery hext.vehTarget⟩
        · rw [hext.sent, List.map_append, List.map_map, ← h.air]
          exact congrArg (p.air ++ ·) (List.map_id _).symm
        · rw [hext.sent]
          intro x hx
          rcases List.mem_append.mp hx with hx | hx
          · exact h.sent x hx
          · obtain ⟨f, hf, rfl⟩ := List.mem_map.mp hx
            exact legible_of_spoken hask hspoken.obs hf

end Ground

/-! ## The vehicle's calls -/

/-- A call that brings, if any frame, one the incoming request is behind. -/
theorem call_known {cfg : CsaCfg} {s s' : Csa.CsaState} {e : Csa.Event} {os : List Csa.Obs}
    (hmove : Moves cfg s e s' os) {g : Record}
    (hin : ∀ f ∈ e.call.frame, ∃ x, Legible g.incoming x ∧ f = readBack x)
    (h : s.st ≠ .idle → Carried s g) :
    (record homeIffOk).Accepts g (os.map .vehicle) ∧
      (s'.st ≠ .idle → Carried s' ((record homeIffOk).after g (os.map .vehicle))) := by
  cases hmove with
  | rest => exact ⟨trivial, h⟩
  | commit f => exact ⟨⟨rfl, trivial⟩, fun hst => (h hst).kept rfl rfl⟩
  | heardCommit f => exact ⟨⟨rfl, trivial⟩, fun hst => absurd rfl hst⟩
  | alive => exact ⟨⟨rfl, trivial⟩, fun hst => (h hst).kept rfl rfl⟩
  | heard => exact ⟨⟨rfl, trivial⟩, fun hst => absurd rfl hst⟩
  | arm f hf =>
      obtain ⟨x, hx, rfl⟩ := hin f hf
      refine ⟨⟨rfl, rfl, trivial⟩, fun _ => ⟨?_, ?_, fun hv => nomatch hv⟩⟩
      · show i32 x.prevChan = _
        rw [hx.int, hx.prevChan]
        rfl
      · show x.prevHt.takeWhile _ = _
        rw [hx.prevHt]
        rfl
  | switch _ hst =>
      have hup : s.st ≠ .idle := fun hi => nomatch hi.symm.trans hst
      exact ⟨⟨rfl, trivial⟩, fun _ => ⟨(h hup).1, (h hup).2, fun _ => rfl⟩⟩
  | stay => exact ⟨⟨rfl, trivial⟩, fun hst => absurd rfl hst⟩
  | revert _ hst =>
      have hup : s.st ≠ .idle := fun hi => nomatch hi.symm.trans hst
      obtain ⟨hchan, hht, htarget⟩ := h hup
      refine ⟨⟨decide_eq_true ?_, trivial⟩, fun hst => absurd rfl hst⟩
      rw [hht]
      refine goesHome_iff ?_
      rw [htarget hst]
      exact hchan

/-- What the vehicle does is no news of the ground station. -/
theorem vehicle_kept (ok : Record → Obs → Bool) (os : List Csa.Obs) (g : Record) :
    ((record ok).after g (os.map .vehicle)).query = g.query ∧
      ((record ok).after g (os.map .vehicle)).sent = g.sent := by
  induction os generalizing g with
  | nil => exact ⟨rfl, rfl⟩
  | cons o os ih =>
      obtain ⟨hquery, hsent⟩ := ih (g.see (.vehicle o))
      have hkeep : (g.see (.vehicle o)).query = g.query ∧ (g.see (.vehicle o)).sent = g.sent := by
        cases o <;> exact ⟨rfl, rfl⟩
      exact ⟨hquery.trans hkeep.1, hsent.trans hkeep.2⟩

/-- A call of the vehicle passes, and the record goes on to know. -/
theorem vehicle_known {cfg : CsaCfg} {p : Pair} {g : Record} (h : Known p g) {now : ℤ} {call : Call}
    (hin : ∀ f ∈ call.frame, ∃ x, Legible g.incoming x ∧ f = readBack x) (r : Radio) :
    (record homeIffOk).wp g
      ({ (p.call cfg now call).1 with
          radio := r, air := p.air ++ (p.call cfg now call).2.filterMap Obs.frame },
        (p.call cfg now call).2) Known := by
  have hmove := step_moves cfg p.vehicle ⟨now, call⟩
  obtain ⟨hacc, hcarried⟩ := call_known hmove hin h.vehicle
  obtain ⟨hquery, hsent⟩ :=
    vehicle_kept homeIffOk ((Csa.machine cfg).step p.vehicle ⟨now, call⟩).2 g
  refine ⟨hacc, ⟨?_, ?_, ?_, hcarried⟩⟩
  · exact hquery ▸ h.ground
  · show p.air ++ (List.map Obs.vehicle _).filterMap Obs.frame = _
    rw [frames_of_vehicle, List.append_nil]
    exact h.air.trans (congrArg _ hsent.symm)
  · exact hsent ▸ h.sent

/-- Nothing is heard of, and nothing sent. -/
theorem Known.quiet {p : Pair} {g : Record} (h : Known p g) {p' : Pair}
    (hground : p'.ground = p.ground) (hvehicle : p'.vehicle = p.vehicle)
    (hair : p'.air = p.air ++ []) : Known p' g where
  ground := hground ▸ h.ground
  air := by
    rw [hair, List.append_nil]
    exact h.air
  sent := h.sent
  vehicle := hvehicle ▸ h.vehicle

/-- A frame is read: the record knows the request behind it. -/
theorem deliver_known (cfg : CsaCfg) {p : Pair} {g : Record} (h : Known p g) (i : ℕ) (now : ℤ) :
    (record homeIffOk).wp g (Pair.step cfg p (.deliver i now)) Known := by
  rw [Pair.step, Pair.act]
  cases hi : p.air[i]? with
  | none => exact wp_pure (h.quiet rfl rfl rfl)
  | some f =>
      rw [h.air, List.getElem?_map] at hi
      obtain ⟨x, hx, rfl⟩ := Option.map_eq_some_iff.mp hi
      have hlegible := h.sent x (List.mem_of_getElem? hx)
      let g' : Record := g.see (.delivered i)
      have hincoming : g'.incoming = x.2 := by
        show (g.sent[i]?.map (·.2)).getD [] = x.2
        rw [hx]
        rfl
      have hknown : Known p g' :=
        ⟨h.ground, h.air, h.sent, fun hst => (h.vehicle hst).kept rfl rfl⟩
      have hin : ∀ r ∈ (Call.feed x.1.text).frame, ∃ x, Legible g'.incoming x ∧ r = readBack x := by
        intro r hr
        have hread : frameOf x.1.text = some (readBack x.1) := frameOf_text hlegible.printable
        refine ⟨x.1, hincoming ▸ hlegible, ?_⟩
        exact Option.some.inj (hr.symm.trans hread)
      have hcall := @vehicle_known cfg p g' hknown now (.feed x.1.text) hin
        ((Obs.delivered i :: (p.call cfg now (.feed x.1.text)).2).foldl Radio.see p.radio)
      exact ⟨⟨rfl, hcall.1⟩, hcall.2⟩

/-- Every event passes, and the record goes on to know. -/
theorem step_known (cfg : CsaCfg) {p : Pair} {g : Record} (h : Known p g) (e : Event) :
    (record homeIffOk).wp g (Pair.step cfg p e) Known := by
  cases e with
  | ground e => exact ground_known h e
  | traffic =>
      rw [Pair.step, Pair.act]
      split
      · exact wp_pure (h.quiet rfl rfl rfl)
      · exact wp_pure (h.quiet rfl rfl rfl)
  | retune r =>
      exact ⟨⟨rfl, trivial⟩, ⟨h.ground, (List.append_nil _).trans h.air, h.sent,
        fun hst => (h.vehicle hst).kept rfl rfl⟩⟩
  | tick now =>
      have hin : ∀ f ∈ Call.tick.frame, ∃ x, Legible g.incoming x ∧ f = readBack x :=
        fun f hf => nomatch hf
      exact vehicle_known h hin _
  | hear now =>
      rw [Pair.step, Pair.act]
      cases hn : p.inbox with
      | zero => exact wp_pure (h.quiet rfl rfl rfl)
      | succ n =>
          have hread : Known { p with inbox := n } g := ⟨h.ground, h.air, h.sent, h.vehicle⟩
          have hin : ∀ f ∈ Call.linkAlive.frame, ∃ x, Legible g.incoming x ∧ f = readBack x :=
            fun f hf => nomatch hf
          exact vehicle_known hread hin _
  | deliver i now => exact deliver_known cfg h i now

/-- In every run of the two parties, with frames lost, delayed, copied and reordered and with
any radio: a revert of either leads back to what the interface was on before the session's
switch, and not to the target, if and only if the request behind the session names that tuning. -/
theorem reverts_home_iff (cfg : CsaCfg) (tunnels : List Tunnel) (up : String) (radio : Radio)
    (es : List Event) :
    (record homeIffOk).Accepts { radio := radio }
      ((Pair.machine cfg).trace (Pair.boot tunnels up radio) es) := by
  have hstep : ∀ (p : Pair) (g : Record) (e : Event), Known p g → True →
      (record homeIffOk).wp g ((Pair.machine cfg).step p e) Known :=
    fun p g e h _ => step_known cfg h e
  have hinit : Known (Pair.boot tunnels up radio) { radio := radio } :=
    ⟨fun hne => absurd rfl hne, rfl, fun _ hx => (nomatch hx), fun hne => absurd rfl hne⟩
  exact (Machine.run_wp hstep hinit (Machine.Meets.of_forall fun _ _ => trivial)).1

/-- Both parties on channel 161; a request that does not say so; no frame arrives. -/
def unnamedRun : List Event :=
  [.ground (.post 0 "chan=149&ht=HT20&iface=wlan0".toList), .ground (.tick 0 ⟨0, true⟩),
    .ground (.tick 20000 ⟨0, true⟩), .ground (.tick 20000 ⟨0, true⟩),
    .ground (.tick 20000 ⟨0, true⟩), .ground (.tick 20000 ⟨0, true⟩),
    .ground (.tick 420000 ⟨0, true⟩), .ground (.tick 3000000 ⟨0, true⟩)]

theorem reverts_home_broken :
    ¬ ∀ (cfg : CsaCfg) (tunnels : List Tunnel) (up : String) (radio : Radio) (es : List Event),
      (record homeOk).Accepts { radio := radio }
        ((Pair.machine cfg).trace (Pair.boot tunnels up radio) es) :=
  not_forall.mpr ⟨{}, not_forall.mpr
    ⟨[{ name := "uplink", role := .tx, ifaces := ["wlan0".toList], udpInPort := 5801 }],
      not_forall.mpr ⟨"uplink", not_forall.mpr
        ⟨⟨fun _ => (161, "HT20".toList), (161, "HT20".toList)⟩,
          not_forall.mpr ⟨unnamedRun, by decide +kernel⟩⟩⟩⟩⟩

end Waybeam.Link
