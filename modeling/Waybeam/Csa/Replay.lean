/-
# `Waybeam.Csa.Replay` — when a captured frame makes the agent hop again

A session id is a high-water mark: a commit of a session no newer than one already armed
is a replay.  The agent compares the ids only while it is ARMED or in VERIFY; out of IDLE
any session is armed once the cooldown is over.  So the mark holds exactly in the runs in
which no replay finds the agent idle and cooled down.
-/
import Waybeam.Csa.Agent

namespace Waybeam.Csa

/-- The newest session armed so far, and whether its switch has happened. -/
structure Newest where
  sess : Option ℤ := none
  hopped : Bool := false
  deriving DecidableEq, Repr

/-- Newest wins: an armed session is newer than all before, and hops once. -/
def newestWins : Monitor Obs Newest where
  upd g
    | .armed f _ => { sess := some f.sess, hopped := false }
    | .switched .. => { g with hopped := true }
    | _ => g
  ok g
    | .armed f _ => g.sess.all (· < f.sess)
    | .switched .. => !g.hopped
    | _ => true

/-- No replay finds the agent idle and past its cooldown. -/
def Fresh (cfg : CsaCfg) (sg : Agent × Newest) (e : Event) : Prop :=
  ∀ f ∈ e.call.frame,
    sg.1.csa.st = .idle → cfg.admits f → sg.1.csa.cooling cfg e.now = false →
      sg.2.sess.all (· < f.sess)

instance (cfg : CsaCfg) (sg : Agent × Newest) (e : Event) : Decidable (Fresh cfg sg e) :=
  inferInstanceAs (Decidable (∀ f ∈ e.call.frame, _))

/-- While a session is up it is the newest, and it hops from ARMED to VERIFY. -/
structure Marked (s : CsaState) (g : Newest) : Prop where
  newest : s.st ≠ .idle → g.sess = some s.sess
  ahead : s.st = .armed → g.hopped = false

theorem Marked.idle {s : CsaState} {g : Newest} (h : s.st = .idle) : Marked s g :=
  ⟨fun hn => absurd h hn, fun ha => nomatch h.symm.trans ha⟩

/-- Every move keeps the mark. -/
theorem Moves.marked {cfg : CsaCfg} {s s' : CsaState} {e : Event} {os : List Obs} {g : Newest}
    (h : Moves cfg s e s' os) (hg : Marked s g) : Marked s' (newestWins.after g os) := by
  cases h with
  | rest => exact hg
  | commit => exact hg
  | alive => exact hg
  | heardCommit => exact .idle rfl
  | heard => exact .idle rfl
  | stay => exact .idle rfl
  | revert => exact .idle rfl
  | arm f => exact ⟨fun _ => rfl, fun _ => rfl⟩
  | switch _ hst =>
      have hne : s.st ≠ .idle := by simp [hst]
      exact ⟨fun _ => hg.newest hne, fun ha => nomatch ha⟩

/-- A commit frame is armed out of IDLE unless it is refused, and out of the other states
only if it is newer than the session there. -/
theorem onCommit_accepts_iff (cfg : CsaCfg) {s : CsaState} {g : Newest} (hg : Marked s g)
    (f : Commit) (now : ℤ) :
    newestWins.Accepts g (s.onCommit cfg f now).2 ↔
      (s.st = .idle → cfg.admits f → s.cooling cfg now = false → g.sess.all (· < f.sess)) := by
  rw [CsaState.onCommit]
  cases ha : cfg.admits f with
  | false => simp
  | true =>
      simp only [Bool.not_true, Bool.false_eq_true, if_false]
      split
      · next h => simp [newestWins, h.1]
      · split
        · next h =>
            cases hc : s.cooling cfg now with
            | true => simp [newestWins]
            | false =>
                simp only [newestWins, Bool.false_eq_true, if_false, Monitor.accepts_cons,
                  Monitor.accepts_nil, and_true, true_and]
                constructor
                · intro hold _ _ _
                  exact hold
                · intro hold
                  by_cases hst : s.st = .idle
                  · exact hold hst trivial trivial
                  · have hlt := h.resolve_left hst
                    rw [hg.newest hst]
                    simpa using hlt
        · next h =>
            have hst : s.st ≠ .idle := fun hst => h (.inl hst)
            simp [newestWins, hst]

theorem csaTick_accepts (cfg : CsaCfg) {s : CsaState} {g : Newest} (hg : Marked s g) (now : ℤ) :
    newestWins.Accepts g (s.csaTick cfg now).2 := by
  rw [CsaState.csaTick]
  cases hst : s.st with
  | idle => trivial
  | armed =>
      dsimp only
      split
      · have hnot := hg.ahead hst
        exact ⟨by simp [newestWins, hnot], trivial⟩
      · trivial
  | verify =>
      dsimp only
      split
      · exact ⟨rfl, trivial⟩
      · trivial

theorem csaLinkAlive_accepts (s : CsaState) (g : Newest) :
    newestWins.Accepts g s.csaLinkAlive.2 := by
  rw [CsaState.csaLinkAlive]
  cases s.st <;> exact ⟨rfl, trivial⟩

/-- One call keeps newest-wins iff it brings no replay into an idle agent. -/
theorem step_accepts_iff (cfg : CsaCfg) (a : Agent) (g : Newest) (e : Event)
    (hg : Marked a.csa g) :
    newestWins.Accepts g ((machine cfg).step a e).2 ↔ Fresh cfg (a, g) e := by
  obtain ⟨now, call⟩ := e
  cases call with
  | linkAlive => exact iff_of_true (csaLinkAlive_accepts ..) (fun f hf => nomatch hf)
  | tick => exact iff_of_true (csaTick_accepts cfg hg now) (fun f hf => nomatch hf)
  | feed buf =>
      show newestWins.Accepts g (a.csa.csaFeed cfg buf now).2.2 ↔
        ∀ f ∈ frameOf buf, a.csa.st = .idle → cfg.admits f → a.csa.cooling cfg now = false →
          g.sess.all (· < f.sess)
      rw [csaFeed_eq]
      cases frameOf buf with
      | none => simp
      | some f => simpa using onCommit_accepts_iff cfg hg f now

/-- No session is armed that is not newer than all before it, and none hops twice, iff no
replay ever finds the agent idle and past its cooldown. -/
theorem newest_wins_iff (cfg : CsaCfg) (es : List Event) :
    newestWins.Accepts {} ((machine cfg).trace {} es) ↔
      ((machine cfg).watch newestWins).Meets (Fresh cfg) ({}, {}) es := by
  have hinit : Marked ({} : Agent).csa {} := .idle rfl
  have hkeep : ∀ (a : Agent) (g : Newest) (e : Event), Marked a.csa g → Fresh cfg (a, g) e →
      Marked ((machine cfg).step a e).1.csa (newestWins.after g ((machine cfg).step a e).2) :=
    fun a g e hg _ => (step_moves cfg a e).marked hg
  exact Machine.accepts_trace_iff hkeep (step_accepts_iff cfg) hinit es

/-- Session 7 switches and is confirmed; three seconds later its frame is played back. -/
def replayRun : List Event :=
  [⟨1000, .feed (sampleFrame 7)⟩, ⟨1500, .tick⟩, ⟨1600, .linkAlive⟩,
    ⟨4600, .feed (sampleFrame 7)⟩, ⟨5100, .tick⟩]

/-- The replay is armed, and the agent hops again. -/
theorem replay_armed :
    ¬ ∀ (cfg : CsaCfg) (es : List Event),
      newestWins.Accepts {} ((machine cfg).trace {} es) :=
  not_forall.mpr ⟨{}, not_forall.mpr ⟨replayRun, by decide +kernel⟩⟩

end Waybeam.Csa
