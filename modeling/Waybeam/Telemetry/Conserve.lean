/-
# `Waybeam.Telemetry.Conserve` — no document is lost

What becomes of the documents is followed by a ledger, from one thing the logger does to the next.

    document     is a row of the open session, or dropped: both before the next datagram
    dropped      an idle record, and the last row of the session is one, too
    commit       there is something to commit
    closed       nothing of the session is left to commit
    status       the rows and the drops of the session are the ones that were counted

So the documents are the rows and the drops, in the order they came in (`fates_eq`).
-/
import Waybeam.Telemetry.Capture

namespace Waybeam.Telemetry

open Text Tokens

/-! ## The ledger -/

/-- A record of a receiver that hears nothing. -/
def pureIdle (long : ℕ) (raw : Bytes) : Bool := (document raw).any fun doc => derivedIsEmpty (derive long doc)

/-- What has become of the documents. -/
structure Ledger where
  /-- a document that nothing has become of yet -/
  awaiting : Option Bytes := none
  session : Option ℕ := none
  rows : ℕ := 0
  drops : ℕ := 0
  /-- the last row of the session is an idle record -/
  idle : Bool := false
  txn : Bool := false
  /-- rows that are not committed yet, the session's own among them -/
  uncommitted : ℕ := 0

/-- The ledger over what the logger does, and what it demands of it. -/
def ledger (long : ℕ) : Monitor Obs Ledger where
  upd g
    | .received raw => { g with awaiting := (document raw).map fun _ => raw }
    | .begin => { g with txn := true }
    | .commit => { g with txn := false, uncommitted := 0 }
    | .created sid =>
        { g with session := some sid, rows := 0, drops := 0, idle := false, uncommitted := g.uncommitted + 1 }
    | .inserted _ _ raw =>
        { g with awaiting := none, rows := g.rows + 1, idle := pureIdle long raw, uncommitted := g.uncommitted + 1 }
    | .dropped _ _ => { g with awaiting := none, drops := g.drops + 1 }
    | .closed _ => { g with session := none }
    | .status .. => g
  ok g
    | .received _ => g.awaiting = none ∧ (g.txn = true → 0 < g.uncommitted)
    | .begin => g.txn = false
    | .commit => g.txn = true ∧ 0 < g.uncommitted
    | .created _ => g.session = none ∧ g.txn = true
    | .inserted sid d raw =>
        g.session = some sid ∧ g.awaiting = some raw ∧ g.txn = true ∧ (document raw).map (derive long) = some d
    | .dropped sid raw =>
        g.session = some sid ∧ g.awaiting = some raw ∧ pureIdle long raw = true ∧ 0 < g.rows ∧ g.idle = true
    | .closed sid => g.session = some sid ∧ g.awaiting = none ∧ g.txn = false ∧ g.uncommitted = 0
    | .status sid records _ dropped =>
        sid = g.session ∧ (g.session ≠ none → records = g.rows ∧ dropped = g.drops)

/-- The document in an observation, and what becomes of one there. -/
def Obs.document : Obs → Option Bytes
  | .received raw => (Telemetry.document raw).map fun _ => raw
  | _ => none

def Obs.fate : Obs → Option Bytes
  | .inserted _ _ raw => some raw
  | .dropped _ raw => some raw
  | _ => none

theorem awaiting_step {long : ℕ} {g : Ledger} {o : Obs} (h : (ledger long).ok g o = true) :
    g.awaiting.toList ++ o.document.toList = o.fate.toList ++ ((ledger long).upd g o).awaiting.toList := by
  cases o with
  | received raw =>
      have hnone := (of_decide_eq_true h).1
      rw [hnone]
      rfl
  | inserted sid d raw =>
      have hraw := (of_decide_eq_true h).2.1
      rw [hraw]
      rfl
  | dropped sid raw =>
      have hraw := (of_decide_eq_true h).2.1
      rw [hraw]
      rfl
  | begin => exact List.append_nil _
  | commit => exact List.append_nil _
  | created sid => exact List.append_nil _
  | closed sid => exact List.append_nil _
  | status sid records bad dropped => exact List.append_nil _

/-- Where the ledger agrees, the documents are the rows and the drops in their order. -/
theorem fates_eq {long : ℕ} {os : List Obs} {g : Ledger} (h : (ledger long).Accepts g os) :
    g.awaiting.toList ++ os.filterMap Obs.document =
      os.filterMap Obs.fate ++ ((ledger long).after g os).awaiting.toList := by
  have hcons : ∀ (f : Obs → Option Bytes) (o : Obs) (os : List Obs),
      (o :: os).filterMap f = (f o).toList ++ os.filterMap f := by
    intro f o os
    cases hf : f o with
    | none => rw [List.filterMap_cons_none hf]; rfl
    | some raw => rw [List.filterMap_cons_some hf]; rfl
  induction os generalizing g with
  | nil => exact List.append_nil _
  | cons o os ih =>
      rw [hcons, hcons, ← List.append_assoc, awaiting_step h.1, List.append_assoc, ih h.2,
        List.append_assoc, Monitor.after_cons]

/-! ## The invariant -/

/-- The loop's variables and the ledger. -/
structure Tracks (dropEmpty : Bool) (s : Capture) (g : Ledger) : Prop where
  session : g.session = s.sessionId
  txn : g.txn = s.inTxn
  rows : s.sessionId ≠ none → s.records = g.rows ∧ s.dropped = g.drops
  idle : s.sessionId ≠ none → s.idleRun = (dropEmpty && g.idle)
  onset : g.idle = true → 0 < g.rows
  committed : g.txn = false → g.uncommitted = 0

/-- Nothing is left undone: no document, no empty transaction. -/
structure Settled (dropEmpty : Bool) (s : Capture) (g : Ledger) : Prop
    extends Tracks dropEmpty s g where
  awaiting : g.awaiting = none
  pending : g.txn = true → 0 < g.uncommitted

variable {long : ℕ} {dropEmpty : Bool} {s : Capture} {g : Ledger} {io : Turn}

/-- The variables that the ledger knows of. -/
def Capture.books (s : Capture) : Option ℕ × Bool × ℕ × ℕ × Bool :=
  (s.sessionId, s.inTxn, s.records, s.dropped, s.idleRun)

theorem Settled.of_books {s' : Capture} (h : Settled dropEmpty s g) (hs : s'.books = s.books) :
    Settled dropEmpty s' g := by
  obtain ⟨⟨hsession, htxn, hrows, hidle, honset, hcommitted⟩, hawaiting, hpending⟩ := h
  simp only [Capture.books, Prod.mk.injEq] at hs
  obtain ⟨hsid, hinTxn, hrecords, hdropped, hrun⟩ := hs
  rw [← hsid] at hsession hrows hidle
  rw [← hrecords, ← hdropped] at hrows
  rw [← hrun] at hidle
  exact ⟨⟨hsession, htxn.trans hinTxn.symm, hrows, hidle, honset, hcommitted⟩, hawaiting, hpending⟩

theorem status_wp {Q : Capture → Ledger → Prop} (h : Tracks dropEmpty s g) (hQ : Q s g) :
    (ledger long).wp g s.statusSetSession Q := by
  refine wp_emit (decide_eq_true ⟨h.session.symm, fun hopen => ?_⟩) hQ
  exact h.rows (h.session ▸ hopen)

theorem commit_wp (h : Settled dropEmpty s g) (now : ℚ) :
    (ledger long).wp g (s.commitTxn now) fun s' g' =>
      Settled dropEmpty s' g' ∧ g'.txn = false ∧ s'.sessionId = s.sessionId := by
  unfold Capture.commitTxn
  split
  · next htxn =>
      have hopen : g.txn = true := h.txn.trans htxn
      refine wp_emit (decide_eq_true ⟨hopen, h.pending hopen⟩) ⟨?_, rfl, rfl⟩
      exact ⟨⟨h.session, rfl, h.rows, h.idle, h.onset, fun _ => rfl⟩, h.awaiting, fun hno => by cases hno⟩
  · next htxn =>
      have hclosed : g.txn = false := h.txn.trans (Bool.eq_false_iff.mpr htxn)
      refine wp_pure ⟨?_, hclosed, rfl⟩
      exact ⟨⟨h.session, hclosed, h.rows, h.idle, h.onset, h.committed⟩, h.awaiting, h.pending⟩

theorem close_wp (h : Settled dropEmpty s g) (now : ℚ) :
    (ledger long).wp g (s.closeSession now) (Settled dropEmpty) := by
  unfold Capture.closeSession
  split
  · exact wp_pure h
  · next sid hsid =>
      refine wp_andThen (wp_mono (commit_wp h now) fun s' g' hcommitted => ?_)
      obtain ⟨hs, htxn, hsame⟩ := hcommitted
      have hsession : g'.session = some sid := hs.session.trans (hsame.trans hsid)
      have hclosed : Settled dropEmpty { s' with sessionId := none } { g' with session := none } :=
        ⟨⟨rfl, hs.txn, fun hno => absurd rfl hno, fun hno => absurd rfl hno, hs.onset, hs.committed⟩,
          hs.awaiting, hs.pending⟩
      refine wp_andThen (wp_emit (decide_eq_true ⟨hsession, hs.awaiting, htxn, hs.committed htxn⟩) ?_)
      exact status_wp hclosed.toTracks hclosed

theorem begin_wp (h : Tracks dropEmpty s g) :
    (ledger long).wp g s.beginTxn fun s' g' =>
      s' = { s with inTxn := true } ∧ g' = { g with txn := true } := by
  obtain ⟨_, htxn, _, _, _, _⟩ := h
  unfold Capture.beginTxn
  split
  · next hopen =>
      refine wp_pure ⟨?_, ?_⟩
      · rw [← hopen]
      · rw [← hopen, ← htxn]
  · next hclosed => exact wp_emit (decide_eq_true (htxn.trans (Bool.eq_false_iff.mpr hclosed))) ⟨rfl, rfl⟩

/-- A document has been received, and nothing has become of it yet. -/
structure Holds (dropEmpty : Bool) (raw : Bytes) (s : Capture) (g : Ledger) : Prop
    extends Tracks dropEmpty s g where
  awaiting : g.awaiting = some raw
  pending : g.txn = true → 0 < g.uncommitted

variable {raw : Bytes} {doc : List Tok}

theorem openSession_wp (h : Holds dropEmpty raw s g) :
    (ledger long).wp g (s.openSession io) fun s' g' =>
      Holds dropEmpty raw s' g' ∧ ∃ sid, s'.sessionId = some sid := by
  unfold Capture.openSession
  split
  · next sid hsid => exact wp_pure ⟨h, sid, hsid⟩
  · next hnone =>
      refine wp_andThen (wp_mono (begin_wp h.toTracks) ?_)
      rintro s' g' ⟨rfl, rfl⟩
      refine wp_andThen (wp_emit (decide_eq_true ⟨h.session.trans hnone, rfl⟩) ?_)
      have hopened : Holds dropEmpty raw
          { s with
              inTxn := true, sessionId := some io.sid, sessionStart := io.openedAt, records := 0, bad := 0
              dropped := 0, idleRun := false }
          { g with
              txn := true, session := some io.sid, rows := 0, drops := 0, idle := false
              uncommitted := g.uncommitted + 1 } :=
        ⟨⟨rfl, rfl, fun _ => ⟨rfl, rfl⟩, fun _ => (Bool.and_false _).symm, (by intro hno; cases hno),
            (by intro hno; cases hno)⟩,
          h.awaiting, fun _ => Nat.succ_pos _⟩
      exact status_wp hopened.toTracks ⟨hopened, io.sid, rfl⟩

/-- What is dropped is idle and not the first of its run; what is not is a row. -/
theorem record_wp {sid : ℕ} (h : Holds dropEmpty raw s g) (hsid : s.sessionId = some sid)
    (hdoc : document raw = some doc) :
    (ledger long).wp g (s.record dropEmpty (derive long doc) raw) (Settled dropEmpty) := by
  have hpure : pureIdle long raw = derivedIsEmpty (derive long doc) := by
    unfold pureIdle
    rw [hdoc]
    rfl
  have hopen : s.sessionId ≠ none := Option.ne_none_iff_exists'.mpr ⟨sid, hsid⟩
  have hsession : g.session = some sid := h.session.trans hsid
  unfold Capture.record
  split
  · next hnone => exact absurd hnone hopen
  · next sid' hsid' =>
      obtain rfl : sid = sid' := Option.some.inj (hsid.symm.trans hsid')
      dsimp only
      split
      · next hskip =>
          obtain ⟨hempty, hrun⟩ := Bool.and_eq_true_iff.mp hskip
          have hidle : g.idle = true := (Bool.and_eq_true_iff.mp ((h.idle hopen).symm.trans hrun)).2
          have hpureIdle : pureIdle long raw = true := hpure.trans (Bool.and_eq_true_iff.mp hempty).2
          refine wp_emit (decide_eq_true ⟨hsession, h.awaiting, hpureIdle, h.onset hidle, hidle⟩) ?_
          refine ⟨⟨h.session, h.txn, fun ho => ?_, h.idle, h.onset, h.committed⟩, rfl, h.pending⟩
          exact ⟨(h.rows ho).1, congrArg (· + 1) (h.rows ho).2⟩
      · refine wp_andThen (wp_mono (begin_wp h.toTracks) ?_)
        rintro s' g' ⟨rfl, rfl⟩
        refine wp_emit (decide_eq_true ⟨hsession, h.awaiting, rfl, congrArg _ hdoc⟩) ?_
        refine ⟨⟨h.session, rfl, fun ho => ?_, fun _ => ?_, fun _ => Nat.succ_pos _, fun hno => ?_⟩,
          rfl, fun _ => Nat.succ_pos _⟩
        · exact ⟨congrArg (· + 1) (h.rows ho).1, (h.rows ho).2⟩
        · exact congrArg (dropEmpty && ·) hpure.symm
        · cases hno

theorem receive_wp (h : Settled dropEmpty s g) :
    (ledger long).wp g (s.receive long dropEmpty io) (Settled dropEmpty) := by
  unfold Capture.receive
  split
  · exact wp_pure h
  · next raw hraw =>
      refine wp_andThen (wp_emit (decide_eq_true ⟨h.awaiting, h.pending⟩) ?_)
      refine wp_andThen (wp_mono (Q := Settled dropEmpty) ?_ fun s' g' hs => status_wp hs.toTracks hs)
      split
      · next hdoc =>
          refine wp_pure ?_
          have hnone : ((document raw).map fun _ => raw) = none := by
            rw [hdoc]
            rfl
          exact ⟨⟨h.session, h.txn, h.rows, h.idle, h.onset, h.committed⟩, hnone, h.pending⟩
      · next doc hdoc =>
          have hsome : ((document raw).map fun _ => raw) = some raw := by
            rw [hdoc]
            rfl
          have hholds : Holds dropEmpty raw s { g with awaiting := (document raw).map fun _ => raw } :=
            ⟨⟨h.session, h.txn, h.rows, h.idle, h.onset, h.committed⟩, hsome, h.pending⟩
          refine wp_andThen (wp_mono (openSession_wp hholds) ?_)
          rintro s' g' ⟨hopened, sid, hsid⟩
          exact record_wp hopened hsid hdoc

theorem rollSession_wp (h : Settled dropEmpty s g) (wantRoll : Bool) (pendDur : Option ℤ) :
    (ledger long).wp g (s.rollSession wantRoll pendDur io) (Settled dropEmpty) := by
  unfold Capture.rollSession
  split
  · refine close_wp ?_ io.closedAt
    exact h.of_books rfl
  · exact wp_pure h

theorem deadline_wp (h : Settled dropEmpty s g) :
    (ledger long).wp g (s.deadline io) (Settled dropEmpty) := by
  unfold Capture.deadline
  split
  · exact close_wp h io.closedAt
  · exact wp_pure h

theorem batch_wp (h : Settled dropEmpty s g) : (ledger long).wp g (s.batch io) (Settled dropEmpty) := by
  unfold Capture.batch
  split
  · split
    · refine wp_andThen (wp_mono (commit_wp h io.committedAt) fun s' g' hcommitted => ?_)
      exact wp_pure (hcommitted.1.of_books rfl)
    · exact wp_pure (h.of_books rfl)
  · exact wp_pure h

theorem finish_wp (h : Settled dropEmpty s g) : (ledger long).wp g (s.finish io) (Settled dropEmpty) := by
  have hclose : ∀ s' g', Settled dropEmpty s' g' → (ledger long).wp g'
      (andThen (s'.closeSession io.closedAt) fun s => ({ s with looping := false }, [])) (Settled dropEmpty) := by
    intro s' g' hs
    exact wp_andThen (wp_mono (close_wp hs io.closedAt) fun s'' g'' hclosed => wp_pure (hclosed.of_books rfl))
  refine wp_andThen ?_
  split
  · exact wp_mono (commit_wp h io.committedAt) fun s' g' hcommitted => hclose s' g' hcommitted.1
  · exact wp_pure (hclose s g h)

theorem turn_wp (h : Settled dropEmpty s g) :
    (ledger long).wp g (s.turn long dropEmpty io) (Settled dropEmpty) := by
  unfold Capture.turn
  extract_lets wantRoll pendDur t
  have ht : Settled dropEmpty t g := by
    unfold t
    split
    · exact h.of_books rfl
    · exact h
  split
  · exact finish_wp ht
  · refine wp_andThen (wp_mono (receive_wp ht) fun s₁ g₁ h₁ => ?_)
    refine wp_andThen (wp_mono (rollSession_wp h₁ wantRoll pendDur) fun s₂ g₂ h₂ => ?_)
    exact wp_andThen (wp_mono (deadline_wp h₂) fun s₃ g₃ h₃ => batch_wp h₃)

theorem capture_step_wp (h : Settled dropEmpty s g) (e : Event) :
    (ledger long).wp g ((captureMachine long dropEmpty).step s e) (Settled dropEmpty) := by
  cases e with
  | roll duration => exact wp_pure (h.of_books rfl)
  | stop => exact wp_pure (h.of_books rfl)
  | turn io =>
      show (ledger long).wp g (if s.looping then s.turn long dropEmpty io else (s, [])) _
      split
      · exact turn_wp h
      · exact wp_pure h

theorem start_settled (dropEmpty : Bool) (maxDuration : ℤ) (now : ℚ) :
    Settled dropEmpty (Capture.start maxDuration now) {} where
  session := rfl
  txn := rfl
  rows := fun hno => absurd rfl hno
  idle := fun hno => absurd rfl hno
  onset := fun hno => by cases hno
  committed := fun _ => rfl
  awaiting := rfl
  pending := fun hno => by cases hno

/-! ## Runs -/

/-- However the datagrams, timeouts, rolls and the stop come in, the ledger accepts what the logger
does, every document has become a row or a drop in the order it came, and nothing is left undone. -/
theorem capture_conserves (long : ℕ) (dropEmpty : Bool) (maxDuration : ℤ) (now : ℚ) (es : List Event) :
    (ledger long).Accepts {} ((captureMachine long dropEmpty).trace (Capture.start maxDuration now) es) ∧
      ((captureMachine long dropEmpty).trace (Capture.start maxDuration now) es).filterMap Obs.document =
        ((captureMachine long dropEmpty).trace (Capture.start maxDuration now) es).filterMap Obs.fate ∧
      Settled dropEmpty ((captureMachine long dropEmpty).run (Capture.start maxDuration now) es)
        ((ledger long).after {} ((captureMachine long dropEmpty).trace (Capture.start maxDuration now) es)) := by
  obtain ⟨haccepts, hsettled⟩ := Machine.run_wp (m := ledger long)
    (fun s g e h _ => capture_step_wp h e) (start_settled dropEmpty maxDuration now)
    (Machine.Meets.of_forall (fun _ _ => trivial))
  have hfates := fates_eq haccepts
  rw [hsettled.awaiting] at hfates
  exact ⟨haccepts, hfates.trans (List.append_nil _), hsettled⟩

end Waybeam.Telemetry
