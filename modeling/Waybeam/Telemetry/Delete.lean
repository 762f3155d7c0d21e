/-
# `Waybeam.Telemetry.Delete` — which sessions can be deleted

A request must be refused for the session that the running logger is writing to, and for no other
(`Guarded`).  The handler does not ask the logger.  It takes a session for the one that is written to
when its source begins with `live` and it has not ended:

    written to           its row is open and has the configured source (`Owns`): refused if that
                         begins with `live`
    left by a crash      open for good: refused if its source begins with `live`
    ended                not refused

So the guard holds for a request exactly if it can be told by that (`Tellable`), over every run.
-/
import Mathlib.Data.List.MinMax
import Waybeam.Telemetry.Store

namespace Waybeam.Telemetry

open Text

/-! ## What is asked of the handler -/

/-- All that belongs to a session is gone, and nothing else. -/
structure Removed (sid : ℕ) (before after : Store) : Prop where
  sessions : after.sessions = before.sessions.filter fun row => row.id ≠ sid
  records : after.records = before.records.filter fun r => r.sessionId ≠ sid
  labels : after.labels = before.labels.filter fun l => l.sessionId ≠ sid
  predictions : after.predictions =
    before.predictions.filter fun p => ∀ r ∈ before.records, r.sessionId = sid → r.id ≠ p.recordId

/-- The store is open, and the session is looked up. -/
def Request.Looked (io : Request) : Prop := io.opened = true ∧ io.selected = true

/-- Every call of the request succeeds, and nobody else is writing. -/
def Request.Served (io : Request) (d : Disk) : Prop :=
  io.Looked ∧ (∀ i, io.deleted i = true) ∧ io.committed = true ∧ d.txn = none

/-- The guard, for one request. -/
structure Guarded (sup : Supervisor) (io : Request) : Prop where
  /-- refused if and only if the logger is writing to it -/
  refused : io.Looked → io.sid ∈ sup.disk.db.sessionIds →
    ((teleSessionDelete sup.disk io).2 = .refused ↔ sup.current = some io.sid)
  /-- there is nothing of it yet -/
  unseen : io.Looked → sup.current = some io.sid → io.sid ∉ sup.disk.db.sessionIds →
    (teleSessionDelete sup.disk io).2 = .noSession
  /-- any other can be deleted -/
  deleted : io.Served sup.disk → io.sid ∈ sup.disk.db.sessionIds → sup.current ≠ some io.sid →
    (teleSessionDelete sup.disk io).2 = .deleted io.sid ∧
      Removed io.sid sup.disk.db (teleSessionDelete sup.disk io).1.db
  /-- what is refused or fails changes nothing -/
  kept : (teleSessionDelete sup.disk io).2.code ≠ 200 ∨ io.committed = false →
    (teleSessionDelete sup.disk io).1.db = sup.disk.db

/-- The source that is written down. -/
def LogConfig.sourceName (cfg : LogConfig) : Bytes := if cfg.source = [] then "live-gs".toList else cfg.source

/-- The running logger's source begins with `live`. -/
def Supervisor.live (sup : Supervisor) : Prop :=
  ∃ cfg s, sup.logger = some (cfg, s) ∧ isLive cfg.sourceName = true

/-- What the session is can be told from its row. -/
structure Tellable (sup : Supervisor) (io : Request) : Prop where
  written : io.Looked → io.sid ∈ sup.disk.db.sessionIds → sup.current = some io.sid → sup.live
  other : io.Looked → sup.current ≠ some io.sid → ∀ row, sup.disk.db.session io.sid = some row →
    row.ended = true ∨ row.source.any isLive = false

/-! ## Rows of the current session -/

/-- The row of session `cur` is open, and has this source. -/
def Owned (name : Bytes) (cur : Option ℕ) (db : Store) : Prop :=
  ∀ row ∈ db.sessions, cur = some row.id → row.source = some name ∧ row.ended = false

/-- It is so on both sides of the logger's transaction, which takes no session away. -/
structure Owns (name : Bytes) (cur : Option ℕ) (d : Disk) : Prop where
  db : Owned name cur d.db
  view : Owned name cur d.view
  grows : d.db.sessionIds ⊆ d.view.sessionIds

variable {name source : Bytes} {cur : Option ℕ} {d : Disk} {db : Store} {sid : ℕ}

theorem owned_none : Owned name none db := by
  intro row _ h
  cases h

@[simp] theorem view_write (f : Store → Store) : (d.write f).view = f d.view := by
  unfold Disk.write Disk.view
  split
  · next w hw => rw [hw]; rfl
  · next hnone => rw [hnone]; rfl

theorem db_write (f : Store → Store) :
    (d.write f).db = d.db ∨ d.view = d.db ∧ (d.write f).db = f d.db := by
  unfold Disk.write Disk.view
  split
  · exact .inl rfl
  · next hnone => exact .inr ⟨by rw [hnone]; rfl, rfl⟩

/-- A write that does to the tables on either side what it does to the ids. -/
theorem Owns.write {cur' : Option ℕ} {f : Store → Store} (h : Owns name cur d)
    (hdb : Owned name cur' d.db) (hview : Owned name cur' (f d.view))
    (hids : d.view.sessionIds ⊆ (f d.view).sessionIds) : Owns name cur' (d.write f) where
  db := by
    rcases db_write (d := d) f with heq | ⟨hsame, heq⟩
    · rw [heq]; exact hdb
    · rw [heq, ← hsame]; exact hview
  view := by rw [view_write]; exact hview
  grows := by
    rw [view_write]
    rcases db_write (d := d) f with heq | ⟨hsame, heq⟩
    · rw [heq]; exact List.Subset.trans h.grows hids
    · rw [heq, hsame]; exact List.Subset.refl _

theorem closeSession_ids : (db.closeSession sid).sessionIds = db.sessionIds := by
  unfold Store.sessionIds Store.closeSession
  rw [List.map_map]
  refine List.map_congr_left fun row _ => ?_
  show (if row.id = sid then ({ row with ended := true } : SessionRow) else row).id = row.id
  split <;> rfl

theorem createSession_ids : (db.createSession sid source).sessionIds = db.sessionIds ++ [sid] :=
  List.map_append

/-- The new row, where no other had its id. -/
theorem createSession_owned (cfg : LogConfig) (hfresh : sid ∉ db.sessionIds) :
    Owned cfg.sourceName (some sid) (db.createSession sid cfg.source) := by
  intro row hrow hid
  rcases List.mem_append.mp hrow with hrow | hrow
  · exact absurd (Option.some.inj hid ▸ List.mem_map_of_mem hrow) hfresh
  · rw [List.mem_singleton.mp hrow]
    exact ⟨rfl, rfl⟩

theorem not_owned_of_fresh (hfresh : sid ∉ db.sessionIds) : Owned name (some sid) db := by
  intro row hrow hid
  exact absurd (Option.some.inj hid ▸ List.mem_map_of_mem hrow) hfresh

theorem nextId_fresh (ids : List ℕ) : nextId ids ∉ ids := by
  intro hmem
  have hle : nextId ids ≤ ids.foldr max 0 := List.le_max_of_le' 0 hmem (Nat.le_refl _)
  exact absurd hle (Nat.not_succ_le_self _)

/-! ## The logger -/

variable {cfg : LogConfig} {long : ℕ} {dropEmpty : Bool} {s : Capture} {io : Turn}

theorem begin_owns (h : Owns name s.sessionId d) :
    (storeWrites source).wp d s.beginTxn fun s' d' =>
      Owns name s'.sessionId d' ∧ s'.sessionId = s.sessionId ∧ d'.view = d.view := by
  unfold Capture.beginTxn
  split
  · exact wp_pure ⟨h, rfl, rfl⟩
  · exact wp_emit rfl ⟨⟨h.db, h.view, h.grows⟩, rfl, rfl⟩

theorem commit_owns (h : Owns name s.sessionId d) (now : ℚ) :
    (storeWrites source).wp d (s.commitTxn now) fun s' d' =>
      Owns name s'.sessionId d' ∧ s'.sessionId = s.sessionId := by
  unfold Capture.commitTxn
  split
  · exact wp_emit rfl ⟨⟨h.view, h.view, List.Subset.refl _⟩, rfl⟩
  · exact wp_pure ⟨h, rfl⟩

theorem close_owns (h : Owns name s.sessionId d) (now : ℚ) :
    (storeWrites source).wp d (s.closeSession now) fun s' d' => Owns name s'.sessionId d' := by
  unfold Capture.closeSession
  split
  · exact wp_pure h
  · next sid hsid =>
      refine wp_andThen (wp_mono (commit_owns h now) fun s' d' hcommitted => ?_)
      refine wp_andThen (wp_emit rfl ?_)
      refine wp_emit rfl (hcommitted.1.write owned_none owned_none ?_)
      rw [closeSession_ids]
      exact List.Subset.refl _

theorem openSession_owns (h : Owns cfg.sourceName s.sessionId d) (hfresh : io.sid ∉ d.view.sessionIds) :
    (storeWrites cfg.source).wp d (s.openSession io) fun s' d' => Owns cfg.sourceName s'.sessionId d' := by
  unfold Capture.openSession
  split
  · exact wp_pure h
  · refine wp_andThen (wp_mono (begin_owns h) ?_)
    rintro s' d' ⟨hbegun, -, hview⟩
    rw [← hview] at hfresh
    refine wp_andThen (wp_emit rfl (wp_emit rfl ?_))
    refine hbegun.write ?_ (createSession_owned cfg hfresh) ?_
    · exact not_owned_of_fresh fun hmem => hfresh (hbegun.grows hmem)
    · rw [createSession_ids]
      exact List.subset_append_left _ _

theorem record_owns (h : Owns name s.sessionId d) (columns : Derived) (raw : Bytes) :
    (storeWrites source).wp d (s.record dropEmpty columns raw) fun s' d' => Owns name s'.sessionId d' := by
  unfold Capture.record
  split
  · exact wp_pure h
  · dsimp only
    split
    · exact wp_emit rfl h
    · refine wp_andThen (wp_mono (begin_owns h) ?_)
      rintro s' d' ⟨hbegun, -, -⟩
      exact wp_emit rfl (hbegun.write hbegun.db hbegun.view (List.Subset.refl _))

theorem receive_owns (h : Owns cfg.sourceName s.sessionId d) (hfresh : io.sid ∉ d.view.sessionIds) :
    (storeWrites cfg.source).wp d (s.receive long dropEmpty io) fun s' d' =>
      Owns cfg.sourceName s'.sessionId d' := by
  unfold Capture.receive
  split
  · exact wp_pure h
  · next raw _ =>
      refine wp_andThen (wp_emit rfl (wp_andThen ?_))
      refine wp_mono (Q := fun s' d' => Owns cfg.sourceName s'.sessionId d') ?_ fun s' d' h' => wp_emit rfl h'
      split
      · exact wp_pure h
      · refine wp_andThen (wp_mono (openSession_owns h hfresh) fun s' d' hopened => ?_)
        exact record_owns hopened _ raw

theorem rollSession_owns (h : Owns name s.sessionId d) (wantRoll : Bool) (pendDur : Option ℤ) :
    (storeWrites source).wp d (s.rollSession wantRoll pendDur io) fun s' d' => Owns name s'.sessionId d' := by
  unfold Capture.rollSession
  split
  · refine close_owns ?_ io.closedAt
    exact h
  · exact wp_pure h

theorem deadline_owns (h : Owns name s.sessionId d) :
    (storeWrites source).wp d (s.deadline io) fun s' d' => Owns name s'.sessionId d' := by
  unfold Capture.deadline
  split
  · exact close_owns h io.closedAt
  · exact wp_pure h

theorem batch_owns (h : Owns name s.sessionId d) :
    (storeWrites source).wp d (s.batch io) fun s' d' => Owns name s'.sessionId d' := by
  unfold Capture.batch
  split
  · split
    · refine wp_andThen (wp_mono (commit_owns h io.committedAt) fun s' d' hcommitted => ?_)
      exact wp_pure hcommitted.1
    · exact wp_pure h
  · exact wp_pure h

theorem finish_owns (h : Owns name s.sessionId d) :
    (storeWrites source).wp d (s.finish io) fun s' d' => Owns name s'.sessionId d' := by
  have hclose : ∀ (s' : Capture) d', Owns name s'.sessionId d' → (storeWrites source).wp d'
      (andThen (s'.closeSession io.closedAt) fun s => ({ s with looping := false }, []))
      fun s' d' => Owns name s'.sessionId d' := by
    intro s' d' h'
    exact wp_andThen (wp_mono (close_owns h' io.closedAt) fun s'' d'' hclosed => wp_pure hclosed)
  refine wp_andThen ?_
  split
  · exact wp_mono (commit_owns h io.committedAt) fun s' d' hcommitted => hclose s' d' hcommitted.1
  · exact wp_pure (hclose s d h)

theorem turn_owns (h : Owns cfg.sourceName s.sessionId d) (hfresh : io.sid ∉ d.view.sessionIds) :
    (storeWrites cfg.source).wp d (s.turn long dropEmpty io) fun s' d' =>
      Owns cfg.sourceName s'.sessionId d' := by
  unfold Capture.turn
  extract_lets wantRoll pendDur t
  have ht : Owns cfg.sourceName t.sessionId d := by
    have hsame : t.sessionId = s.sessionId := by
      unfold t
      split <;> rfl
    rw [hsame]
    exact h
  split
  · exact finish_owns ht
  · refine wp_andThen (wp_mono (receive_owns ht hfresh) fun s₁ d₁ h₁ => ?_)
    refine wp_andThen (wp_mono (rollSession_owns h₁ wantRoll pendDur) fun s₂ d₂ h₂ => ?_)
    exact wp_andThen (wp_mono (deadline_owns h₂) fun s₃ d₃ h₃ => batch_owns h₃)

/-- Whatever the logger does, with the id that SQLite would give a new session. -/
theorem logger_owns (long : ℕ) (dropEmpty : Bool) (h : Owns cfg.sourceName s.sessionId d) (e : Event) :
    (storeWrites cfg.source).wp d
      ((captureMachine long dropEmpty).step s (e.withSid (nextId d.view.sessionIds)))
      fun s' d' => Owns cfg.sourceName s'.sessionId d' := by
  cases e with
  | roll duration => exact wp_pure h
  | stop => exact wp_pure h
  | turn io =>
      show (storeWrites cfg.source).wp d
        (if s.looping then s.turn long dropEmpty { io with sid := nextId d.view.sessionIds } else (s, [])) _
      split
      · exact turn_owns h (nextId_fresh _)
      · exact wp_pure h

/-! ## The request -/

variable {io : Request} {row : SessionRow} {after : Store}

theorem execAll_removed {ok : ℕ → Bool} (h : execAll ok sid 0 DELS db = some after) :
    ok 0 = true ∧ Removed sid db after := by
  simp only [DELS, execAll, Option.ite_none_right_eq_some, Option.some.injEq] at h
  obtain ⟨hok, -, -, -, rfl⟩ := h
  refine ⟨hok, rfl, rfl, rfl, List.filter_congr fun p _ => decide_eq_decide.mpr ?_⟩
  constructor
  · intro hnot r hr hsid hid
    have hmem : r ∈ db.records.filter fun r => r.sessionId = sid :=
      List.mem_filter.mpr ⟨hr, decide_eq_true hsid⟩
    exact hnot (hid ▸ List.mem_map_of_mem hmem)
  · intro hnone hmem
    obtain ⟨r, hr, hid⟩ := List.mem_map.mp hmem
    obtain ⟨hr, hsid⟩ := List.mem_filter.mp hr
    exact hnone r hr (of_decide_eq_true hsid) hid

theorem execAll_isSome {ok : ℕ → Bool} (h : ∀ i, ok i = true) (sid i : ℕ)
    (dels : List (ℕ → Store → Store)) (db : Store) : ∃ after, execAll ok sid i dels db = some after := by
  induction dels generalizing i db with
  | nil => exact ⟨db, rfl⟩
  | cons del dels ih =>
      obtain ⟨after, hafter⟩ := ih (i + 1) (del sid db)
      refine ⟨after, ?_⟩
      rw [execAll, if_pos (h i)]
      exact hafter

/-- Either the tables are as they were, or all of the session is gone. -/
theorem delete_disk (d : Disk) (io : Request) :
    (teleSessionDelete d io).1 = d ∨
      (teleSessionDelete d io).2 = .deleted io.sid ∧ io.committed = true ∧ d.txn = none ∧
        ∃ after, Removed io.sid d.db after ∧ (teleSessionDelete d io).1 = { d with db := after } := by
  unfold teleSessionDelete
  split
  · exact .inl rfl
  · split
    · exact .inl rfl
    · split
      · exact .inl rfl
      · split
        · exact .inl rfl
        · next after hafter =>
            obtain ⟨hok, hremoved⟩ := execAll_removed hafter
            split
            · next hcommitted =>
                have htxn : d.txn = none := Option.isNone_iff_eq_none.mp (Bool.and_eq_true_iff.mp hok).2
                exact .inr ⟨rfl, hcommitted, htxn, after, hremoved, rfl⟩
            · exact .inl rfl

theorem session_mem {row : SessionRow} (h : db.session sid = some row) : row ∈ db.sessions ∧ row.id = sid :=
  ⟨List.mem_of_find?_eq_some h,
    of_decide_eq_true (List.find?_some (p := fun row : SessionRow => decide (row.id = sid)) h)⟩

theorem mem_sessionIds : sid ∈ db.sessionIds ↔ ∃ row, db.session sid = some row := by
  constructor
  · intro h
    obtain ⟨row, hrow, rfl⟩ := List.mem_map.mp h
    exact Option.isSome_iff_exists.mp (List.find?_isSome.mpr ⟨row, hrow, decide_eq_true rfl⟩)
  · rintro ⟨row, hrow⟩
    obtain ⟨hmem, rfl⟩ := session_mem hrow
    exact List.mem_map_of_mem hmem

theorem delete_missing (hlooked : io.Looked) (hnone : d.db.session io.sid = none) :
    (teleSessionDelete d io).2 = .noSession := by
  unfold teleSessionDelete
  rw [if_neg (by rw [hlooked.1]; decide), if_pos hlooked.2, hnone]

theorem delete_active (hlooked : io.Looked) (hrow : d.db.session io.sid = some row)
    (hactive : row.active = true) : (teleSessionDelete d io).2 = .refused := by
  unfold teleSessionDelete
  rw [if_neg (by rw [hlooked.1]; decide), if_pos hlooked.2, hrow]
  show (if row.active then (d, Answer.refused) else _).2 = _
  rw [if_pos hactive]

theorem delete_inactive (hlooked : io.Looked) (hrow : d.db.session io.sid = some row)
    (hactive : row.active = false) : (teleSessionDelete d io).2 ≠ .refused := by
  have hother : ∀ answer : Answer, answer.code ≠ 409 → answer ≠ .refused := by
    rintro answer hcode rfl
    exact hcode rfl
  unfold teleSessionDelete
  rw [if_neg (by rw [hlooked.1]; decide), if_pos hlooked.2, hrow]
  show (if row.active then (d, Answer.refused) else _).2 ≠ _
  rw [if_neg (Bool.eq_false_iff.mp hactive)]
  split
  · exact hother _ (by show (500 : ℕ) ≠ 409; decide)
  · exact hother _ (by show (200 : ℕ) ≠ 409; decide)

theorem delete_served (hserved : io.Served d) (hrow : d.db.session io.sid = some row)
    (hactive : row.active = false) :
    (teleSessionDelete d io).2 = .deleted io.sid ∧ Removed io.sid d.db (teleSessionDelete d io).1.db := by
  obtain ⟨hlooked, hdeleted, hcommitted, htxn⟩ := hserved
  have hok : ∀ i, (io.deleted i && d.txn.isNone) = true := by
    intro i
    rw [hdeleted i, htxn]
    rfl
  obtain ⟨after, hafter⟩ := execAll_isSome hok io.sid 0 DELS d.db
  have hdelete : teleSessionDelete d io = ({ d with db := after }, .deleted io.sid) := by
    unfold teleSessionDelete
    rw [if_neg (by rw [hlooked.1]; decide), if_pos hlooked.2, hrow]
    show (if row.active then (d, Answer.refused) else _) = _
    rw [if_neg (Bool.eq_false_iff.mp hactive), hafter]
    show ((if io.committed then { d with db := after } else d), _) = _
    rw [if_pos hcommitted]
  rw [hdelete]
  exact ⟨rfl, (execAll_removed hafter).2⟩

/-! ## Runs -/

/-- The running logger's session is as it wrote it, and without one there is no transaction. -/
structure Kept (sup : Supervisor) : Prop where
  owns : ∀ cfg s, sup.logger = some (cfg, s) → Owns cfg.sourceName s.sessionId sup.disk
  idle : sup.logger = none → sup.disk.txn = none

variable {sup : Supervisor}

theorem exit_kept (d : Disk) : Kept (.exit d) where
  owns := fun _ _ h => by cases h
  idle := fun _ => rfl

theorem owns_idle (htxn : d.txn = none) : Owns name none d := by
  refine ⟨owned_none, owned_none, ?_⟩
  unfold Disk.view
  rw [htxn]
  exact List.Subset.refl _

/-- Without a transaction the sessions may get fewer. -/
theorem Owns.of_sessions (h : Owns name cur d) {after : Store}
    (hsub : ∀ row ∈ after.sessions, row ∈ d.db.sessions) : Owns name cur { db := after } where
  db := fun row hrow => h.db row (hsub row hrow)
  view := fun row hrow => h.db row (hsub row hrow)
  grows := List.Subset.refl _

theorem supervisor_step (h : Kept sup) (e : Action) : Kept ((supervisorMachine long).step sup e).1 := by
  cases e with
  | spawn cfg now =>
      dsimp only [supervisorMachine]
      split
      · exact h
      · next hnone =>
          refine ⟨?_, fun hno => by cases hno⟩
          rintro _ _ ⟨⟩
          exact owns_idle (h.idle hnone)
  | logger e =>
      dsimp only [supervisorMachine]
      split
      · exact h
      · next cfg s hsome =>
          have hstep := (logger_owns long cfg.dropEmpty (h.owns cfg s hsome) e).2
          dsimp only
          split
          · refine ⟨?_, fun hno => by cases hno⟩
            rintro _ _ ⟨⟩
            exact hstep
          · exact exit_kept _
  | crash => exact exit_kept _
  | annotate labels predictions =>
      dsimp only [supervisorMachine]
      split
      · exact h
      · exact ⟨fun cfg s hsome => (h.owns cfg s hsome).of_sessions fun _ hrow => hrow, fun _ => rfl⟩
  | delete io =>
      dsimp only [supervisorMachine]
      rcases delete_disk sup.disk io with heq | ⟨-, -, htxn, after, hremoved, heq⟩
      · rw [heq]
        exact h
      · rw [heq, htxn]
        refine ⟨fun cfg s hsome => (h.owns cfg s hsome).of_sessions ?_, fun _ => rfl⟩
        intro row hrow
        rw [hremoved.sessions] at hrow
        exact (List.mem_filter.mp hrow).1

theorem current_eq_some : sup.current = some sid ↔
    ∃ cfg s, sup.logger = some (cfg, s) ∧ s.sessionId = some sid := by
  unfold Supervisor.current
  rw [Option.bind_eq_some_iff]
  exact Prod.exists

/-- The row of the session that is written to is active exactly if the source begins with `live`. -/
theorem current_active (h : Kept sup) (hcur : sup.current = some sid)
    (hrow : sup.disk.db.session sid = some row) : row.active = true ↔ sup.live := by
  obtain ⟨cfg, s, hlogger, hsid⟩ := current_eq_some.mp hcur
  obtain ⟨hmem, hid⟩ := session_mem hrow
  have howned := (h.owns cfg s hlogger).db row hmem (by rw [hsid, hid])
  have hactive : row.active = isLive cfg.sourceName := by
    unfold SessionRow.active
    rw [howned.1, howned.2]
    exact Bool.and_true _
  rw [hactive]
  constructor
  · exact fun hlive => ⟨cfg, s, hlogger, hlive⟩
  · rintro ⟨cfg', s', hlogger', hlive⟩
    obtain ⟨rfl, rfl⟩ := Prod.mk.inj (Option.some.inj (hlogger.symm.trans hlogger'))
    exact hlive

theorem not_active_iff : row.active = false ↔ row.ended = true ∨ row.source.any isLive = false := by
  unfold SessionRow.active
  rw [Bool.and_eq_false_iff, Bool.not_eq_false', or_comm]

theorem guarded_of_kept (h : Kept sup) (io : Request) : Guarded sup io ↔ Tellable sup io := by
  constructor
  · intro hguard
    refine ⟨fun hlooked hmem hcur => ?_, fun hlooked hcur row hrow => not_active_iff.mp ?_⟩
    · obtain ⟨row, hrow⟩ := mem_sessionIds.mp hmem
      refine (current_active h hcur hrow).mp ?_
      by_contra hactive
      refine delete_inactive hlooked hrow (Bool.eq_false_iff.mpr hactive) ?_
      exact (hguard.refused hlooked hmem).mpr hcur
    · by_contra hactive
      refine hcur ((hguard.refused hlooked (mem_sessionIds.mpr ⟨row, hrow⟩)).mp ?_)
      exact delete_active hlooked hrow (Bool.not_eq_false _ ▸ hactive)
  · intro htell
    refine ⟨fun hlooked hmem => ⟨fun hrefused => ?_, fun hcur => ?_⟩, fun hlooked _ hmem => ?_,
      fun hserved hmem hcur => ?_, fun hfails => ?_⟩
    · by_contra hcur
      obtain ⟨row, hrow⟩ := mem_sessionIds.mp hmem
      exact delete_inactive hlooked hrow (not_active_iff.mpr (htell.other hlooked hcur row hrow)) hrefused
    · obtain ⟨row, hrow⟩ := mem_sessionIds.mp hmem
      exact delete_active hlooked hrow ((current_active h hcur hrow).mpr (htell.written hlooked hmem hcur))
    · refine delete_missing hlooked (Option.eq_none_iff_forall_not_mem.mpr fun row hrow => ?_)
      exact hmem (mem_sessionIds.mpr ⟨row, hrow⟩)
    · obtain ⟨row, hrow⟩ := mem_sessionIds.mp hmem
      exact delete_served hserved hrow (not_active_iff.mpr (htell.other hserved.1 hcur row hrow))
    · rcases delete_disk sup.disk io with heq | ⟨hanswer, hcommitted, -⟩
      · rw [heq]
      · rw [hanswer, hcommitted] at hfails
        rcases hfails with hcode | hno
        · exact absurd rfl hcode
        · cases hno

/-- Whatever is in the store, whoever has run, rolled, stopped or died before: a request is treated
as it must be if and only if the row of the session tells whether it is being written to. -/
theorem delete_guard_iff (long : ℕ) (db : Store) (es : List Action) (io : Request) :
    Guarded ((supervisorMachine long).run { disk := { db } } es) io ↔
      Tellable ((supervisorMachine long).run { disk := { db } } es) io := by
  have hstep : ∀ sup e, Kept sup → True → Kept ((supervisorMachine long).step sup e).1 :=
    fun _ e h _ => supervisor_step h e
  have hkept : Kept ((supervisorMachine long).run { disk := { db } } es) :=
    Machine.run_inv hstep (exit_kept { db }) (Machine.Meets.of_forall fun _ _ => trivial)
  exact guarded_of_kept hkept io

/-! ## Two sessions that cannot be told -/

/-- A turn of the loop at `now`. -/
def turnAt (now : ℚ) (dgram : Option Bytes) : Action :=
  .logger (.turn { dgram, sid := 0, openedAt := now, now, closedAt := now, committedAt := now })

/-- A logger with this source takes a document, and commits it. -/
def captures (source : String) : List Action :=
  [.spawn { source := source.toList, maxDuration := 1200, dropEmpty := true } 0,
    turnAt 1 (some "\x7b\"seq\":1\x7d".toList), turnAt 3 none]

/-- What a crash has left open cannot be deleted, and what a logger with the source `bench` is
writing to can. -/
theorem not_delete_guard :
    ¬Guarded ((supervisorMachine 64).run {} (captures "live-gs" ++ [.crash])) { sid := 1 } ∧
      ¬Guarded ((supervisorMachine 64).run {} (captures "bench")) { sid := 1 } := by
  constructor
  · intro hguard
    have hmem : 1 ∈ ((supervisorMachine 64).run {} (captures "live-gs" ++ [.crash])).disk.db.sessionIds := by
      decide +kernel
    have hcur := (hguard.refused ⟨rfl, rfl⟩ hmem).mp (by decide +kernel)
    exact absurd hcur (by decide +kernel)
  · intro hguard
    have hmem : 1 ∈ ((supervisorMachine 64).run {} (captures "bench")).disk.db.sessionIds := by
      decide +kernel
    have hrefused := (hguard.refused ⟨rfl, rfl⟩ hmem).mpr (by decide +kernel)
    exact absurd hrefused (by decide +kernel)

end Waybeam.Telemetry
