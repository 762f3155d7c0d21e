/-
# `Waybeam.Telemetry.Store` — the store, and who writes to it

The logger and the request handlers have a connection each; what the logger has not committed only
its own connection sees, and is lost when the process dies.

    logger     `storeWrites`: what each thing that the logger does is to the tables
    delete     `teleSessionDelete`: refuses the session that seems to be written to, and deletes all
               there is of any other

A row gets the id after the greatest one.  While the logger's transaction is open nobody else can
write.
-/
import Waybeam.Telemetry.Capture

namespace Waybeam.Telemetry

open Text

/-! ## Tables -/

structure SessionRow where
  id : ℕ
  source : Option Bytes
  /-- `ended_at` is not null -/
  ended : Bool
  deriving DecidableEq

structure RecordRow where
  id : ℕ
  sessionId : ℕ
  columns : Derived
  rawJson : Bytes
  deriving DecidableEq

structure LabelRow where
  id : ℕ
  sessionId : ℕ
  deriving DecidableEq

structure PredictionRow where
  id : ℕ
  recordId : ℕ
  deriving DecidableEq

structure Store where
  sessions : List SessionRow := []
  records : List RecordRow := []
  labels : List LabelRow := []
  predictions : List PredictionRow := []
  deriving DecidableEq

/-- The id of the next row. -/
def nextId (ids : List ℕ) : ℕ := ids.foldr max 0 + 1

namespace Store

variable (db : Store)

def sessionIds : List ℕ := db.sessions.map (·.id)

/-- The session with this id. -/
def session (sid : ℕ) : Option SessionRow := db.sessions.find? fun row => row.id = sid

/-- `store_create_session` -/
def createSession (sid : ℕ) (source : Bytes) : Store :=
  { db with
    sessions := db.sessions ++
      [{ id := sid, source := some (if source = [] then "live-gs".toList else source), ended := false }] }

/-- `store_insert` -/
def insert (sid : ℕ) (d : Derived) (raw : Bytes) : Store :=
  { db with
    records := db.records ++
      [{ id := nextId (db.records.map (·.id)), sessionId := sid, columns := d, rawJson := raw }] }

/-- `store_close_session` -/
def closeSession (sid : ℕ) : Store :=
  { db with sessions := db.sessions.map fun row => if row.id = sid then { row with ended := true } else row }

end Store

/-! ## The logger's connection -/

/-- What is committed, and what the logger's open transaction has made of it. -/
structure Disk where
  db : Store := {}
  txn : Option Store := none
  deriving DecidableEq

namespace Disk

variable (d : Disk)

/-- What the logger's connection sees. -/
def view : Store := d.txn.getD d.db

/-- A write of the logger. -/
def write (f : Store → Store) : Disk :=
  match d.txn with
  | some w => { d with txn := some (f w) }
  | none => { d with db := f d.db }

end Disk

/-- What the logger does to the tables. -/
def storeWrites (source : Bytes) : Monitor Obs Disk where
  upd d
    | .begin => { d with txn := some d.view }
    | .commit => { db := d.view }
    | .created sid => d.write (·.createSession sid source)
    | .inserted sid columns raw => d.write (·.insert sid columns raw)
    | .closed sid => d.write (·.closeSession sid)
    | .received _ => d
    | .dropped _ _ => d
    | .status .. => d
  ok _ _ := true

/-! ## `tele_session_delete` -/

/-- A request, and how SQLite takes it. -/
structure Request where
  sid : ℕ
  /-- `wfb_logger_open` -/
  opened : Bool := true
  /-- the `SELECT` -/
  selected : Bool := true
  /-- the `DELETE`s, each by its place -/
  deleted : ℕ → Bool := fun _ => true
  committed : Bool := true

structure Answer where
  code : ℕ
  body : Bytes
  deriving DecidableEq

namespace Answer

def notOpened : Answer := ⟨500, "\x7b\"ok\":false\x7d".toList⟩
def noSession : Answer := ⟨404, "\x7b\"ok\":false,\"error\":\"no session\"\x7d".toList⟩
def refused : Answer :=
  ⟨409, "\x7b\"ok\":false,\"error\":\"refusing to delete the active capture — roll a new session first\"\x7d".toList⟩
def deleted (sid : ℕ) : Answer := ⟨200, "\x7b\"ok\":true,\"deleted\":".toList ++ decimal sid ++ "\x7d".toList⟩
def failed : Answer := ⟨500, "\x7b\"ok\":false,\"error\":\"delete failed\"\x7d".toList⟩

end Answer

/-- The name of a source begins with `live`. -/
def isLive (source : Bytes) : Bool := "live".toList.isPrefixOf source

/-- What passes for the session that is being written to. -/
def SessionRow.active (row : SessionRow) : Bool := row.source.any isLive && !row.ended

/-- `DELS`, in order. -/
def DELS : List (ℕ → Store → Store) :=
  [fun sid db =>
    { db with
      predictions := db.predictions.filter fun p =>
        p.recordId ∉ (db.records.filter fun r => r.sessionId = sid).map (·.id) },
   fun sid db => { db with records := db.records.filter fun r => r.sessionId ≠ sid },
   fun sid db => { db with labels := db.labels.filter fun l => l.sessionId ≠ sid },
   fun sid db => { db with sessions := db.sessions.filter fun row => row.id ≠ sid }]

/-- The statements in order, as long as they succeed. -/
def execAll (ok : ℕ → Bool) (sid : ℕ) : ℕ → List (ℕ → Store → Store) → Store → Option Store
  | _, [], db => some db
  | i, del :: dels, db => if ok i then execAll ok sid (i + 1) dels (del sid db) else none

/-- `tele_session_delete` -/
def teleSessionDelete (d : Disk) (io : Request) : Disk × Answer :=
  if io.opened = false then (d, .notOpened)
  else
    match if io.selected then d.db.session io.sid else none with
    | none => (d, .noSession)
    | some row =>
        if row.active then (d, .refused)
        else
          -- the logger's transaction holds the lock
          match execAll (fun i => io.deleted i && d.txn.isNone) io.sid 0 DELS d.db with
          | none => (d, .failed)
          | some db => (if io.committed then { d with db } else d, .deleted io.sid)

/-! ## The supervisor -/

/-- What of `WfbLogConfig` the logger reads. -/
structure LogConfig where
  source : Bytes
  maxDuration : ℤ
  dropEmpty : Bool

/-- The store, and the logger when it runs. -/
structure Supervisor where
  disk : Disk := {}
  logger : Option (LogConfig × Capture) := none

/-- What can happen to it. -/
inductive Action where
  /-- `logger_spawn` -/
  | spawn (cfg : LogConfig) (now : ℚ)
  | logger (e : Event)
  /-- the process dies, and comes up again without a logger -/
  | crash
  /-- other handlers and tools write labels and predictions -/
  | annotate (labels : List LabelRow) (predictions : List PredictionRow)
  | delete (io : Request)

/-- The row id that the turn's session would get. -/
def Event.withSid (sid : ℕ) : Event → Event
  | .turn io => .turn { io with sid }
  | e => e

/-- The session that the running logger is writing to. -/
def Supervisor.current (sup : Supervisor) : Option ℕ := sup.logger.bind (·.2.sessionId)

/-- A logger that is gone has no connection. -/
def Supervisor.exit (d : Disk) : Supervisor := { disk := { db := d.db } }

/-- What happens, one thing after the other. -/
def supervisorMachine (long : ℕ) : Machine Supervisor Action Answer where
  step sup
    | .spawn cfg now =>
        match sup.logger with
        | some _ => (sup, [])
        | none => ({ sup with logger := some (cfg, Capture.start cfg.maxDuration now) }, [])
    | .logger e =>
        match sup.logger with
        | none => (sup, [])
        | some (cfg, s) =>
            let r := (captureMachine long cfg.dropEmpty).step s (e.withSid (nextId sup.disk.view.sessionIds))
            let disk := (storeWrites cfg.source).after sup.disk r.2
            (if r.1.looping then { disk, logger := some (cfg, r.1) } else .exit disk, [])
    | .crash => (.exit sup.disk, [])
    | .annotate labels predictions =>
        match sup.disk.txn with
        | some _ => (sup, [])
        | none => ({ sup with disk := { db := { sup.disk.db with labels, predictions } } }, [])
    | .delete io =>
        let (disk, answer) := teleSessionDelete sup.disk io
        ({ sup with disk }, [answer])

end Waybeam.Telemetry
