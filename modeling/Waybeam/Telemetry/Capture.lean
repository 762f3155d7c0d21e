/-
# `Waybeam.Telemetry.Capture` — the logger's loop

One thread takes datagrams and writes them to the store, in batches.

    no session      the first document opens one, in a transaction
    document        a row of the session; of a run of idle records only the first
    roll, deadline  what is open is committed, then the session is closed
    20 rows or 2 s  commit

The pending rows are counted across sessions and the transaction is committed wherever a session
ends, so the two need not agree.  All of one turn of the loop is one step; rolls and the stop are
signals that the next turn looks at first.  SQLite does what it is asked to.
-/
import Waybeam.Machine
import Waybeam.Telemetry.Derive

namespace Waybeam.Telemetry

open Text Tokens

/-! ## State -/

/-- The logger: its signals, and the variables of the loop. -/
structure Capture where
  stop : Bool := false
  roll : Bool := false
  /-- `-2` is `none` -/
  pendingDuration : Option ℤ := none
  maxDuration : ℤ
  /-- the loop has not been left -/
  looping : Bool := true
  /-- `-1` is `none` -/
  sessionId : Option ℕ := none
  records : ℕ := 0
  bad : ℕ := 0
  dropped : ℕ := 0
  idleRun : Bool := false
  sessionStart : ℚ := 0
  inTxn : Bool := false
  pend : ℕ := 0
  lastCommit : ℚ

/-- What a turn of the loop meets with. -/
structure Turn where
  /-- a datagram, or the receive timeout -/
  dgram : Option Bytes
  /-- the row id of a session that is created -/
  sid : ℕ
  /-- `mono_s()` where a session is opened, after the receive, where one is closed, and at the commit -/
  openedAt : ℚ
  now : ℚ
  closedAt : ℚ
  committedAt : ℚ

/-- What can happen. -/
inductive Event where
  | roll (duration : ℤ)
  | stop
  | turn (io : Turn)

/-- What it does, in order. -/
inductive Obs where
  | received (raw : Bytes)
  | begin
  | commit
  | created (sid : ℕ)
  | inserted (sid : ℕ) (d : Derived) (raw : Bytes)
  | dropped (sid : ℕ) (raw : Bytes)
  /-- `ended_at` is stamped -/
  | closed (sid : ℕ)
  | status (sid : Option ℕ) (records bad dropped : ℕ)

/-! ## The loop -/

/-- A datagram that is a document: its tokens. -/
def document (raw : Bytes) : Option (List Tok) :=
  (jsonParse 768 raw).filter fun doc => doc.head?.any (·.type = .obj)

namespace Capture

variable (s : Capture)

/-- `BEGIN_TXN` -/
def beginTxn : Capture × List Obs := if s.inTxn then (s, []) else ({ s with inTxn := true }, [.begin])

/-- `COMMIT_TXN` -/
def commitTxn (now : ℚ) : Capture × List Obs :=
  ({ s with inTxn := false, lastCommit := now }, if s.inTxn then [.commit] else [])

/-- `status_set_session` -/
def statusSetSession : Capture × List Obs :=
  (s, [.status s.sessionId s.records s.bad s.dropped])

/-- `CLOSE_SESSION` -/
def closeSession (now : ℚ) : Capture × List Obs :=
  match s.sessionId with
  | none => (s, [])
  | some sid =>
      andThen (s.commitTxn now) fun s =>
        andThen ({ s with sessionId := none }, [.closed sid]) statusSetSession

/-- A session for the first document. -/
def openSession (io : Turn) : Capture × List Obs :=
  match s.sessionId with
  | some _ => (s, [])
  | none =>
      andThen s.beginTxn fun s =>
        andThen
          ({ s with
              sessionId := some io.sid, sessionStart := io.openedAt, records := 0, bad := 0
              dropped := 0, idleRun := false }, [.created io.sid])
          statusSetSession

/-- A document becomes a row, or one more idle record. -/
def record (dropEmpty : Bool) (d : Derived) (raw : Bytes) : Capture × List Obs :=
  match s.sessionId with
  | none => (s, [])
  | some sid =>
      let empty := dropEmpty && derivedIsEmpty d
      if empty && s.idleRun then ({ s with dropped := s.dropped + 1 }, [.dropped sid raw])
      else
        andThen s.beginTxn fun s =>
          ({ s with records := s.records + 1, pend := s.pend + 1, idleRun := empty },
            [.inserted sid d raw])

/-- What is done with a datagram. -/
def receive (long : ℕ) (dropEmpty : Bool) (io : Turn) : Capture × List Obs :=
  match io.dgram.filter (· ≠ []) with
  | none => (s, [])
  | some raw =>
      andThen (s, [.received raw]) fun s =>
        andThen
          (match document raw with
            | none => ({ s with bad := s.bad + 1 }, [])
            | some doc => andThen (s.openSession io) fun s => s.record dropEmpty (derive long doc) raw)
          statusSetSession

/-- A roll that was asked for. -/
def rollSession (wantRoll : Bool) (pendDur : Option ℤ) (io : Turn) : Capture × List Obs :=
  if wantRoll then
    ({ s with maxDuration := (pendDur.filter (0 ≤ ·)).getD s.maxDuration } : Capture).closeSession io.closedAt
  else (s, [])

/-- The session is as long as it may be. -/
def deadline (io : Turn) : Capture × List Obs :=
  if s.sessionId ≠ none ∧ 0 < s.maxDuration ∧ s.maxDuration ≤ io.now - s.sessionStart then
    s.closeSession io.closedAt
  else (s, [])

/-- Twenty rows, or two seconds. -/
def batch (io : Turn) : Capture × List Obs :=
  if 20 ≤ s.pend ∨ 2 ≤ io.now - s.lastCommit then
    if s.pend ≠ 0 then andThen (s.commitTxn io.committedAt) fun s => ({ s with pend := 0 }, [])
    else ({ s with lastCommit := io.now }, [])
  else (s, [])

/-- The loop is left: what is open is committed and closed. -/
def finish (io : Turn) : Capture × List Obs :=
  andThen (if s.pend ≠ 0 then s.commitTxn io.committedAt else (s, [])) fun s =>
    andThen (s.closeSession io.closedAt) fun s => ({ s with looping := false }, [])

/-- One turn of `capture_run`'s loop. -/
def turn (long : ℕ) (dropEmpty : Bool) (io : Turn) : Capture × List Obs :=
  let wantRoll := s.roll
  let pendDur := s.pendingDuration
  let t := if wantRoll then { s with roll := false, pendingDuration := none } else s
  if t.stop then t.finish io
  else
    andThen (t.receive long dropEmpty io) fun s =>
      andThen (s.rollSession wantRoll pendDur io) fun s => andThen (s.deadline io) fun s => s.batch io

/-- `wfb_logger_roll` -/
def wfbLoggerRoll (duration : ℤ) : Capture :=
  { s with roll := true, pendingDuration := if 0 ≤ duration then some duration else none }

end Capture

/-- The loop as a machine. -/
def captureMachine (long : ℕ) (dropEmpty : Bool) : Machine Capture Event Obs where
  step s
    | .roll duration => (s.wfbLoggerRoll duration, [])
    | .stop => ({ s with stop := true }, [])
    | .turn io => if s.looping then s.turn long dropEmpty io else (s, [])

/-- The loop before its first turn. -/
def Capture.start (maxDuration : ℤ) (now : ℚ) : Capture := { maxDuration, lastCommit := now }

end Waybeam.Telemetry
