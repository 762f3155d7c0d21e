/-
# `Waybeam.Vehicle.Api` — the HTTP server of the link controller

Eight slots, served by the poll loop itself.  A connection is accepted into a slot, read until a
blank line has come, answered and closed; one that asked for `/events` stays, and from then on is
sent every line that is logged:

    accept --slot--> reading --blank line--> answered, closed
       |                |   \--- /events --> subscriber --short send--> closed
       +--full--> 503   +--EOF, error, 2 s--> closed

Whatever logs sends to the subscribers there and then, the answering of another request too; so a
slot may be emptied while the loop is at a different one, and a slot whose request is being
answered holds a descriptor that is closed already.  `World` is what the other ends see.
-/
import Waybeam.Machine
import Waybeam.Scrape

namespace Waybeam.Vehicle.Api

open Text

def API_MAX_CLIENTS : ℕ := 8

def API_MAX_SSE : ℕ := 4

def API_BUF_BYTES : ℕ := 2048

abbrev Slot := Fin API_MAX_CLIENTS

/-- A connection, by its place in the order of `accept`. -/
abbrev Conn := ℕ

/-! ## Requests -/

/-- What a request asks for. -/
inductive Ask where
  | bad (text : String)
  | root (html : Bool)
  | help
  | params
  | schema (all : Bool)
  | set (qs : Option Bytes)
  | cmd (qs : Option Bytes)
  | status
  | fecStatus
  | mcsStatus
  | cmdStatus
  | logStatus
  | logStart
  | logStop
  | health
  | events
  | keys (qs : Option Bytes)
  | noRoute
  deriving DecidableEq

/-- `request_wants_html`: the search starts behind the request line. -/
def requestWantsHtml (req : Bytes) : Bool :=
  let headers := (behind ['\n'] req).getD req
  contains "Accept: text/html".toList headers || contains "accept: text/html".toList headers

/-- The paths `api_handle_request` compares with, in its order. -/
def routes : List (String × (Bool → Option Bytes → Ask)) :=
  [("/", fun html _ => .root html), ("/help", fun _ _ => .help), ("/params", fun _ _ => .params),
    ("/schema", fun _ qs => .schema (qs.any (contains "all=1".toList))), ("/set", fun _ qs => .set qs),
    ("/cmd", fun _ qs => .cmd qs), ("/status", fun _ _ => .status),
    ("/fec/status", fun _ _ => .fecStatus), ("/mcs/status", fun _ _ => .mcsStatus),
    ("/cmd/status", fun _ _ => .cmdStatus), ("/log/status", fun _ _ => .logStatus),
    ("/log/start", fun _ _ => .logStart), ("/log/stop", fun _ _ => .logStop),
    ("/health", fun _ _ => .health), ("/events", fun _ _ => .events), ("/keys", fun _ qs => .keys qs)]

/-- What stands before the first `c`, and behind it where there is one. -/
def cutAt (c : Char) (s : Bytes) : Bytes × Option Bytes :=
  (s.takeWhile (· ≠ c), behind [c] s)

/-- The request line and the path of `api_handle_request`, on the buffer of a client. -/
def ask (buf : Bytes) : Ask :=
  let req := cstr buf
  if !"GET ".toList.isPrefixOf req then .bad "expected GET\n"
  else
    let line := req.drop 4
    if ' ' ∉ line then .bad "malformed request line\n"
    else
      let (path, qs) := cutAt '?' (line.takeWhile (· ≠ ' '))
      match routes.find? (fun r => decide (r.1.toList = path)) with
      | some r => r.2 (requestWantsHtml req) qs
      | none => .noRoute

/-- The search of `qparam_long` and `qparam_str` from a place in the query, with the character
before it; `skip` characters of a name that matched inside another one are passed over. -/
def qparamFrom {α : Type} (read : Bytes → Option α) (name : Bytes) :
    Option Char → ℕ → Bytes → Option α
  | _, _, [] => none
  | _, skip + 1, c :: p => qparamFrom read name (some c) skip p
  | before, 0, c :: p =>
      if name.isPrefixOf (c :: p) then
        match (c :: p).drop name.length with
        | '=' :: value =>
            if before = none ∨ before = some '&' then read value
            else qparamFrom read name (some c) (name.length - 1) p
        | _ => qparamFrom read name (some c) (name.length - 1) p
      else qparamFrom read name (some c) 0 p

/-- `qparam_long` -/
def qparamLong (long : ℕ) (qs : Option Bytes) (name : String) : Option ℤ :=
  qs.bind (qparamFrom (strtol long) name.toList none 0)

/-- What a request changes outside the server. -/
inductive Control where
  /-- `apply_query` -/
  | set (qs : Bytes)
  /-- `wcmd_dispatch` -/
  | cmd (key value : ℤ)
  | logStart
  | logStop
  /-- the key file -/
  | keys (qs : Option Bytes)
  deriving DecidableEq

/-- `WCMD_NUM_KEYS` -/
def wcmdNumKeys : ℤ := 20

/-- The change a request asks for, if any. -/
def Ask.control (long : ℕ) : Ask → Option Control
  | .set qs => some (.set (qs.getD []))
  | .cmd qs =>
      (qparamLong long qs "key").bind fun key =>
        if key < 1 ∨ wcmdNumKeys < key then none
        else some (.cmd key ((qparamLong long qs "value").getD 0))
  | .logStart => some .logStart
  | .logStop => some .logStop
  | .keys qs => some (.keys qs)
  | _ => none

/-! ## Writing -/

/-- What `write` answers. -/
inductive WriteRes where
  | wrote (n : ℕ)
  | eintr
  | error

/-- `write_all`: the bytes that got out, whether those are all, and the answers left. -/
def writeAll : List WriteRes → Bytes → Bytes × Bool × List WriteRes
  | ws, [] => ([], true, ws)
  | .eintr :: ws, buf => writeAll ws buf
  | .wrote n :: ws, buf =>
      if n = 0 then ([], false, ws)
      else
        let (sent, ok, ws) := writeAll ws (buf.drop n)
        (buf.take n ++ sent, ok, ws)
  | .error :: ws, _ => ([], false, ws)
  | [], _ => ([], false, [])

/-- The reason phrases of `api_send`. -/
def reasonOf (status : ℕ) : String :=
  match status with
  | 200 => "OK"
  | 400 => "Bad Request"
  | 404 => "Not Found"
  | 500 => "Internal Server Error"
  | 503 => "Service Unavailable"
  | _ => "Error"

/-- A response: status, content type and body. -/
structure Reply where
  status : ℕ
  contentType : String
  body : Bytes

def plain (status : ℕ) (body : String) : Reply := ⟨status, "text/plain", body.toList⟩

def Reply.header (r : Reply) : Bytes :=
  printf [("HTTP/1.0 ".toList, decimal r.status), (" ".toList, (reasonOf r.status).toList),
      ("\r\nContent-Type: ".toList, r.contentType.toList),
      ("\r\nContent-Length: ".toList, decimal r.body.length)]
    "\r\nCache-Control: no-store\r\nConnection: close\r\n\r\n".toList

/-- `api_send`, and `api_send_blob` but for its `close`: what gets out of a response. -/
def apiSend (ws : List WriteRes) (r : Reply) : Bytes :=
  let (sent, ok, ws) := writeAll ws r.header
  if ok then sent ++ (writeAll ws r.body).1 else sent

/-- `api_send_sse_headers` -/
def sseHeaders : Bytes :=
  "HTTP/1.0 200 OK\r\nContent-Type: text/event-stream\r\nCache-Control: no-store\r\nX-Accel-Buffering: no\r\nConnection: keep-alive\r\n\r\n:link_controller events stream\n\n".toList

/-- What the builder of a body left: the text, `none` where it overflowed, and the status where
that depends on how the change went. -/
structure Page where
  status : ℕ := 200
  body : Option Bytes

def json (status : ℕ) (p : Page) : Reply :=
  match p.body with
  | some body => ⟨status, "application/json", body⟩
  | none => plain 500 "json overflow\n"

/-- The response to a request that is answered at once. -/
def Ask.reply (long : ℕ) (p : Page) : Ask → Reply
  | .bad text => plain 400 text
  | .root true => ⟨200, "text/html; charset=utf-8", p.body.getD []⟩
  | .root false | .help =>
      match p.body with
      | some body => ⟨200, "text/plain", body⟩
      | none => plain 500 "help overflow\n"
  | .cmd qs => if (Ask.cmd qs).control long = none then plain 400 "bad or missing key\n" else json 200 p
  | .logStart | .keys _ => json p.status p
  | .health => plain 200 "ok\n"
  | .events => plain 503 "sse: too many subscribers\n"
  | .noRoute => plain 404 "no such route\n"
  | _ => json 200 p

/-! ## Log lines -/

inductive Subsys where
  | common
  | fec
  | mcs
  deriving DecidableEq

/-- `subsys_name` -/
def Subsys.name : Subsys → String
  | .fec => "fec"
  | .mcs => "mcs"
  | .common => "common"

/-- `"%04x"` -/
def hex4 (n : ℕ) : Bytes :=
  [n / 4096 % 16, n / 256 % 16, n / 16 % 16, n % 16].map Nat.digitChar

/-- What `json_escape` writes for a character. -/
def escapeChar (c : Char) : Bytes :=
  if c = '"' ∨ c = '\\' then ['\\', c]
  else if c = '\n' then ['\\', 'n']
  else if c = '\r' then ['\\', 'r']
  else if c = '\t' then ['\\', 't']
  else if c.toNat < 0x20 then '\\' :: 'u' :: hex4 c.toNat
  else [c]

/-- `json_escape` from `pos` on in a buffer of `cap` bytes; `none` where the room ends. -/
def jsonEscape (cap : ℕ) : ℕ → Bytes → Option Bytes
  | _, [] => some []
  | pos, c :: s =>
      if cap - 8 ≤ pos then none
      else (jsonEscape cap (pos + (escapeChar c).length) s).map (escapeChar c ++ ·)

/-- A line as it is logged: the time in milliseconds, as `"%.3f"` rounds it, and the C string. -/
structure Line where
  ms : ℕ
  subsys : Subsys
  body : Bytes
  deriving DecidableEq

/-- `"%.3f"` of the time in seconds. -/
def Line.tS (l : Line) : Bytes :=
  decimal (l.ms / 1000) ++ '.' :: [l.ms / 100 % 10, l.ms / 10 % 10, l.ms % 10].map Nat.digitChar

def SSE_EV_BYTES : ℕ := 1536

/-- What stands in an event before the message. -/
def Line.head (l : Line) : Bytes :=
  printf [("data: \x7b\"t_s\":".toList, l.tS), (",\"subsys\":\"".toList, l.subsys.name.toList)]
    "\",\"msg\":\"".toList

def eventTail : Bytes := "\"\x7d\n\n".toList

/-- The event `sse_broadcast_log` makes of a line; `none` where it does not fit. -/
def eventOf (l : Line) : Option Bytes :=
  if SSE_EV_BYTES ≤ l.head.length then none
  else
    (jsonEscape SSE_EV_BYTES l.head.length (cstr l.body)).bind fun msg =>
      let pos := l.head.length + msg.length
      if SSE_EV_BYTES - pos ≤ eventTail.length then none else some (l.head ++ (msg ++ eventTail))

/-- What the subscribers are sent. -/
inductive SseEvent where
  | line (l : Line)
  | ping
  deriving DecidableEq

def SseEvent.bytes : SseEvent → Bytes
  | .line l => (eventOf l).getD []
  | .ping => ":ping\n\n".toList

/-- A line that is logged, and how much of its event each connection takes. -/
structure Logged where
  line : Line
  took : Conn → ℕ

/-! ## The slots -/

structure ApiClient where
  fd : Option Conn := none
  acceptedUs : ℕ := 0
  /-- the first `pos` bytes -/
  buf : Bytes := []
  sse : Bool := false

/-- The slots, and the loop's own variables. -/
structure Server where
  clients : Slot → ApiClient := fun _ => {}
  accepted : ℕ := 0
  clock : ℕ := 0
  nextSsePingUs : ℕ := 15000000

/-- What the server does with its connections, and what else comes of it. -/
inductive Obs where
  | accepted (c : Conn)
  | received (c : Conn) (bytes : Bytes)
  | sent (c : Conn) (bytes : Bytes)
  | closed (c : Conn)
  | asked (c : Conn) (buf : Bytes)
  | control (c : Conn) (k : Control)
  /-- the connection is a subscriber from here on -/
  | attached (c : Conn)
  /-- on its way to every subscriber -/
  | event (e : SseEvent)

def Server.setClient (s : Server) (i : Slot) (a : ApiClient) : Server :=
  { s with clients := Function.update s.clients i a }

def slots : List Slot := List.finRange API_MAX_CLIENTS

/-- `api_count_sse` -/
def Server.countSse (s : Server) : ℕ := slots.countP fun i => (s.clients i).sse

/-- What `api_client_drop` and the senders leave of a slot. -/
def ApiClient.dropped (a : ApiClient) : ApiClient := { a with fd := none, buf := [], sse := false }

/-- `api_client_drop` -/
def Server.drop (s : Server) (i : Slot) : Server × List Obs :=
  (s.setClient i (s.clients i).dropped,
    match (s.clients i).fd with
    | some c => [.closed c]
    | none => [])

/-- One slot of a broadcast; a short send is the end of the subscriber. -/
def Server.push (e : SseEvent) (took : Conn → ℕ) (s : Server) (i : Slot) : Server × List Obs :=
  match (s.clients i).sse, (s.clients i).fd with
  | true, some c =>
      if e.bytes.length ≤ took c then (s, [.sent c e.bytes])
      else (s.setClient i (s.clients i).dropped, [.sent c (e.bytes.take (took c)), .closed c])
  | _, _ => (s, [])

/-- The loop of `sse_broadcast_log` and of `sse_heartbeat_all`. -/
def Server.broadcast (s : Server) (e : SseEvent) (took : Conn → ℕ) : Server × List Obs :=
  andThen (s, [.event e]) (each (Server.push e took) slots)

/-- `sse_broadcast_log` -/
def Server.log (s : Server) (l : Logged) : Server × List Obs :=
  if (eventOf l.line).isSome then s.broadcast (.line l.line) l.took else (s, [])

/-- `c->fd = -1` -/
def Server.release (s : Server) (i : Slot) : Server × List Obs :=
  (s.setClient i { s.clients i with fd := none }, [])

/-! ## Serving -/

/-- What `recv` answers. -/
inductive RecvRes where
  /-- none at the end of the stream -/
  | data (bytes : Bytes)
  | again
  | error

/-- What poll said of a slot, and what its calls are answered. -/
structure Visit where
  readable : Bool := false
  hangup : Bool := false
  recvs : List RecvRes := []
  writes : List WriteRes := []
  page : Page := ⟨200, none⟩
  /-- logged while the request is carried out -/
  during : List Logged := []
  /-- logged after the response -/
  after : List Logged := []

/-- A blank line has come. -/
def complete (buf : Bytes) : Bool :=
  contains "\r\n\r\n".toList (cstr buf) || contains "\n\n".toList (cstr buf)

/-- How the reading of a client ends. -/
inductive Drained where
  | tooLarge
  | hungUp
  | waiting
  | request
  deriving DecidableEq

/-- The loop of `api_client_drain`, on the buffer. -/
def receive : List RecvRes → Bytes → Bytes × Drained
  | rs, buf =>
      if API_BUF_BYTES - 1 ≤ buf.length then (buf, .tooLarge)
      else
        match rs with
        | [] | .again :: _ => (buf, .waiting)
        | .error :: _ | .data [] :: _ => (buf, .hungUp)
        | .data (b :: bytes) :: rs =>
            let buf := buf ++ (b :: bytes).take (API_BUF_BYTES - 1 - buf.length)
            if complete buf then (buf, .request) else receive rs buf

/-- A response and its `close`; the slot is not told yet. -/
def Server.respond (s : Server) (c : Conn) (ws : List WriteRes) (r : Reply) : Server × List Obs :=
  (s, [.sent c (apiSend ws r), .closed c])

/-- `api_handle_request` -/
def Server.handle (long : ℕ) (s : Server) (i : Slot) (c : Conn) (v : Visit) : Server × List Obs :=
  let a := ask (s.clients i).buf
  if a = .events ∧ s.countSse < API_MAX_SSE then
    andThen (s.setClient i { s.clients i with buf := [], sse := true },
      [.sent c (writeAll v.writes sseHeaders).1, .attached c]) (each Server.log v.after)
  else
    andThen (s, ((a.control long).map (Obs.control c)).toList) fun s =>
    andThen (each Server.log v.during s) fun s =>
    andThen (s.respond c v.writes (a.reply long v.page)) fun s =>
    andThen (each Server.log v.after s) fun s =>
    s.release i

/-- `api_client_drain` -/
def Server.drain (long : ℕ) (s : Server) (i : Slot) (c : Conn) (v : Visit) : Server × List Obs :=
  let old := (s.clients i).buf
  let (buf, end') := receive v.recvs old
  andThen (s.setClient i { s.clients i with buf }, [.received c (buf.drop old.length)]) fun s =>
    match end' with
    | .tooLarge =>
        andThen (s.respond c v.writes (plain 400 "request too large\n")) fun s => s.release i
    | .hungUp => s.drop i
    | .waiting => (s, [])
    | .request => andThen (s, [.asked c buf]) fun s => s.handle long i c v

/-- One slot of the loop over the clients; `polled` are the slots poll was asked about. -/
def Server.visit (long : ℕ) (polled : Slot → Bool) (vs : Slot → Visit) (s : Server) (i : Slot) :
    Server × List Obs :=
  match polled i, (s.clients i).fd with
  | true, some c =>
      if (s.clients i).sse then if (vs i).hangup then s.drop i else (s, [])
      else if (vs i).readable ∨ (vs i).hangup then s.drain long i c (vs i)
      else (s, [])
  | _, _ => (s, [])

/-- A connection that is waiting, and what `write` answers if there is no slot for it. -/
structure Waiting where
  dt : ℕ
  writes : List WriteRes

/-- `accept` and `api_client_alloc` -/
def Server.accept (s : Server) (w : Waiting) : Server × List Obs :=
  let c := s.accepted
  let s := { s with accepted := c + 1, clock := s.clock + w.dt }
  match slots.find? fun i => (s.clients i).fd.isNone with
  | some i =>
      (s.setClient i { fd := some c, acceptedUs := s.clock, buf := [], sse := false }, [.accepted c])
  | none => andThen (s, [.accepted c]) fun s => s.respond c w.writes (plain 503 "no free api slot\n")

/-- A request that takes longer than two seconds is dropped. -/
def Server.reap (s : Server) (i : Slot) : Server × List Obs :=
  if (s.clients i).fd.isSome ∧ (s.clients i).sse = false ∧ 2000000 < s.clock - (s.clients i).acceptedUs then
    s.drop i
  else (s, [])

/-- `sse_heartbeat_all`, when it is due. -/
def Server.heartbeat (s : Server) (took : Conn → ℕ) : Server × List Obs :=
  if s.nextSsePingUs ≤ s.clock then
    andThen (s.broadcast .ping took) fun s => ({ s with nextSsePingUs := s.clock + 15000000 }, [])
  else (s, [])

/-- What a turn of the poll loop finds. -/
structure Turn where
  waiting : List Waiting := []
  visits : Slot → Visit := fun _ => {}
  /-- how long the serving takes -/
  dt : ℕ := 0
  ping : Conn → ℕ := fun _ => 0

/-- The HTTP part of a turn. -/
def Server.turn (long : ℕ) (s : Server) (t : Turn) : Server × List Obs :=
  let polled := fun i => (s.clients i).fd.isSome
  andThen (each Server.accept t.waiting s) fun s =>
  andThen (each (Server.visit long polled t.visits) slots s) fun s =>
  andThen (each Server.reap slots { s with clock := s.clock + t.dt }) fun s =>
  s.heartbeat t.ping

/-- What happens to the server. -/
inductive Event where
  | turn (t : Turn)
  /-- the rest of the loop logs -/
  | log (l : Logged)

/-- The server. -/
def api (long : ℕ) : Machine Server Event Obs where
  step s e :=
    match e with
    | .turn t => s.turn long t
    | .log l => s.log l

end Waybeam.Vehicle.Api
