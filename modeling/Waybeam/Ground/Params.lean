/-
# `Waybeam.Ground.Params` — the radio and FEC parameters of a transmitter

`/api/v1/tunnels/{name}/control` passes a command on to the `wfb_tx` of a tunnel.  The tunnel
keeps what it knows of the parameters; the status page shows it, and the next request fills in
from it what it does not name.

    set_fec      k, n (0 to 255), perhaps the timeout      the values, when acknowledged
    set_radio    get_radio, then what the query names      the values, when acknowledged
    get_*        the answer                                the answer

A field of the wire is one byte.  The cache has `int`s; `set_fec` looks whether its numbers fit,
`set_radio` does not.
-/
import Waybeam.Ground.Numbers
import Waybeam.Ground.State

namespace Waybeam.Ground.Control

open Text

/-! ## The parameters -/

/-- The radio parameters, in the order of the wire. -/
inductive Radio where
  | stbc
  | ldpc
  | shortGi
  | bandwidth
  | mcsIndex
  | vhtMode
  | vhtNss
  deriving DecidableEq, Repr

namespace Radio

def all : List Radio := [stbc, ldpc, shortGi, bandwidth, mcsIndex, vhtMode, vhtNss]

/-- Where the parameter stands in a request or an answer. -/
def index : Radio → ℕ
  | stbc => 0
  | ldpc => 1
  | shortGi => 2
  | bandwidth => 3
  | mcsIndex => 4
  | vhtMode => 5
  | vhtNss => 6

/-- Its name in a query, and in the answer to `get_radio`. -/
def key : Radio → String
  | stbc => "stbc"
  | ldpc => "ldpc"
  | shortGi => "short_gi"
  | bandwidth => "bandwidth"
  | mcsIndex => "mcs_index"
  | vhtMode => "vht_mode"
  | vhtNss => "vht_nss"

/-- Sent and kept as 0 or 1. -/
def isFlag : Radio → Bool
  | ldpc | shortGi | vhtMode => true
  | _ => false

/-- What the tunnel holds is a value. -/
def known : Radio → ℤ → Bool
  | bandwidth, v | vhtNss, v => 0 < v
  | _, v => 0 ≤ v

/-- What is sent where the tunnel holds none. -/
def fallback : Radio → ℤ
  | bandwidth => 20
  | mcsIndex | vhtNss => 1
  | _ => 0

def flag (v : ℤ) : ℕ := if v ≠ 0 then 1 else 0

/-- The field of a request. -/
def wire (r : Radio) (v : ℤ) : UInt8 := if r.isFlag then UInt8.ofNat (flag v) else u8 v

/-- What is kept of the value. -/
def keep (r : Radio) (v : ℤ) : ℤ := if r.isFlag then flag v else v

end Radio

/-- A tunnel, as far as its control port is concerned (`tunnel_init_defaults`). -/
structure TxTunnel where
  role : Role := .tx
  controlPort : ℤ := 0
  radio : Radio → ℤ := fun r => if r = .bandwidth then 0 else -1
  /-- `radio_cache_have`, `radio_cache_us` -/
  radioHave : Bool := false
  radioUs : ℕ := 0
  fecK : ℤ := 0
  fecN : ℤ := 0
  fecTimeoutMs : ℤ := -1
  fecHave : Bool := false

/-! ## A round trip -/

/-- What becomes of a request: it is not sent, nothing comes back, or a datagram. -/
inductive Reply where
  | unsent
  | silent
  | datagram (buf : List UInt8)
  deriving DecidableEq, Repr

/-- What the 64 bytes of the buffer take. -/
def Reply.received : Reply → List UInt8
  | datagram buf => buf.take 64
  | _ => []

/-- A byte of a buffer. -/
def byteAt (buf : List UInt8) (i : ℕ) : ℕ := (buf.getD i 0).toNat

/-- A number in network order. -/
def be (buf : List UInt8) (i len : ℕ) : ℕ :=
  (List.range len).foldl (fun n j => 256 * n + byteAt buf (i + j)) 0

/-- `wfb_cmd_round_trip`: what it returns, and the code. -/
def roundTrip (reply : Reply) : ℤ × ℕ :=
  match reply with
  | .unsent => (-1, 0xFFFFFFFF)
  | reply =>
      let buf := reply.received
      (buf.length, if 8 ≤ buf.length then be buf 4 4 else 0xFFFFFFFF)

/-- The supervisor's side: the last `req_id`, and the tunnel. -/
structure Ctl where
  reqId : UInt32 := 0
  tunnel : TxTunnel := {}

/-- What a control request meets. -/
structure Io where
  /-- what becomes of the `get_radio` that comes before a `set_radio` -/
  live : Reply := .silent
  liveUs : ℕ := 0
  /-- what becomes of the command -/
  reply : Reply := .silent
  nowUs : ℕ := 0

/-- A request: its number as the host has it, the command and the body. -/
def request (reqId : UInt32) (cmd : UInt8) (body : List UInt8) : List UInt8 :=
  [reqId.toUInt8, (reqId >>> 8).toUInt8, (reqId >>> 16).toUInt8, (reqId >>> 24).toUInt8, cmd] ++ body

/-- `WFB_CMD_SET_FEC` and the others -/
def cmdSetFec : UInt8 := 1
def cmdSetRadio : UInt8 := 2
def cmdGetFec : UInt8 := 3
def cmdGetRadio : UInt8 := 4

/-- `WFB_FEC_TIMEOUT_KEEP` -/
def fecTimeoutKeep : ℤ := 0xFFFF

namespace TxTunnel

/-- The body of a `get_radio` answer. -/
def takeRadio (t : TxTunnel) (buf : List UInt8) (nowUs : ℕ) : TxTunnel :=
  { t with radio := fun r => byteAt buf (8 + r.index), radioHave := true, radioUs := nowUs }

/-- The body of a `get_fec` answer. -/
def takeFec (t : TxTunnel) (buf : List UInt8) : TxTunnel :=
  { t with
    fecK := byteAt buf 8, fecN := byteAt buf 9, fecTimeoutMs := be buf 10 2, fecHave := true }

end TxTunnel

/-- `get_radio` has an answer with its whole body. -/
def answersRadio (reply : Reply) : Prop := 15 ≤ (roundTrip reply).1 ∧ (roundTrip reply).2 = 0

instance (reply : Reply) : Decidable (answersRadio reply) := inferInstanceAs (Decidable (_ ∧ _))

/-- `wfb_cmd_refresh_radio`: whether it is answered, and what was sent. -/
def refreshRadio (c : Ctl) (live : Reply) (nowUs : ℕ) : Bool × Ctl × List (List UInt8) :=
  if c.tunnel.controlPort ≤ 0 then (false, c, [])
  else
    let c := { c with reqId := c.reqId + 1 }
    let sent := [request c.reqId cmdGetRadio []]
    if answersRadio live then
      (true, { c with tunnel := c.tunnel.takeRadio live.received nowUs }, sent)
    else (false, c, sent)

/-! ## The handler -/

/-- What the client is answered. -/
inductive Answer where
  /-- `text/plain` -/
  | refused (status : ℕ) (text : String)
  /-- the `error` of a JSON body -/
  | failed (status : ℕ) (error : String)
  /-- the code, and the values of a `get_*` -/
  | replied (rc : ℕ) (values : List (String × ℕ))
  deriving DecidableEq, Repr

/-- What a control request does. -/
structure Outcome where
  ctl : Ctl
  sent : List (List UInt8) := []
  answer : Answer

/-- The answer to a command that was passed on. -/
def Answer.of (trip : ℤ × ℕ) (values : List (String × ℕ)) : Answer :=
  if trip.1 < 0 then .failed 502 "sendto failed"
  else if trip.1 = 0 then .failed 504 "timeout"
  else .replied trip.2 values

/-- `rlen > 0 && rc_out == 0` -/
def acked (reply : Reply) : Prop := 0 < (roundTrip reply).1 ∧ (roundTrip reply).2 = 0

instance (reply : Reply) : Decidable (acked reply) := inferInstanceAs (Decidable (_ ∧ _))

/-- The numbers of a `set_fec`: `k`, `n` and the timeout. -/
def fecArgs (long : ℕ) (qs : Bytes) : Except String (ℤ × ℤ × ℤ) :=
  match qsGetIntOn long qs "k".toList, qsGetIntOn long qs "n".toList with
  | some k, some n =>
      if 0 ≤ k ∧ k ≤ 255 ∧ 0 ≤ n ∧ n ≤ 255 then
        match qsGetIntOn long qs "fec_timeout_ms".toList with
        | some ms =>
            if ms < 0 ∨ 0xFFFE < ms then .error "fec_timeout_ms out of range\n" else .ok (k, n, ms)
        | none => .ok (k, n, fecTimeoutKeep)
      else .error "set_fec needs k,n in [0,255]\n"
  | _, _ => .error "set_fec needs k,n in [0,255]\n"

def setFec (long : ℕ) (c : Ctl) (io : Io) (qs : Bytes) : Outcome :=
  match fecArgs long qs with
  | .error text => { ctl := c, answer := .refused 400 text }
  | .ok (k, n, ms) =>
      let c := { c with reqId := c.reqId + 1 }
      let req := request c.reqId cmdSetFec [u8 k, u8 n, u8 (ms / 256), u8 ms]
      let t := if acked io.reply then
        { c.tunnel with
          fecK := k, fecN := n, fecHave := true
          fecTimeoutMs := if ms ≠ fecTimeoutKeep then ms else c.tunnel.fecTimeoutMs }
      else c.tunnel
      { ctl := { c with tunnel := t }, sent := [req], answer := .of (roundTrip io.reply) [] }

/-- What is sent of a parameter that the query may name; `live` says whether the tunnel has it from
`get_radio` just now. -/
def merged (long : ℕ) (qs : Bytes) (live : Bool) (t : TxTunnel) (r : Radio) : ℤ :=
  (qsGetIntOn long qs r.key.toList).getD
    (if live ∨ r.known (t.radio r) then t.radio r else r.fallback)

def setRadio (long : ℕ) (c : Ctl) (io : Io) (qs : Bytes) : Outcome :=
  let (live, c, sent) := refreshRadio c io.live io.liveUs
  let v := merged long qs live c.tunnel
  let c := { c with reqId := c.reqId + 1 }
  let req := request c.reqId cmdSetRadio (Radio.all.map fun r => r.wire (v r))
  let t := if acked io.reply then
    { c.tunnel with radio := fun r => r.keep (v r), radioHave := true, radioUs := io.nowUs }
  else c.tunnel
  { ctl := { c with tunnel := t }, sent := sent ++ [req], answer := .of (roundTrip io.reply) [] }

def getFec (c : Ctl) (io : Io) : Outcome :=
  let c := { c with reqId := c.reqId + 1 }
  let buf := io.reply.received
  let whole := acked io.reply ∧ 12 ≤ buf.length
  { ctl := if whole then { c with tunnel := c.tunnel.takeFec buf } else c
    sent := [request c.reqId cmdGetFec []]
    answer := .of (roundTrip io.reply)
      (if whole then [("k", byteAt buf 8), ("n", byteAt buf 9), ("fec_timeout_ms", be buf 10 2)]
      else []) }

def getRadio (c : Ctl) (io : Io) : Outcome :=
  let c := { c with reqId := c.reqId + 1 }
  let buf := io.reply.received
  let whole := answersRadio io.reply
  { ctl := if whole then { c with tunnel := c.tunnel.takeRadio buf io.nowUs } else c
    sent := [request c.reqId cmdGetRadio []]
    answer := .of (roundTrip io.reply)
      (if whole then Radio.all.map fun r => (r.key, byteAt buf (8 + r.index)) else []) }

/-- The action `control` on a tunnel. -/
def control (long : ℕ) (c : Ctl) (io : Io) (qs : Bytes) : Outcome :=
  let refuse := fun status text => { ctl := c, answer := .refused status text }
  if c.tunnel.role ≠ .tx then refuse 400 "control only valid on tx tunnels\n"
  else if c.tunnel.controlPort ≤ 0 then
    refuse 409 "tunnel has no control_port set; add -C in config\n"
  else
    match qsGet qs "cmd".toList with
    | none => refuse 400 "missing ?cmd=\n"
    | some cmd =>
        if cmd = "set_fec".toList then setFec long c io qs
        else if cmd = "set_radio".toList then setRadio long c io qs
        else if cmd = "get_fec".toList then getFec c io
        else if cmd = "get_radio".toList then getRadio c io
        else refuse 400 "cmd must be set_fec|set_radio|get_fec|get_radio\n"

/-! ## What the cache and the wire have in common -/

inductive Param where
  | fecK
  | fecN
  | fecTimeout
  | radio (r : Radio)
  deriving DecidableEq, Repr

/-- What the tunnel holds of a parameter. -/
def TxTunnel.param (t : TxTunnel) : Param → ℤ
  | .fecK => t.fecK
  | .fecN => t.fecN
  | .fecTimeout => t.fecTimeoutMs
  | .radio r => t.radio r

/-- What a request tells `wfb_tx` about a parameter: five bytes, then the fields of the command. -/
def onWire (req : List UInt8) : Param → Option ℤ
  | .fecK => if req.getD 4 0 = cmdSetFec then some (byteAt req 5) else none
  | .fecN => if req.getD 4 0 = cmdSetFec then some (byteAt req 6) else none
  | .fecTimeout =>
      if req.getD 4 0 = cmdSetFec ∧ (be req 7 2 : ℤ) ≠ fecTimeoutKeep then some (be req 7 2) else none
  | .radio r => if req.getD 4 0 = cmdSetRadio then some (byteAt req (5 + r.index)) else none

/-- The query asks for this command. -/
def Asks (qs : Bytes) (cmd : String) : Prop := qsGet qs "cmd".toList = some cmd.toList

instance (qs : Bytes) (cmd : String) : Decidable (Asks qs cmd) := inferInstanceAs (Decidable (_ = _))

/-- The value that the query carries for a parameter of its command. -/
def carried (long : ℕ) (qs : Bytes) : Param → Option ℤ
  | .fecK => if Asks qs "set_fec" then qsGetIntOn long qs "k".toList else none
  | .fecN => if Asks qs "set_fec" then qsGetIntOn long qs "n".toList else none
  | .fecTimeout => if Asks qs "set_fec" then qsGetIntOn long qs "fec_timeout_ms".toList else none
  | .radio r => if Asks qs "set_radio" then qsGetIntOn long qs r.key.toList else none

/-- The live value: what `get_radio` has just answered, where it was asked; else what the tunnel
holds, if that is a value. -/
def liveValue (t : TxTunnel) (io : Io) (qs : Bytes) : Param → Option ℤ
  | .radio r =>
      if Asks qs "set_radio" then
        if answersRadio io.live then some (byteAt io.live.received (8 + r.index))
        else if r.known (t.radio r) then some (t.radio r) else none
      else some (t.radio r)
  | p => some (t.param p)

/-- The supervisor before the write. -/
def beforeWrite (c : Ctl) (io : Io) (qs : Bytes) : Ctl :=
  if Asks qs "set_radio" then (refreshRadio c io.live io.liveUs).2.1 else c

/-- The command is one of the two, and is passed on. -/
structure Accepted (long : ℕ) (c : Ctl) (qs : Bytes) : Prop where
  role : c.tunnel.role = .tx
  port : 0 < c.tunnel.controlPort
  args : Asks qs "set_radio" ∨ Asks qs "set_fec" ∧ (fecArgs long qs).isOk

/-- The cache is what was sent. -/
structure CacheTrue (long : ℕ) (c : Ctl) (io : Io) (qs : Bytes) : Prop where
  /-- acknowledged: what the last request tells is what the tunnel holds -/
  sent : acked io.reply → ∃ req, (control long c io qs).sent.getLast? = some req ∧
    ∀ p v, onWire req p = some v → (control long c io qs).ctl.tunnel.param p = v
  /-- what the query does not carry keeps its live value -/
  kept : acked io.reply → ∀ p, carried long qs p = none → ∀ v, liveValue c.tunnel io qs p = some v →
    (control long c io qs).ctl.tunnel.param p = v
  /-- not acknowledged: the tunnel is as it was before the write -/
  left : ¬ acked io.reply → (control long c io qs).ctl.tunnel = (beforeWrite c io qs).tunnel

/-- A value that an acknowledged `set_radio` carries, or else the live one, is a byte; a flag that
it does not carry is 0 or 1. -/
def ByteSized (long : ℕ) (c : Ctl) (io : Io) (qs : Bytes) : Prop :=
  Asks qs "set_radio" → acked io.reply → ∀ r : Radio,
    (r.isFlag = false →
      ∀ v ∈ (carried long qs (.radio r)).or (liveValue c.tunnel io qs (.radio r)), 0 ≤ v ∧ v ≤ 255) ∧
    (r.isFlag = true → carried long qs (.radio r) = none →
      ∀ v ∈ liveValue c.tunnel io qs (.radio r), v = 0 ∨ v = 1)

/-! ### Bytes -/

theorem getD_request (id : UInt32) (cmd : UInt8) (body : List UInt8) :
    (request id cmd body).getD 4 0 = cmd := rfl

theorem byteAt_request (id : UInt32) (cmd : UInt8) (body : List UInt8) (i : ℕ) :
    byteAt (request id cmd body) (5 + i) = byteAt body i := by
  simp only [byteAt, request, List.getD_eq_getElem?_getD]
  rw [List.getElem?_append_right (by simp)]
  simp

theorem be_two (buf : List UInt8) (i : ℕ) : be buf i 2 = 256 * byteAt buf i + byteAt buf (i + 1) := by
  simp [be, List.range_succ]

/-- A byte is what was put in it, when it was a byte. -/
theorem u8_toNat_iff (v : ℤ) : ((u8 v).toNat : ℤ) = v ↔ 0 ≤ v ∧ v ≤ 255 := by
  constructor
  · intro h
    have := UInt8.toNat_lt (u8 v)
    omega
  · rintro ⟨h₀, h₁⟩
    exact u8_toNat h₀ (by omega)

namespace Radio

theorem byteAt_map (f : Radio → UInt8) (r : Radio) : byteAt (all.map f) r.index = (f r).toNat := by
  cases r <;> rfl

theorem flag_toNat (v : ℤ) : (UInt8.ofNat (flag v)).toNat = flag v := by
  unfold flag
  split <;> rfl

theorem flag_eq_iff (v : ℤ) : (flag v : ℤ) = v ↔ v = 0 ∨ v = 1 := by
  unfold flag
  split <;> omega

/-- What is kept is what is sent: of a flag always, of a number when it is a byte. -/
theorem wire_eq_keep_iff (r : Radio) (v : ℤ) :
    ((r.wire v).toNat : ℤ) = r.keep v ↔ (r.isFlag = false → 0 ≤ v ∧ v ≤ 255) := by
  cases hr : r.isFlag with
  | true =>
    rw [wire, if_pos hr, keep, if_pos hr, flag_toNat]
    simp
  | false =>
    simp only [wire, keep, hr, if_false, Bool.false_eq_true, forall_const]
    exact u8_toNat_iff v

theorem keep_eq_iff (r : Radio) (v : ℤ) : r.keep v = v ↔ (r.isFlag = true → v = 0 ∨ v = 1) := by
  cases hr : r.isFlag with
  | true => simpa [keep, hr] using flag_eq_iff v
  | false => simp [keep, hr]

theorem fallback_byte (r : Radio) : 0 ≤ r.fallback ∧ r.fallback ≤ 255 := by cases r <;> decide

end Radio

/-! ### set_fec -/

theorem fecArgs_ok {long : ℕ} {qs : Bytes} {k n ms : ℤ} (h : fecArgs long qs = .ok (k, n, ms)) :
    (0 ≤ k ∧ k ≤ 255) ∧ (0 ≤ n ∧ n ≤ 255) ∧ (0 ≤ ms ∧ ms ≤ 0xFFFF) ∧
      qsGetIntOn long qs "k".toList = some k ∧ qsGetIntOn long qs "n".toList = some n ∧
      (qsGetIntOn long qs "fec_timeout_ms".toList = none → ms = fecTimeoutKeep) := by
  unfold fecArgs at h
  split at h
  · rename_i k' n' hk hn
    split at h
    · rename_i hrange
      split at h
      · rename_i ms' hms
        split at h
        · cases h
        · cases h
          exact ⟨⟨hrange.1, hrange.2.1⟩, ⟨hrange.2.2.1, hrange.2.2.2⟩, by omega, hk, hn,
            fun hnone => by rw [hms] at hnone; cases hnone⟩
      · cases h
        exact ⟨⟨hrange.1, hrange.2.1⟩, ⟨hrange.2.2.1, hrange.2.2.2⟩, by decide, hk, hn,
          fun _ => rfl⟩
    · cases h
  · cases h

section

variable {long : ℕ} {c : Ctl} {io : Io} {qs : Bytes}

theorem not_asks_both (h : Asks qs "set_fec") : ¬ Asks qs "set_radio" := by
  intro h'
  rw [Asks, h] at h'
  exact absurd h' (by decide)

theorem control_setFec (h : Accepted long c qs) (hcmd : Asks qs "set_fec") :
    control long c io qs = setFec long c io qs := by
  have hport := h.port
  simp only [control, h.role, ne_eq, not_true, if_false, if_neg (not_le.mpr hport)]
  rw [hcmd]
  exact if_pos rfl

theorem control_setRadio (h : Accepted long c qs) (hcmd : Asks qs "set_radio") :
    control long c io qs = setRadio long c io qs := by
  have hport := h.port
  simp only [control, h.role, ne_eq, not_true, if_false, if_neg (not_le.mpr hport)]
  rw [hcmd]
  rfl

/-- What a `set_fec` tells. -/
theorem onWire_setFec (id : UInt32) {k n ms : ℤ} (hk : 0 ≤ k ∧ k ≤ 255) (hn : 0 ≤ n ∧ n ≤ 255)
    (hms : 0 ≤ ms ∧ ms ≤ 0xFFFF) (p : Param) :
    onWire (request id cmdSetFec [u8 k, u8 n, u8 (ms / 256), u8 ms]) p = match p with
      | .fecK => some k
      | .fecN => some n
      | .fecTimeout => if ms ≠ fecTimeoutKeep then some ms else none
      | .radio _ => none := by
  have hbe : (be (request id cmdSetFec [u8 k, u8 n, u8 (ms / 256), u8 ms]) 7 2 : ℤ) = ms := by
    have hhi := (u8_toNat_iff (ms / 256)).mpr (by omega)
    have hlo : ((u8 ms).toNat : ℤ) = ms % 256 := by
      rw [show u8 ms = u8 (ms % 256) by simp only [u8, Int.emod_emod]]
      exact (u8_toNat_iff _).mpr (by omega)
    rw [be_two]
    show ((256 * (u8 (ms / 256)).toNat + (u8 ms).toNat : ℕ) : ℤ) = ms
    push_cast
    rw [hhi, hlo]; omega
  cases p with
  | fecK => exact congrArg some ((u8_toNat_iff k).mpr hk)
  | fecN => exact congrArg some ((u8_toNat_iff n).mpr hn)
  | fecTimeout => simp only [onWire, getD_request, hbe, true_and]
  | radio r => rfl

/-- `set_fec` keeps what it sends. -/
theorem cacheTrue_setFec (h : Accepted long c qs) (hcmd : Asks qs "set_fec") :
    CacheTrue long c io qs := by
  have hradio := not_asks_both hcmd
  obtain ⟨⟨k, n, ms⟩, hargs⟩ : ∃ a, fecArgs long qs = .ok a := by
    have hok := (h.args.resolve_left hradio).2
    cases hfec : fecArgs long qs with
    | ok a => exact ⟨a, rfl⟩
    | error e => rw [hfec] at hok; cases hok
  obtain ⟨hk, hn, hms, hqk, hqn, hnone⟩ := fecArgs_ok hargs
  have hrun : control long c io qs = setFec long c io qs := control_setFec h hcmd
  simp only [setFec, hargs] at hrun
  constructor
  · intro hack
    rw [hrun]
    refine ⟨request (c.reqId + 1) cmdSetFec [u8 k, u8 n, u8 (ms / 256), u8 ms], rfl, ?_⟩
    intro p v hv
    rw [onWire_setFec _ hk hn hms] at hv
    simp only [if_pos hack]
    cases p with
    | fecK => exact Option.some.inj hv
    | fecN => exact Option.some.inj hv
    | fecTimeout =>
      simp only at hv
      split at hv
      · rename_i hkeep
        exact (if_pos hkeep).trans (Option.some.inj hv)
      · cases hv
    | radio r => cases hv
  · intro hack p hp v hv
    rw [hrun]
    simp only [if_pos hack]
    cases p with
    | fecK => simp only [carried, if_pos hcmd, hqk] at hp; cases hp
    | fecN => simp only [carried, if_pos hcmd, hqn] at hp; cases hp
    | fecTimeout =>
      simp only [carried, if_pos hcmd] at hp
      rw [← Option.some.inj hv]
      exact if_neg (by rw [hnone hp]; simp)
    | radio r =>
      simp only [liveValue, if_neg hradio] at hv
      exact Option.some.inj hv
  · intro hack
    rw [hrun, beforeWrite, if_neg hradio]
    exact if_neg hack

/-! ### set_radio -/

theorem refreshRadio_tunnel (h : 0 < c.tunnel.controlPort) (live : Reply) (nowUs : ℕ) :
    (refreshRadio c live nowUs).1 = decide (answersRadio live) ∧
      (refreshRadio c live nowUs).2.1.tunnel =
        if answersRadio live then c.tunnel.takeRadio live.received nowUs else c.tunnel := by
  unfold refreshRadio
  rw [if_neg (not_le.mpr h)]
  split
  · rename_i hlive
    exact ⟨(decide_eq_true hlive).symm, rfl⟩
  · rename_i hlive
    exact ⟨(decide_eq_false hlive).symm, rfl⟩

/-- The value that goes into the request: what the query carries, else the live one, else the
default. -/
def sentRadio (long : ℕ) (c : Ctl) (io : Io) (qs : Bytes) (r : Radio) : ℤ :=
  ((carried long qs (.radio r)).or (liveValue c.tunnel io qs (.radio r))).getD r.fallback

theorem merged_eq (h : Accepted long c qs) (hcmd : Asks qs "set_radio") (r : Radio) :
    merged long qs (refreshRadio c io.live io.liveUs).1 (refreshRadio c io.live io.liveUs).2.1.tunnel r =
      sentRadio long c io qs r := by
  obtain ⟨hlive, htunnel⟩ := refreshRadio_tunnel h.port io.live io.liveUs
  rw [hlive, htunnel, merged, sentRadio, carried, if_pos hcmd]
  cases qsGetIntOn long qs r.key.toList with
  | some v => rfl
  | none =>
    rw [Option.none_or, Option.getD_none, liveValue, if_pos hcmd]
    by_cases ha : answersRadio io.live
    · simp [ha, TxTunnel.takeRadio]
    · simp only [ha, if_false, decide_false, Bool.false_eq_true, false_or]
      split <;> rfl

/-- What a `set_radio` tells. -/
theorem onWire_setRadio (id : UInt32) (v : Radio → ℤ) (p : Param) :
    onWire (request id cmdSetRadio (Radio.all.map fun r => r.wire (v r))) p = match p with
      | .radio r => some ((r.wire (v r)).toNat : ℤ)
      | _ => none := by
  cases p with
  | fecK => rfl
  | fecN => rfl
  | fecTimeout => rfl
  | radio r => simp only [onWire, getD_request, if_true, byteAt_request, Radio.byteAt_map]

theorem control_radio (h : Accepted long c qs) (hcmd : Asks qs "set_radio") (hack : acked io.reply)
    (r : Radio) : (control long c io qs).ctl.tunnel.param (.radio r) = r.keep (sentRadio long c io qs r) := by
  rw [control_setRadio h hcmd]
  simp only [setRadio, if_pos hack]
  exact congrArg r.keep (merged_eq h hcmd r)

theorem control_fec (h : Accepted long c qs) (hcmd : Asks qs "set_radio") {p : Param}
    (hp : ∀ r, p ≠ .radio r) : (control long c io qs).ctl.tunnel.param p = c.tunnel.param p := by
  have htunnel := (refreshRadio_tunnel h.port io.live io.liveUs).2
  have hsame : (refreshRadio c io.live io.liveUs).2.1.tunnel.param p = c.tunnel.param p := by
    rw [htunnel]
    split
    · cases p with
      | radio r => exact absurd rfl (hp r)
      | _ => rfl
    · rfl
  rw [control_setRadio h hcmd, ← hsame]
  simp only [setRadio]
  split
  · cases p with
    | radio r => exact absurd rfl (hp r)
    | _ => rfl
  · rfl

/-- The request of a `set_radio`. -/
theorem sent_setRadio (h : Accepted long c qs) (hcmd : Asks qs "set_radio") : ∃ id,
    (control long c io qs).sent.getLast? =
      some (request id cmdSetRadio (Radio.all.map fun r => r.wire (sentRadio long c io qs r))) := by
  rw [control_setRadio h hcmd]
  refine ⟨_, List.getLast?_concat.trans (congrArg some (congrArg _ ?_))⟩
  exact List.map_congr_left fun r _ => congrArg r.wire (merged_eq h hcmd r)

/-- `set_radio` keeps what it sends when each number is a byte. -/
theorem cacheTrue_setRadio (h : Accepted long c qs) (hcmd : Asks qs "set_radio") :
    CacheTrue long c io qs ↔ ByteSized long c io qs := by
  obtain ⟨id, hsent⟩ := @sent_setRadio long c io qs h hcmd
  constructor
  · intro htrue _ hack r
    obtain ⟨req, hreq, hwire⟩ := htrue.sent hack
    obtain rfl : request id cmdSetRadio _ = req := Option.some.inj (hsent.symm.trans hreq)
    have hr := hwire (.radio r) _ (onWire_setRadio id _ (.radio r))
    rw [control_radio h hcmd hack] at hr
    refine ⟨fun hflag v hv => ?_, fun hflag hnone v hv => ?_⟩
    · have hbyte := (r.wire_eq_keep_iff _).mp hr.symm hflag
      rwa [sentRadio, Option.mem_def.mp hv, Option.getD_some] at hbyte
    · have hkept := htrue.kept hack (.radio r) hnone v hv
      have hv' : sentRadio long c io qs r = v := by
        rw [sentRadio, hnone, Option.none_or, Option.mem_def.mp hv, Option.getD_some]
      rw [control_radio h hcmd hack, hv'] at hkept
      exact (r.keep_eq_iff v).mp hkept hflag
  · intro hbytes
    refine ⟨fun hack => ⟨_, hsent, fun p v hv => ?_⟩, fun hack p hp v hv => ?_, fun hack => ?_⟩
    · rw [onWire_setRadio] at hv
      cases p with
      | radio r =>
        rw [← Option.some.inj hv, control_radio h hcmd hack]
        refine ((r.wire_eq_keep_iff _).mpr fun hflag => ?_).symm
        rw [sentRadio]
        cases hval : (carried long qs (.radio r)).or (liveValue c.tunnel io qs (.radio r)) with
        | none => exact r.fallback_byte
        | some v => exact (hbytes hcmd hack r).1 hflag v hval
      | _ => cases hv
    · cases p with
      | radio r =>
        have hv' : sentRadio long c io qs r = v := by
          rw [sentRadio, hp, Option.none_or, hv, Option.getD_some]
        rw [control_radio h hcmd hack, hv']
        exact (r.keep_eq_iff v).mpr fun hflag => (hbytes hcmd hack r).2 hflag hp v hv
      | fecK => exact (control_fec h hcmd (by simp)).trans (Option.some.inj hv)
      | fecN => exact (control_fec h hcmd (by simp)).trans (Option.some.inj hv)
      | fecTimeout => exact (control_fec h hcmd (by simp)).trans (Option.some.inj hv)
    · rw [control_setRadio h hcmd, beforeWrite, if_pos hcmd]
      simp only [setRadio, if_neg hack]

end

/-! ## Main theorem -/

/-- After every request that is passed on: the cache is what was sent, what the query does not name
keeps its live value, and a failure changes nothing, exactly when the numbers of an acknowledged
`set_radio` are bytes. -/
theorem cacheTrue_iff {long : ℕ} {c : Ctl} {qs : Bytes} (h : Accepted long c qs) (io : Io) :
    CacheTrue long c io qs ↔ ByteSized long c io qs := by
  rcases h.args with hcmd | ⟨hcmd, -⟩
  · exact cacheTrue_setRadio h hcmd
  · exact iff_of_true (cacheTrue_setFec h hcmd) fun hradio => absurd hradio (not_asks_both hcmd)

/-- A tunnel with a control port. -/
def txCtl : Ctl := { tunnel := { controlPort := 8000 } }

/-- The command is acknowledged; the radio was not asked in time. -/
def ackedIo : Io := { reply := .datagram [0, 0, 0, 0, 0, 0, 0, 0] }

theorem cacheTrue_iff_mcs : CacheTrue 64 txCtl ackedIo "cmd=set_radio&mcs_index=3".toList := by
  refine (cacheTrue_iff ⟨rfl, by decide, Or.inl (by decide)⟩ ackedIo).mpr fun _ _ r => ?_
  cases r <;> decide

/-- A bandwidth of 276 is sent as 20. -/
theorem not_cacheTrue : ¬ ∀ (c : Ctl) (io : Io) (qs : Bytes), Accepted 64 c qs → CacheTrue 64 c io qs := by
  intro h
  have htrue := h txCtl ackedIo "cmd=set_radio&bandwidth=276".toList
    ⟨rfl, by decide, Or.inl (by decide)⟩
  obtain ⟨req, hreq, hwire⟩ := htrue.sent (by decide)
  have hsent : (control 64 txCtl ackedIo "cmd=set_radio&bandwidth=276".toList).sent.getLast? =
      some [2, 0, 0, 0, 2, 0, 0, 0, 20, 1, 0, 1] := by decide
  obtain rfl := Option.some.inj (hsent.symm.trans hreq)
  exact absurd (hwire (.radio .bandwidth) 20 rfl) (by decide)

end Waybeam.Ground.Control
