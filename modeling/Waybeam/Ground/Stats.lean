/-
# `Waybeam.Ground.Stats` — what the supervisor takes from a stats datagram

Each tunnel has a socket that its wfb_rx or wfb_tx reports to.  A datagram is not parsed: the
keys are looked for in its bytes, inside the slice of an object where there is one.

    "pkt":{..}     the counts of the interval      the tunnel's snapshot; `uniq` for a scan
    "ant":[{..}]   one entry per freq, mcs, bw, id RSSI, the MCS histogram, the antennas
    "tx":{..}      what wfb_tx counts              the tunnel's snapshot
    "radio":{..}   its radio settings              the radio cache

Before that the datagram goes to `stats_out` and to the tap as it is; a probe tunnel sends
its probe records there instead.
-/
import Mathlib.Algebra.BigOperators.Group.List.Basic
import Mathlib.Data.UInt
import Waybeam.Ground.Probe
import Waybeam.Ground.State
import Waybeam.Numeric
import Waybeam.Scrape

namespace Waybeam.Ground.Stats

open Text

/-! ## Picking fields -/

/-- What a value that follows its key is good for: `none` to look further, `some none` to give up. -/
abbrev Reading (α : Type) := Option (Option α)

/-- The loop the pickers share: find the quoted key, pass over blanks and colons, and read what
follows.  The search ends where no more than `room` characters are left behind the key. -/
def pick {α : Type} (room : ℕ) (key : Bytes) (read : Bytes → Reading α) : Bytes → Option α
  | [] => none
  | c :: s =>
      if key.length + room < (c :: s).length then
        if ('"' :: (key ++ ['"'])).isPrefixOf (c :: s) then
          match read (((c :: s).drop (key.length + 2)).dropWhile fun c => c = ' ' || c = ':') with
          | some r => r
          | none => pick room key read s
        else pick room key read s
      else none

/-- The digits at the start. -/
def digits (s : Bytes) : Option ℕ := (magnitude s).map (·.1)

/-- A number that is not negative; one that is too long ends the search. -/
def readU32 : Bytes → Reading UInt32
  | '-' :: _ => some none
  | s => (digits s).map fun n => if 2 ^ 32 ≤ n then none else some (UInt32.ofNat n)

/-- A number with a sign, of which an `int32_t` keeps the low bits. -/
def readI32 : Bytes → Reading ℤ
  | '-' :: s => (digits s).map fun n : ℕ => some (i32 (-n))
  | s => (digits s).map fun n : ℕ => some (i32 n)

/-- A string, cut off at the buffer's end. -/
def readStr (size : ℕ) : Bytes → Reading Bytes
  | '"' :: s => some (some ((s.takeWhile (· ≠ '"')).take (size - 1)))
  | _ => none

/-- `json_pick_u32` -/
def jsonPickU32 (js key : Bytes) : Option UInt32 := pick 2 key readU32 js

/-- `json_pick_i32` -/
def jsonPickI32 (js key : Bytes) : Option ℤ := pick 2 key readI32 js

/-- `json_pick_str` -/
def jsonPickStr (size : ℕ) (js key : Bytes) : Option Bytes := pick 2 key (readStr size) js

/-- Up to the bracket that closes what is open; the other kind of bracket is not looked at. -/
def toClose (opening closing : Char) : ℕ → Bytes → Option Bytes
  | _, [] => none
  | depth, c :: s =>
      let depth := if c = opening then depth + 1 else if c = closing then depth - 1 else depth
      if depth = 0 then some [c] else (toClose opening closing depth s).map (c :: ·)

/-- An object or a list; anything else ends the search. -/
def readObject : Bytes → Reading Bytes
  | [] => none
  | '\x7b' :: s => some (toClose '\x7b' '\x7d' 0 ('\x7b' :: s))
  | '[' :: s => some (toClose '[' ']' 0 ('[' :: s))
  | _ => some none

/-- `json_slice_object` -/
def jsonSliceObject (js key : Bytes) : Option Bytes := pick 3 key readObject js

/-! ## Antennas -/

/-- What is read of an entry of the antenna list. -/
structure Ant where
  rssiAvg : Option ℤ
  mcs : Option ℤ
  pkts : Option ℤ
  id : Option Bytes
  deriving DecidableEq

/-- The objects of a list, by counting braces; `o` is what was read since the last one opened. -/
def objects : ℤ → Bytes → Bytes → List Bytes
  | _, _, [] => []
  | depth, o, c :: s =>
      if c = '\x7b' then objects (depth + 1) (if depth = 0 then [c] else o ++ [c]) s
      else if c = '\x7d' then
        if depth = 1 then (o ++ [c]) :: objects 0 (o ++ [c]) s else objects (depth - 1) (o ++ [c]) s
      else objects depth (o ++ [c]) s

def readAnt (o : Bytes) : Ant where
  rssiAvg := (jsonSliceObject o "rssi".toList).bind fun rssi => jsonPickI32 rssi "avg".toList
  mcs := jsonPickI32 o "mcs".toList
  pkts := jsonPickI32 o "pkts".toList
  id := (jsonPickStr 24 o "id".toList).map cstr

/-- The walk over the antenna list. -/
def readAnts (buf : Bytes) : List Ant :=
  match jsonSliceObject buf "ant".toList with
  | some ant => (objects 0 [] ant).map readAnt
  | none => []

/-- `best_rssi` -/
def bestRssi (ants : List Ant) : ℤ :=
  (ants.filterMap Ant.rssiAvg).foldl (fun best avg => if best < avg then avg else best) Probe.intMin

/-- `rec_mcs`: the last entry that has one. -/
def recMcs (ants : List Ant) : ℤ := (ants.filterMap Ant.mcs).getLastD (-1)

/-- `mcs_hist`: the packets of each MCS. -/
def mcsHist (ants : List Ant) (m : Fin 16) : UInt32 :=
  (ants.map fun a =>
    if a.mcs = some (m : ℤ) then
      match a.pkts with
      | some ap => if 0 < ap then UInt32.ofNat ap.toNat else 0
      | none => 0
    else 0).sum

/-- `seen_ids`: the distinct ones, as far as there is room. -/
def seenIds (ants : List Ant) : List Bytes :=
  (ants.filterMap Ant.id).foldl
    (fun seen id => if id ∈ seen ∨ 16 ≤ seen.length then seen else seen ++ [id]) []

/-- The antennas, or the entries where none says which antenna it is. -/
def antCount (ants : List Ant) : ℕ :=
  if seenIds ants = [] then ants.length else (seenIds ants).length

/-! ## The state -/

/-- `ScanPhase` -/
inductive ScanPhase where
  | idle
  | running
  | found
  | stopped
  deriving DecidableEq, Repr

/-- A channel and how wide it is. -/
structure ScanStep where
  chan : ℤ
  ht : Bytes
  deriving DecidableEq, Repr

/-- `ScanState` -/
structure ScanState where
  phase : ScanPhase := .idle
  sess : UInt32 := 0
  ifaces : List Bytes := []
  steps : List ScanStep := []
  curStep : ℕ := 0
  stepStartedUs : ℕ := 0
  stepDwellUs : ℕ := 0
  /-- `-1` is `none` -/
  baselineRxIdx : Option ℕ := none
  stepSawTraffic : Bool := false
  /-- `-1` and an empty HT are `none` -/
  found : Option ScanStep := none
  hopsDone : ℕ := 0

/-- The counters of wfb_tx. -/
structure TxStats where
  stTxPktsIn : UInt32 := 0
  stTxPktsOut : UInt32 := 0
  stTxBytesIn : UInt32 := 0
  stTxBytesOut : UInt32 := 0
  stTxDrop : UInt32 := 0
  stTxTrunc : UInt32 := 0
  stTxFecTimeouts : UInt32 := 0
  fecK : ℤ := 0
  fecN : ℤ := 0
  fecCacheHave : Bool := false

/-- The radio settings of wfb_tx, as last heard. -/
structure RadioCache where
  mcsIndex : ℤ := 0
  bandwidthMhz : ℤ := 0
  shortGi : ℤ := 0
  stbc : ℤ := 0
  ldpc : ℤ := 0
  vhtMode : ℤ := 0
  vhtNss : ℤ := 0
  radioCacheHave : Bool := false
  radioCacheUs : ℕ := 0

/-- A tunnel as its stats socket sees it. -/
structure Listener where
  role : Role
  probe : Bool
  statsTapActive : Bool := false
  /-- the buckets of a probe tunnel, and whether there is a `stats_out` -/
  producer : Probe.Producer
  stFirstUs : ℕ := 0
  stLastUs : ℕ := 0
  stIntervalMs : UInt32 := 0
  stMsgCount : UInt32 := 0
  stPktAll : UInt32 := 0
  stPktLost : UInt32 := 0
  stPktFec : UInt32 := 0
  stPktOutgoing : UInt32 := 0
  stPktDecErr : UInt32 := 0
  stPktBytes : UInt32 := 0
  stPktUniq : UInt32 := 0
  stAntCount : ℕ := 0
  stRssiBest : ℤ := 0
  /-- ten slots of a second each -/
  stMcsWin : Fin 10 → Fin 16 → UInt32 := fun _ _ => 0
  stMcsWinSec : Fin 10 → ℕ := fun _ => 0
  tx : TxStats := {}
  radio : RadioCache := {}

/-- What leaves through the stats socket. -/
inductive Sent where
  /-- a datagram as it came, to `stats_out` -/
  | fwd (dgram : Bytes)
  /-- a datagram as it came, to the tap -/
  | tap (dgram : Bytes)
  | probe (o : Probe.Obs)

/-! ## Draining -/

/-- `uniq` and `lost` of a record. -/
def recCount (buf : Bytes) (key : Bytes) : UInt32 :=
  ((jsonSliceObject buf "pkt".toList).bind fun pkt => jsonPickU32 pkt key).getD 0

/-- Packets in an interval of the dwell, the first 200 ms of it apart. -/
def ScanState.sample (g : ScanState) (role : Role) (uniq : UInt32) (now : ℕ) : ScanState :=
  if uniq ≠ 0 ∧ g.phase = .running ∧ role = .rx ∧ g.stepStartedUs + 200000 ≤ now then
    { g with stepSawTraffic := true }
  else g

/-- What goes into the buckets of a probe tunnel. -/
def probeSample (buf : Bytes) : Probe.Sample :=
  let ants := readAnts buf
  { uniq := recCount buf "uniq".toList
    lost := recCount buf "lost".toList
    mcs := recMcs ants
    rssi := bestRssi ants }

def isRxAnt (buf : Bytes) : Bool := contains "\"type\":\"rx_ant\"".toList (cstr buf)

def isTxStats (buf : Bytes) : Bool := contains "\"type\":\"tx_stats\"".toList (cstr buf)

namespace Listener

variable (t : Listener)

/-- The counts of a record; those it does not have stay. -/
def takePkt (pkt : Bytes) : Listener :=
  { t with
    stPktAll := (jsonPickU32 pkt "all".toList).getD t.stPktAll
    stPktLost := (jsonPickU32 pkt "lost".toList).getD t.stPktLost
    stPktFec := (jsonPickU32 pkt "fec_recovered".toList).getD t.stPktFec
    stPktOutgoing := (jsonPickU32 pkt "outgoing".toList).getD t.stPktOutgoing
    stPktDecErr := (jsonPickU32 pkt "dec_err".toList).getD t.stPktDecErr
    stPktBytes := (jsonPickU32 pkt "outgoing_bytes".toList).getD t.stPktBytes
    stPktUniq := (jsonPickU32 pkt "uniq".toList).getD t.stPktUniq }

/-- The antennas of a record, and their packets into the slot of the second. -/
def takeAnts (ants : List Ant) (now : ℕ) : Listener :=
  let nsec := now / 1000000
  let wslot : Fin 10 := Fin.ofNat 10 nsec
  let kept := if t.stMcsWinSec wslot ≠ nsec then fun _ => 0 else t.stMcsWin wslot
  { t with
    stAntCount := antCount ants
    stRssiBest := if bestRssi ants ≠ Probe.intMin then bestRssi ants else t.stRssiBest
    stMcsWinSec := Function.update t.stMcsWinSec wslot nsec
    stMcsWin := Function.update t.stMcsWin wslot fun m => kept m + mcsHist ants m }

/-- An `rx_ant` record. -/
def takeRxAnt (buf : Bytes) (now tsMs : ℕ) : Listener × List Sent :=
  let t := match jsonSliceObject buf "pkt".toList with
    | some pkt => t.takePkt pkt
    | none => t
  let t := t.takeAnts (readAnts buf) now
  if t.probe then
    let (producer, os) := t.producer.probeAccumulate (probeSample buf) now tsMs
    ({ t with producer }, os.map .probe)
  else (t, [])

/-- A `tx_stats` record. -/
def takeTxStats (buf : Bytes) (now : ℕ) : Listener :=
  let t := match jsonSliceObject buf "tx".toList with
    | none => t
    | some txb =>
        let k := jsonPickI32 txb "fec_k".toList
        let n := jsonPickI32 txb "fec_n".toList
        { t with
          tx := {
            stTxPktsIn := (jsonPickU32 txb "pkts_in".toList).getD t.tx.stTxPktsIn
            stTxPktsOut := (jsonPickU32 txb "pkts_out".toList).getD t.tx.stTxPktsOut
            stTxBytesIn := (jsonPickU32 txb "bytes_in".toList).getD t.tx.stTxBytesIn
            stTxBytesOut := (jsonPickU32 txb "bytes_out".toList).getD t.tx.stTxBytesOut
            stTxDrop := (jsonPickU32 txb "pkts_drop".toList).getD t.tx.stTxDrop
            stTxTrunc := (jsonPickU32 txb "pkts_trunc".toList).getD t.tx.stTxTrunc
            stTxFecTimeouts := (jsonPickU32 txb "fec_timeouts".toList).getD t.tx.stTxFecTimeouts
            fecK := k.getD t.tx.fecK
            fecN := n.getD t.tx.fecN
            fecCacheHave := t.tx.fecCacheHave || k.isSome || n.isSome } }
  match jsonSliceObject buf "radio".toList with
  | none => t
  | some rb =>
      { t with
        radio := {
          mcsIndex := (jsonPickI32 rb "mcs".toList).getD t.radio.mcsIndex
          bandwidthMhz := (jsonPickI32 rb "bw".toList).getD t.radio.bandwidthMhz
          shortGi := (jsonPickI32 rb "short_gi".toList).getD t.radio.shortGi
          stbc := (jsonPickI32 rb "stbc".toList).getD t.radio.stbc
          ldpc := (jsonPickI32 rb "ldpc".toList).getD t.radio.ldpc
          vhtMode := (jsonPickI32 rb "vht_mode".toList).getD t.radio.vhtMode
          vhtNss := (jsonPickI32 rb "vht_nss".toList).getD t.radio.vhtNss
          radioCacheHave := true
          radioCacheUs := now } }

/-- The copies that leave before the datagram is looked at. -/
def forward (buf : Bytes) : List Sent :=
  (if t.producer.statsFwdActive && !t.probe then [.fwd buf] else []) ++
    if t.statsTapActive && !t.probe then [.tap buf] else []

/-- A record, once it is known to be one. -/
def takeRecord (g : ScanState) (buf : Bytes) (now tsMs : ℕ) : (Listener × ScanState) × List Sent :=
  let r := if isRxAnt buf then t.takeRxAnt buf now tsMs else (t, [])
  let g := if isRxAnt buf then g.sample t.role (recCount buf "uniq".toList) now else g
  let t := if isTxStats buf then r.1.takeTxStats buf now else r.1
  (({ t with
      stFirstUs := if t.stMsgCount = 0 then now else t.stFirstUs
      stLastUs := now
      stMsgCount := t.stMsgCount + 1 }, g), r.2)

/-- One turn of `stats_drain`: a datagram is received into 4095 bytes. -/
def takeDatagram (g : ScanState) (dgram : Bytes) (now tsMs : ℕ) :
    (Listener × ScanState) × List Sent :=
  let buf := dgram.take 4095
  if buf = [] then ((t, g), [])
  else
    let t' := { t with stIntervalMs := (jsonPickU32 buf "interval_ms".toList).getD t.stIntervalMs }
    andThen ((t', g), t.forward buf) fun s =>
      if isRxAnt buf || isTxStats buf then s.1.takeRecord s.2 buf now tsMs else (s, [])

/-! ## What is sent -/

variable {g : ScanState} {buf dgram : Bytes} {now tsMs : ℕ}

/-- Of an `rx_ant` record only the buckets of a probe tunnel make anything. -/
theorem takeRxAnt_sent : (t.takeRxAnt buf now tsMs).2 =
    if t.probe then (t.producer.probeAccumulate (probeSample buf) now tsMs).2.map .probe else [] := by
  unfold takeRxAnt
  split
  · show (if t.probe then _ else _ : Listener × List Sent).2 = _
    split
    · rfl
    · rfl
  · show (if t.probe then _ else _ : Listener × List Sent).2 = _
    split
    · rfl
    · rfl

theorem takeRecord_sent : (t.takeRecord g buf now tsMs).2 =
    if isRxAnt buf then (t.takeRxAnt buf now tsMs).2 else [] := by
  show (if isRxAnt buf then _ else _ : Listener × List Sent).2 = _
  split
  · rfl
  · rfl

/-- A datagram goes out as it is, then what the buckets make of it. -/
theorem takeDatagram_sent (hne : dgram.take 4095 ≠ []) :
    (t.takeDatagram g dgram now tsMs).2 = t.forward (dgram.take 4095) ++
      if isRxAnt (dgram.take 4095) && t.probe then
        (t.producer.probeAccumulate (probeSample (dgram.take 4095)) now tsMs).2.map .probe
      else [] := by
  rw [takeDatagram]
  simp only [if_neg hne, andThen]
  congr 1
  by_cases hrx : isRxAnt (dgram.take 4095)
  · rw [hrx, Bool.true_or, if_pos rfl, takeRecord_sent, if_pos hrx, takeRxAnt_sent, Bool.true_and]
  · have hquiet : ¬(isRxAnt (dgram.take 4095) && t.probe) = true := by simp [hrx]
    rw [if_neg hquiet]
    split
    · exact (takeRecord_sent _).trans (if_neg hrx)
    · rfl

/-- To a scan a datagram is its `uniq` if it is an rx_ant record, and nothing otherwise. -/
theorem takeDatagram_scan : (t.takeDatagram g dgram now tsMs).1.2 =
    if isRxAnt (dgram.take 4095) then
      g.sample t.role (recCount (dgram.take 4095) "uniq".toList) now
    else g := by
  by_cases hempty : dgram.take 4095 = []
  · have hquiet : ¬isRxAnt [] = true := by decide
    simp only [takeDatagram, hempty, if_pos, if_neg hquiet]
  · simp only [takeDatagram, if_neg hempty, andThen]
    by_cases hrx : isRxAnt (dgram.take 4095)
    · rw [hrx, Bool.true_or, if_pos rfl, if_pos rfl]
      simp only [takeRecord, hrx, if_pos]
    · rw [if_neg hrx]
      split
      · simp only [takeRecord, if_neg hrx]
      · rfl

end Listener

end Waybeam.Ground.Stats
