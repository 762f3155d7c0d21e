/-
# `Waybeam.Telemetry.Derive` — the columns of a record

The logger keeps every datagram as it came and beside it a few columns to plot and filter by:
what it can read of them, and a flag for each one that says whether it could.

    ts_ms seq                     of the record
    rssi_comb rssi_spread         the best antenna, and how far behind it the worst is
    snr_avg  mcs                  the mean; the most frequent, of the first 16 antennas
    pkt_* fec_rec dec_err per     of the packet counts
-/
import Waybeam.Numeric
import Waybeam.Strtod
import Waybeam.Tokens

namespace Waybeam.Telemetry

open Text Tokens

/-- `jdbl`: the whole of a short primitive. -/
def jdbl : List Tok → Option Dbl
  | t :: _ =>
      if t.type = .prim ∧ t.text ≠ [] ∧ t.text.length < 48 then
        match strtod (cstr t.text) with
        | some (v, []) => some v
        | some _ => none
        -- nothing to read, and nothing left behind
        | none => if cstr t.text = [] then some (.fin 0) else none
      else none
  | [] => none

theorem jdbl_prim {t : Tok} (h : t.type = .prim ∧ t.text ≠ [] ∧ t.text.length < 48) {v : Dbl}
    (hread : strtod (cstr t.text) = some (v, [])) (tail : List Tok) :
    jdbl (t :: tail) = some v := by
  rw [jdbl, if_pos h, hread]

/-- `sub_int` -/
def subInt (long : ℕ) (key : String) (obj : List Tok) : Option ℤ :=
  (jfind key.toList obj).bind (jint long)

/-- `sub_avg` -/
def subAvg (key : String) (obj : List Tok) : Option Dbl :=
  (jfind key.toList obj).bind fun s =>
    if s.head?.any (·.type = .obj) then (jfind "avg".toList s).bind jdbl else none

/-- `Derived`; a `has_` flag is that of the option. -/
structure Derived where
  tsMs : ℤ := 0
  seq : Option ℤ := none
  mcs : Option ℤ := none
  rssiComb : Option Dbl := none
  rssiSpread : Option Dbl := none
  snrAvg : Option Dbl := none
  pktAll : Option ℤ := none
  pktUniq : Option ℤ := none
  pktLost : Option ℤ := none
  fecRec : Option ℤ := none
  decErr : Option ℤ := none
  per : Option ℚ := none
  isRxAnt : Bool := false
  deriving DecidableEq

/-! ## Antennas -/

/-- The best and the worst so far. -/
def rssiRange : List Dbl → Option (Dbl × Dbl)
  | [] => none
  | r :: rs =>
      some (rs.foldl (fun (lo, hi) r => (if r.lt lo then r else lo, if hi.lt r then r else hi)) (r, r))

/-- The mean. -/
def snrMean (ss : List Dbl) : Option Dbl :=
  if ss = [] then none else some ((ss.foldl Dbl.add (.fin 0)).divCount ss.length)

/-- The first of the most frequent ones, with how often it is there. -/
def mode : List ℤ → Option ℤ
  | [] => none
  | m :: ms =>
      some ((m :: ms).foldl
        (fun (best, bestN) v => if bestN < (m :: ms).count v then (v, (m :: ms).count v) else (best, bestN))
        (m, 0)).1

/-- The objects of `ant[]`. -/
def antennas (doc : List Tok) : List (List Tok) :=
  match jfind "ant".toList doc with
  | some (t :: ts) =>
      if t.type = .arr then (elements t.size ts).filter fun v => v.head?.any (·.type = .obj) else []
  | _ => []

/-! ## `derive` -/

/-- A sum of `long`s. -/
def wrapLong (long : ℕ) (l : ℤ) : ℤ := Int.bmod l (2 ^ long)

/-- `derive`, on the tokens of a document. -/
def derive (long : ℕ) (doc : List Tok) : Derived :=
  let range := rssiRange ((antennas doc).filterMap (subAvg "rssi"))
  let mcsVals := (((antennas doc).filterMap (subInt long "mcs")).take 16).map i32
  let pkt := (jfind "pkt".toList doc).filter fun v => v.head?.any (·.type = .obj)
  let count (key : String) : Option ℤ := pkt.bind (subInt long key)
  { isRxAnt := ((jfind "type".toList doc).bind (jstr 16)) = some "rx_ant".toList
    tsMs := (subInt long "ts_ms" doc).getD 0
    seq := subInt long "seq" doc
    mcs := mode mcsVals
    rssiComb := range.map (·.2)
    rssiSpread := range.map fun r => r.2.sub r.1
    snrAvg := snrMean ((antennas doc).filterMap (subAvg "snr"))
    pktAll := count "all"
    pktUniq := count "uniq"
    pktLost := count "lost"
    fecRec := count "fec_recovered"
    decErr := count "dec_err"
    per := (count "uniq").bind fun uniq => (count "lost").map fun lost =>
      if 0 < wrapLong long (uniq + lost) then lost / wrapLong long (uniq + lost) else 0 }

/-- `derived_is_empty`: no antenna has reported anything, and no packet is counted. -/
def derivedIsEmpty (d : Derived) : Bool :=
  d.isRxAnt && d.rssiComb.isNone && d.snrAvg.isNone && d.mcs.isNone && d.pktAll.getD 0 = 0 &&
    d.pktUniq.getD 0 = 0 && d.pktLost.getD 0 = 0 && d.fecRec.getD 0 = 0 && d.decErr.getD 0 = 0

end Waybeam.Telemetry
