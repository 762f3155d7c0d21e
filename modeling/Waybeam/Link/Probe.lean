/-
# `Waybeam.Link.Probe` — the probe record from the printer to the scraper

The ground station prints a probe record per bucket; the vehicle takes it off the rx_ant
socket, looks for `"mcs"`, `"accounted"` and `"lost"` and stores them under the MCS.  No value
the ground station prints has a quote in it, so that each key is found where it was printed.

    datagram ──WCMD──▶ command   ──csa_──▶ CSA   ──"type":"probe"──▶ probe   ──▶ rx_ant
-/
import Mathlib.Data.Rat.Floor
import Waybeam.Ground.Probe
import Waybeam.Link.Frame
import Waybeam.Scrape
import Waybeam.Vehicle.Selector

namespace Waybeam.Link

open Text Csa Ground.Probe Vehicle

/-! ## The vehicle's end -/

/-- `json_get_int` of the vehicle; blanks and colons after the quoted key are passed over. -/
def jsonGetInt (long : ℕ) (s key : Bytes) : Option ℤ :=
  (Text.behind ('"' :: (key ++ ['"'])) s).bind fun p =>
    strtol long (p.dropWhile fun c => c = ' ' || c = '\t' || c = ':')

/-- `"type":"probe"` -/
def probeToken : Bytes := "\"type\":\"probe\"".toList

/-- What the probe ingest reads. -/
def probeRec (long : ℕ) (dgram : Bytes) : ProbeRec where
  mcs := jsonGetInt long (cstr dgram) "mcs".toList
  accounted := jsonGetInt long (cstr dgram) "accounted".toList
  lost := jsonGetInt long (cstr dgram) "lost".toList
  tsMs := jsonGetInt long (cstr dgram) "ts_ms".toList

/-- What a datagram on the rx_ant socket is taken for. -/
inductive Datagram where
  | truncated
  | command
  | csa
  | probe (r : ProbeRec)
  | other

/-- The head of a WCMD request: magic, version, message type. -/
def wcmdHead : Bytes := ['W', 'C', 'M', 'D', '\x01', '\x01']

/-- The order in which the rx_ant socket's datagrams are looked at; `csa` is there if CSA is
enabled. -/
def demux (long : ℕ) (csa : Option (CsaState × CsaCfg)) (now : ℤ) (dgram : Bytes) : Datagram :=
  if 2048 ≤ dgram.length then .truncated
  else if 16 ≤ dgram.length ∧ wcmdHead.isPrefixOf dgram then .command
  else if csa.any fun c => (c.1.csaFeed c.2 dgram now).1 then .csa
  else if contains probeToken (cstr dgram) then .probe (probeRec long dgram)
  else .other

/-! ## The printed record -/

variable {r : ProbeRecord} {long : ℕ}

/-- Neither a quote nor the end of a C string. -/
def Clean (s : Bytes) : Prop := ∀ c ∈ s, c ≠ '"' ∧ c ≠ '\x00'

theorem clean_of_digit {c : Char} (h : c.isDigit) : c ≠ '"' ∧ c ≠ '\x00' := by
  constructor
  · rintro rfl
    exact absurd h (by decide)
  · rintro rfl
    exact absurd h (by decide)

theorem clean_decimal (n : ℕ) : Clean (decimal n) :=
  fun _ hc => clean_of_digit (isDigit_of_mem_decimal hc)

theorem clean_signed (l : ℤ) : Clean (signed l) := by
  cases l with
  | ofNat n => exact clean_decimal n
  | negSucc n => exact List.forall_mem_cons.mpr ⟨by decide, clean_decimal (n + 1)⟩

theorem clean_fixed (n a b : ℕ) : Clean (fixed n a b) := by
  intro c hc
  rcases List.mem_append.mp hc with hc | hc
  · exact clean_decimal _ c hc
  · rcases List.mem_cons.mp hc with rfl | hc
    · decide
    · rcases List.mem_append.mp hc with hc | hc
      · rw [List.eq_of_mem_replicate hc]
        decide
      · exact clean_decimal _ c hc

theorem clean_args : ∀ v ∈ r.args, Clean v := by
  have hrssi : Clean (if r.rssi = intMin then "null".toList else signed r.rssi) := by
    split
    · show ∀ c ∈ "null".toList, c ≠ '"' ∧ c ≠ '\x00'
      decide
    · exact clean_signed r.rssi
  simp only [ProbeRecord.args, List.forall_mem_cons]
  exact ⟨clean_decimal _, clean_signed _, clean_decimal _, clean_fixed _ _ _, clean_decimal _,
    clean_decimal _, clean_decimal _, hrssi, clean_fixed _ _ _, fun _ hv => absurd hv List.not_mem_nil⟩

/-- Nothing in the record ends it early. -/
theorem cstr_record : cstr r.text = r.text := by
  have hpieces : ∀ p ∈ probeFormat, '\x00' ∉ p := by decide +kernel
  refine cstr_of_free (notMem_printf ?_ (by decide))
  intro a ha
  obtain ⟨hp, hv⟩ := List.of_mem_zip ha
  exact ⟨hpieces _ hp, fun h0 => (clean_args _ hv _ h0).2 rfl⟩

/-- The n-th key is found where it was printed. -/
theorem behind_text (n : ℕ) {key : Bytes}
    (hpieces : ∀ p ∈ probeFormat.take n, Avoids ('"' :: (key ++ ['"'])) p) :
    Text.behind ('"' :: (key ++ ['"'])) r.text =
      Text.behind ('"' :: (key ++ ['"']))
        (printf ((probeFormat.zip r.args).drop n) "\x7d\n".toList) := by
  have hsplit : r.text = printf ((probeFormat.zip r.args).take n)
      (printf ((probeFormat.zip r.args).drop n) "\x7d\n".toList) := by
    rw [← printf_append, List.take_append_drop]
    rfl
  rw [hsplit]
  refine behind_printf ?_ _
  intro a ha
  rw [List.zip, List.take_zipWith] at ha
  obtain ⟨hp, hv⟩ := List.of_mem_zip ha
  refine ⟨hpieces _ hp, avoids_of_notMem _ ?_⟩
  exact fun hq => (clean_args _ (List.mem_of_mem_take hv) _ hq).1 rfl

/-- A number behind a colon. -/
theorem strtol_integer {l : ℤ} (hlo : -2 ^ (long - 1) ≤ l) (hhi : l < 2 ^ (long - 1)) {c : Char}
    (hc : c.isDigit = false) (rest : Bytes) :
    strtol long ((':' :: (signed l ++ c :: rest)).dropWhile
      fun c => c = ' ' || c = '\t' || c = ':') = some l := by
  have hdrop : (':' :: (signed l ++ c :: rest)).dropWhile
      (fun c => c = ' ' || c = '\t' || c = ':') = signed l ++ c :: rest := by
    have hhead : ∃ d ds, signed l = d :: ds ∧ (d = ' ' || d = '\t' || d = ':') = false := by
      cases l with
      | negSucc n => exact ⟨'-', _, rfl, by decide⟩
      | ofNat n =>
          cases hd : decimal n with
          | nil => exact absurd hd (decimal_ne_nil n)
          | cons d ds =>
              have hdig : d.isDigit := isDigit_of_mem_decimal (hd ▸ List.mem_cons_self)
              refine ⟨d, ds, hd, ?_⟩
              rw [Bool.eq_false_iff]
              intro hs
              simp only [Bool.or_eq_true, decide_eq_true_eq] at hs
              rcases hs with (rfl | rfl) | rfl <;> exact absurd hdig (by decide)
    obtain ⟨d, ds, hd, hsep⟩ := hhead
    rw [hd]
    simp [hsep]
  rw [hdrop, strtol, readInt_signed l (ends_cons hc), Option.map_some, clampLong_of_lt hlo hhi]

theorem strtol_field {n : ℕ} (hn : n < 2 ^ (long - 1)) {c : Char} (hc : c.isDigit = false)
    (rest : Bytes) :
    strtol long ((':' :: (decimal n ++ c :: rest)).dropWhile
      fun c => c = ' ' || c = '\t' || c = ':') = some (n : ℤ) := by
  have hhi : (n : ℤ) < 2 ^ (long - 1) := by exact_mod_cast hn
  have hlo : -2 ^ (long - 1) ≤ (n : ℤ) :=
    (Int.neg_nonpos_of_nonneg (by positivity)).trans (Int.natCast_nonneg n)
  exact strtol_integer hlo hhi hc rest

theorem probeRec_text (hrecv : r.accounted.toNat < 2 ^ (long - 1))
    (hlost : r.lost.toNat < 2 ^ (long - 1)) (hmcs : (r.mcs : ℕ) < 2 ^ (long - 1)) :
    (probeRec long r.text).mcs = some (r.mcs : ℤ) ∧
      (probeRec long r.text).accounted = some (r.accounted.toNat : ℤ) ∧
      (probeRec long r.text).lost = some (r.lost.toNat : ℤ) := by
  simp only [probeRec, jsonGetInt, cstr_record]
  refine ⟨?_, ?_, ?_⟩
  · rw [behind_text 2 (by decide)]
    exact strtol_field hmcs (by decide) _
  · rw [behind_text 6 (by decide)]
    exact strtol_field hrecv (by decide) _
  · rw [behind_text 5 (by decide)]
    exact strtol_field hlost (by decide) _

/-- A record goes past the other readers of the socket. -/
theorem demux_text (csa : Option (CsaState × CsaCfg)) (now : ℤ) (hlen : r.text.length < 256) :
    demux long csa now r.text = .probe (probeRec long r.text) := by
  have hshort : ¬2048 ≤ r.text.length := by omega
  have hcommand : wcmdHead.isPrefixOf r.text = false := rfl
  have htype : getStr r.text "type".toList 31 = some "probe".toList := rfl
  have hcsa : (csa.any fun c => (c.1.csaFeed c.2 r.text now).1) = false := by
    cases csa with
    | none => rfl
    | some c =>
        rw [Option.any_some, CsaState.csaFeed, cstr_record, htype]
        rfl
  have htoken : contains probeToken (cstr r.text) = true := by
    rw [cstr_record]
    rfl
  rw [demux, if_neg hshort, hcommand, hcsa, htoken]
  simp

/-! ## Per mille -/

/-- The vehicle's integer quotient is the quotient rounded half up. -/
theorem perMilli_eq (lost accounted : ℕ) (hacc : 0 < accounted) :
    ((lost : ℤ) * 1000 + (accounted : ℤ).tdiv 2).tdiv accounted
      = ⌊(lost * 1000 / accounted + 1 / 2 : ℚ)⌋ := by
  have hnat : ((lost : ℤ) * 1000 + (accounted : ℤ).tdiv 2).tdiv accounted
      = ((2 * (lost * 1000) + accounted) / (2 * accounted) : ℕ) := by
    have hhalf : (2 * (lost * 1000) + accounted) / (2 * accounted)
        = (lost * 1000 + accounted / 2) / accounted := by
      rw [← Nat.div_div_eq_div_mul, Nat.mul_add_div Nat.two_pos]
    have hinner : (accounted : ℤ).tdiv 2 = (accounted : ℤ) / 2 :=
      Int.tdiv_eq_ediv_of_nonneg (Int.natCast_nonneg accounted)
    rw [hhalf, hinner, Int.tdiv_eq_ediv_of_nonneg (by omega)]
    push_cast
    rfl
  have hq : (lost * 1000 / accounted + 1 / 2 : ℚ)
      = ((2 * (lost * 1000) + accounted : ℕ) : ℚ) / ((2 * accounted : ℕ) : ℚ) := by
    have hne : (accounted : ℚ) ≠ 0 := by exact_mod_cast hacc.ne'
    push_cast
    field_simp
  rw [hnat, hq]
  exact (Rat.floor_natCast_div_natCast _ _).symm

theorem perMilli_range {lost accounted : ℕ} (hle : lost ≤ accounted) (hacc : 0 < accounted) :
    0 ≤ ⌊(lost * 1000 / accounted + 1 / 2 : ℚ)⌋ ∧ ⌊(lost * 1000 / accounted + 1 / 2 : ℚ)⌋ ≤ 1000 := by
  have hacc' : (0 : ℚ) < accounted := by exact_mod_cast hacc
  have hle' : (lost : ℚ) ≤ accounted := by exact_mod_cast hle
  constructor
  · rw [Int.floor_nonneg]
    positivity
  · have hq : (lost * 1000 / accounted : ℚ) ≤ 1000 := by
      rw [div_le_iff₀ hacc']
      linarith
    have hlt : ⌊(lost * 1000 / accounted + 1 / 2 : ℚ)⌋ < 1001 := by
      rw [Int.floor_lt]
      push_cast
      linarith
    omega

/-! ## The round trip -/

/-- What a flush sends is the record of a bucket, and fits the printer's buffer. -/
theorem of_sent {t : Producer} {now tsMs w : ℕ} {recs : List (ProbeRecord × Bool)}
    {left : Fin 16 → Bucket} (hflush : .flushed w recs left ∈ (t.probeWindowFlush now tsMs).2)
    (hsent : (r, true) ∈ recs) :
    t.probeRecord now tsMs r.mcs = some r ∧ r.text.length < 256 := by
  rw [Producer.probeWindowFlush] at hflush
  obtain ⟨-, rfl, -⟩ := Ground.Probe.Obs.flushed.inj (List.mem_singleton.mp hflush)
  obtain ⟨q, hq, heq⟩ := List.mem_map.mp hsent
  obtain ⟨rfl, hb⟩ := Prod.mk.inj heq
  obtain ⟨m, -, hm⟩ := List.mem_filterMap.mp hq
  have hmcs : q.mcs = m := by
    obtain ⟨-, h⟩ := Option.ite_none_left_eq_some.mp hm
    exact congrArg ProbeRecord.mcs (Option.some.inj h).symm
  rw [Bool.and_eq_true, decide_eq_true_eq] at hb
  exact ⟨hmcs ▸ hm, hb.1⟩

/-- What the ground station reports of a bucket is what the vehicle stores: the MCS, the lost and
the accounted count, and their quotient in per mille, rounded half up. -/
theorem probe_round_trip (hlong : 32 ≤ long) {t : Producer} {now tsMs w : ℕ}
    {recs : List (ProbeRecord × Bool)} {left : Fin 16 → Bucket}
    (hflush : .flushed w recs left ∈ (t.probeWindowFlush now tsMs).2) (hsent : (r, true) ∈ recs)
    (huniq : (t.probeBucket r.mcs).uniq.toNat < 2 ^ 21)
    (hlost : (t.probeBucket r.mcs).lost.toNat < 2 ^ 21)
    (csa : Option (CsaState × CsaCfg)) (ms : ℤ) (p : ProbeState) (us : ℕ) :
    let lost := (t.probeBucket r.mcs).lost.toNat
    let accounted := (t.probeBucket r.mcs).uniq.toNat + lost
    demux long csa ms r.text = .probe (probeRec long r.text) ∧
      (let rung := (p.ingest (probeRec long r.text) us).rung r.mcs
       rung.valid ∧ rung.lastUs = us ∧ rung.lost = lost ∧ rung.accounted = accounted ∧
        rung.perMilli = ⌊(lost * 1000 / accounted + 1 / 2 : ℚ)⌋ ∧
        0 ≤ rung.perMilli ∧ rung.perMilli ≤ 1000) ∧
      ∀ m ≠ (r.mcs : ℤ), (p.ingest (probeRec long r.text) us).rung m = p.rung m := by
  intro lost accounted
  obtain ⟨hr, hlen⟩ := of_sent hflush hsent
  obtain ⟨hne, hr⟩ := Option.ite_none_left_eq_some.mp hr
  have hrlost : r.lost.toNat = lost := congrArg (fun r => r.lost.toNat) (Option.some.inj hr).symm
  have hsum : ((t.probeBucket r.mcs).uniq + (t.probeBucket r.mcs).lost).toNat = accounted := by
    rw [UInt32.toNat_add, Nat.mod_eq_of_lt (by omega)]
  have hracc : r.accounted.toNat = accounted :=
    (congrArg (fun r => r.accounted.toNat) (Option.some.inj hr).symm).trans hsum
  have hpos : 0 < accounted := by
    refine Nat.pos_of_ne_zero ?_
    intro h0
    exact hne (UInt32.toNat_inj.mp (hsum.trans h0))
  have hroom : 2 ^ 31 ≤ 2 ^ (long - 1) := Nat.pow_le_pow_right Nat.two_pos (by omega)
  have hmcs : (r.mcs : ℕ) < 16 := r.mcs.isLt
  obtain ⟨hm, ha, hl⟩ : (probeRec long r.text).mcs = some (r.mcs : ℤ) ∧
      (probeRec long r.text).accounted = some (r.accounted.toNat : ℤ) ∧
      (probeRec long r.text).lost = some (r.lost.toNat : ℤ) :=
    probeRec_text (by omega) (by omega) (by omega)
  have hin : 0 ≤ (r.mcs : ℤ) ∧ (r.mcs : ℤ) < probeMcsMax := by
    constructor
    · exact Int.natCast_nonneg _
    · show (r.mcs : ℤ) < 16
      omega
  have hrange : 0 ≤ ⌊(lost * 1000 / accounted + 1 / 2 : ℚ)⌋ ∧
      ⌊(lost * 1000 / accounted + 1 / 2 : ℚ)⌋ ≤ 1000 :=
    perMilli_range (Nat.le_add_left lost _) hpos
  have hmilli : i32 (((lost : ℤ) * 1000 + (accounted : ℤ).tdiv 2).tdiv accounted)
      = ⌊(lost * 1000 / accounted + 1 / 2 : ℚ)⌋ := by
    rw [perMilli_eq lost accounted hpos]
    exact Int.bmod_eq_of_le (by omega) (by omega)
  refine ⟨demux_text csa ms hlen, ?_, ?_⟩
  · simp only [ProbeState.ingest, hm, ha, hl, Option.getD_some, if_pos hin, Function.update_self,
      hracc, hrlost, if_pos (show (0 : ℤ) < accounted by omega), hmilli]
    exact ⟨trivial, trivial, trivial, trivial, trivial, hrange⟩
  · intro m hne
    simp only [ProbeState.ingest, hm, Option.getD_some, if_pos hin, Function.update_of_ne hne]

/-- 2 of 20 packets lost at MCS 7: a rate of 100 per mille. -/
theorem probe_round_trip_seven :
    let r : ProbeRecord := ⟨7, 50, 7, 18, 2, 20, -55, 500000⟩
    ((ProbeState.ingest {} (probeRec 32 r.text) 9).rung 7).perMilli = ⌊(2 * 1000 / 20 + 1 / 2 : ℚ)⌋ := by
  intro r
  let t : Producer := { radioPort := 50, probeBucket := fun m => if m = 7 then ⟨18, 2, -55⟩ else {} }
  have hflush : Ground.Probe.Obs.flushed 500000 [(r, true)] (fun _ => { rssi := intMin })
      ∈ (t.probeWindowFlush 500000 7).2 := by
    have hrecs : (List.finRange 16).filterMap (t.probeRecord 500000 7) = [r] := by rfl
    rw [Producer.probeWindowFlush, hrecs]
    refine List.mem_singleton.mpr ?_
    have hlen : decide (r.text.length < 256) = true := by decide +kernel
    simp only [List.map_cons, List.map_nil, hlen]
    rfl
  exact (probe_round_trip (Nat.le_refl 32) hflush List.mem_cons_self (by decide) (by decide) none 0
    {} 9).2.1.2.2.2.2.1

end Waybeam.Link
