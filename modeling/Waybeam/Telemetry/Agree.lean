/-
# `Waybeam.Telemetry.Agree` — two derivations of the columns

The logger and the store have a record of wfb_rx each, the one as tokens and the other as a
dictionary.  Both find the same values in it; then

    whole numbers        a `long` has to have room for them
    levels, the mean     the same
    the MCS              the logger takes the first of the most frequent, of 16 antennas
                         the store takes the least of the most frequent, of all

and the logger has room for the tokens of 26 antennas.
-/
import Waybeam.Ground.Record
import Waybeam.Loads
import Waybeam.Telemetry.Capture
import Waybeam.Telemetry.Columns

namespace Waybeam.Telemetry

open Text Tokens Doc
open Ground.Stats (RxAnt AntEntry Level)

/-- The levels of wfb_rx are of type `int`. -/
def IntLevels (r : RxAnt) : Prop :=
  ∀ e ∈ r.ant, (-2 ^ 31 ≤ e.rssi.avg ∧ e.rssi.avg < 2 ^ 31) ∧ (-2 ^ 31 ≤ e.snr.avg ∧ e.snr.avg < 2 ^ 31)

/-! ## The logger's reading -/

section Logger

variable {long : ℕ} {ms : List (Bytes × Doc)} {key : String}

theorem length_decimal {n : ℕ} (h : n < 2 ^ 64) : (decimal n).length ≤ 20 :=
  (Nat.length_toDigits_le_iff (by decide) (by decide)).mpr (h.trans (by decide))

theorem cstr_decimal (n : ℕ) : cstr (decimal n) = decimal n :=
  cstr_of_free (Ground.Stats.nul_notMem_plain (Ground.Stats.plainText_decimal n))

theorem jint_decimal {n : ℕ} (h : n < 2 ^ 64) (tail : List Tok) :
    jint long (toks (.prim (decimal n)) ++ tail) = some (clampLong long n) := by
  have hlen := length_decimal h
  have hread : readInt (decimal n ++ []) = some ((n : ℤ), []) := readInt_decimal n (by intro c hc; cases hc)
  rw [List.append_nil] at hread
  exact jint_prim ⟨rfl, decimal_ne_nil n, by show (decimal n).length < 32; omega⟩
    (by rw [cstr_decimal, hread]) tail

theorem length_signed {l : ℤ} (h : -2 ^ 31 ≤ l ∧ l < 2 ^ 31) : (signed l).length ≤ 21 := by
  cases l with
  | ofNat n =>
      rw [Int.ofNat_eq_natCast] at h
      exact (length_decimal (show n < 2 ^ 64 by omega)).trans (by decide)
  | negSucc n => exact Nat.succ_le_succ (length_decimal (show n + 1 < 2 ^ 64 by omega))

theorem jdbl_signed {l : ℤ} (h : -2 ^ 31 ≤ l ∧ l < 2 ^ 31) (tail : List Tok) :
    jdbl (toks (.prim (signed l)) ++ tail) = some (.fin l) := by
  have hlen := length_signed h
  have hcstr : cstr (signed l) = signed l :=
    cstr_of_free (Ground.Stats.nul_notMem_plain (Ground.Stats.plainText_signed l))
  exact jdbl_prim ⟨rfl, Ground.Stats.signed_ne_nil l, by show (signed l).length < 48; omega⟩
    (by rw [hcstr, strtod_signed]) tail

/-- A level is read as its mean. -/
theorem subAvg_level {l : Level} (h : -2 ^ 31 ≤ l.avg ∧ l.avg < 2 ^ 31)
    (hnodup : (ms.map Prod.fst).Nodup) (hmem : (key.toList, .obj l.members) ∈ ms) (rest : List Tok) :
    subAvg key (toks (.obj ms) ++ rest) = some (.fin l.avg) := by
  have hkeys : (l.members.map Prod.fst).Nodup := by
    show ["min".toList, "avg".toList, "max".toList].Nodup
    decide
  have havg : ("avg".toList, .prim (signed l.avg)) ∈ l.members :=
    List.mem_cons_of_mem _ List.mem_cons_self
  obtain ⟨tail, hfind⟩ := jfind_mem hnodup hmem rest
  obtain ⟨tail', hfind'⟩ := jfind_mem hkeys havg tail
  rw [subAvg, hfind, Option.bind_some]
  show (if true = true then _ else none) = _
  rw [if_pos rfl, hfind', Option.bind_some, jdbl_signed h]

theorem subInt_mem {n : ℕ} (hnodup : (ms.map Prod.fst).Nodup) (hmem : Ground.Stats.unsigned key n ∈ ms) (h : n < 2 ^ 64) (rest : List Tok) :
    subInt long key (toks (.obj ms) ++ rest) = some (clampLong long n) := by
  obtain ⟨tail, hfind⟩ := jfind_mem hnodup hmem rest
  rw [subInt, hfind, Option.bind_some, jint_decimal h]

theorem entry_nodup (e : AntEntry) : (e.members.map Prod.fst).Nodup := by
  show ["freq".toList, "mcs".toList, "bw".toList, "id".toList, "pkts".toList, "rssi".toList,
    "snr".toList].Nodup
  decide

theorem pkt_nodup (r : RxAnt) : (r.pkt.map Prod.fst).Nodup := by
  show ["all".toList, "bytes".toList, "dec_err".toList, "session".toList, "session_plain".toList,
    "data".toList, "uniq".toList, "fec_recovered".toList, "lost".toList, "bad".toList, "outgoing".toList,
    "outgoing_bytes".toList, "diversity".toList, "mode_mismatch".toList, "adapters".toList].Nodup
  decide

theorem record_nodup (r : RxAnt) : (r.members.map Prod.fst).Nodup := by
  show ["ts_ms".toList, "type".toList, "ver".toList, "seq".toList, "interval_ms".toList, "ant".toList,
    "pkt".toList].Nodup
  decide

variable {r : RxAnt}

/-- What is read of the antennas of a record. -/
theorem antennas_filterMap {α : Type} {f : List Tok → Option α} {g : AntEntry → Option α}
    (hf : ∀ e ∈ r.ant, ∀ tail, f (toks (.obj e.members) ++ tail) = g e) (rest : List Tok) :
    (antennas (toks (.obj r.members) ++ rest)).filterMap f = r.ant.filterMap g := by
  have hmem : ("ant".toList, .arr ((r.ant.map AntEntry.members).map Doc.obj)) ∈ r.members := by
    simp [RxAnt.members]
  obtain ⟨tail, hfind⟩ := jfind_mem (record_nodup r) hmem rest
  let isObj (v : List Tok) : Bool := v.head?.any (·.type = .obj)
  let read (v : List Tok) : Option α := if isObj v then f v else none
  have hread : (elements r.ant.length (toksItems (r.ant.map fun e => .obj e.members) ++ tail)).map read =
      r.ant.map g := by
    refine map_elements r.ant ?_ tail
    intro e he tail
    have hobj : isObj (toks (.obj e.members) ++ tail) = true := rfl
    show (if isObj (toks (.obj e.members) ++ tail) then _ else none) = g e
    rw [if_pos hobj, hf e he]
  have hants : antennas (toks (.obj r.members) ++ rest) =
      (elements r.ant.length (toksItems (r.ant.map fun e => .obj e.members) ++ tail)).filter isObj := by
    rw [antennas, hfind, List.map_map]
    show (if true = true then (elements (r.ant.map _).length _).filter _ else []) = _
    rw [if_pos rfl, List.length_map]
    rfl
  calc (antennas (toks (.obj r.members) ++ rest)).filterMap f
      = (elements r.ant.length (toksItems (r.ant.map fun e => .obj e.members) ++ tail)).filterMap read := by
        rw [hants, List.filterMap_filter]
    _ = (r.ant.map g).filterMap id := by rw [← hread, List.filterMap_map, Function.id_comp]
    _ = r.ant.filterMap g := by rw [List.filterMap_map, Function.id_comp]

/-- The MCS of the antennas. -/
def mcsVals (r : RxAnt) : List ℤ := r.ant.map fun e => (e.mcs.toNat : ℤ)

theorem antennas_rssi (hr : IntLevels r) (rest : List Tok) :
    (antennas (toks (.obj r.members) ++ rest)).filterMap (subAvg "rssi") =
      r.ant.map fun e => .fin e.rssi.avg := by
  rw [antennas_filterMap (g := fun e => some (.fin e.rssi.avg)) ?_ rest, List.filterMap_eq_map']
  intro e he tail
  exact subAvg_level (hr e he).1 (entry_nodup e) (by simp [AntEntry.members]) tail

theorem antennas_snr (hr : IntLevels r) (rest : List Tok) :
    (antennas (toks (.obj r.members) ++ rest)).filterMap (subAvg "snr") =
      r.ant.map fun e => .fin e.snr.avg := by
  rw [antennas_filterMap (g := fun e => some (.fin e.snr.avg)) ?_ rest, List.filterMap_eq_map']
  intro e he tail
  exact subAvg_level (hr e he).2 (entry_nodup e) (by simp [AntEntry.members]) tail

theorem antennas_mcs (hlong : 32 ≤ long) (rest : List Tok) :
    (antennas (toks (.obj r.members) ++ rest)).filterMap (subInt long "mcs") = mcsVals r := by
  rw [antennas_filterMap (g := fun e => some (e.mcs.toNat : ℤ)) ?_ rest, List.filterMap_eq_map', mcsVals]
  intro e _ tail
  have hlt := e.mcs.toNat_lt
  have hmem : Ground.Stats.unsigned "mcs" e.mcs.toNat ∈ e.members := by simp [AntEntry.members]
  have hroom : (256 : ℤ) ≤ 2 ^ (long - 1) := by
    calc (256 : ℤ) ≤ 2 ^ 31 := by norm_num
      _ ≤ 2 ^ (long - 1) := pow_le_pow_right₀ (by norm_num) (by omega)
  rw [subInt_mem (entry_nodup e) hmem (by omega) tail, clampLong_of_lt (by omega) (by omega)]

/-- What the logger has of a record. -/
theorem derive_record (hlong : 32 ≤ long) (hr : IntLevels r) (rest : List Tok) :
    derive long (toks (.obj r.members) ++ rest) =
      { isRxAnt := true
        tsMs := clampLong long r.tsMs.toNat
        seq := some (clampLong long r.seq.toNat)
        mcs := mode ((mcsVals r).take 16)
        rssiComb := (rssiRange (r.ant.map fun e => .fin e.rssi.avg)).map (·.2)
        rssiSpread := (rssiRange (r.ant.map fun e => .fin e.rssi.avg)).map fun r => r.2.sub r.1
        snrAvg := snrMean (r.ant.map fun e => .fin e.snr.avg)
        pktAll := some (clampLong long r.all.toNat)
        pktUniq := some (clampLong long r.uniq.toNat)
        pktLost := some (clampLong long r.lost.toNat)
        fecRec := some (clampLong long r.fecRecovered.toNat)
        decErr := some (clampLong long r.decErr.toNat)
        per := some
          (let sum := wrapLong long (clampLong long r.uniq.toNat + clampLong long r.lost.toNat)
           if 0 < sum then clampLong long r.lost.toNat / sum else 0) } := by
  have htype : (jfind "type".toList (toks (.obj r.members) ++ rest)).bind (jstr 16) =
      some "rx_ant".toList := by
    have hmem : Ground.Stats.string "type" "rx_ant".toList ∈ r.members := by simp [RxAnt.members]
    obtain ⟨tail, hfind⟩ := jfind_mem (record_nodup r) hmem rest
    rw [hfind]
    rfl
  have hts : subInt long "ts_ms" (toks (.obj r.members) ++ rest) = some (clampLong long r.tsMs.toNat) :=
    subInt_mem (record_nodup r) (by simp [RxAnt.members]) r.tsMs.toNat_lt rest
  have hseq : subInt long "seq" (toks (.obj r.members) ++ rest) = some (clampLong long r.seq.toNat) :=
    subInt_mem (record_nodup r) (by simp [RxAnt.members]) r.seq.toNat_lt rest
  obtain ⟨tail, hfind⟩ : ∃ tail, jfind "pkt".toList (toks (.obj r.members) ++ rest) =
      some (toks (.obj r.pkt) ++ tail) :=
    jfind_mem (record_nodup r) (by simp [RxAnt.members]) rest
  have hpkt : (jfind "pkt".toList (toks (.obj r.members) ++ rest)).filter
      (fun v => v.head?.any (·.type = .obj)) = some (toks (.obj r.pkt) ++ tail) := by
    rw [hfind]
    rfl
  have hcount : ∀ (key : String) (n : UInt32), Ground.Stats.unsigned key n.toNat ∈ r.pkt →
      subInt long key (toks (.obj r.pkt) ++ tail) = some (clampLong long n.toNat) := by
    intro key n hmem
    have hlt := n.toNat_lt
    exact subInt_mem (pkt_nodup r) hmem (by omega) tail
  have hall := hcount "all" r.all (by simp [RxAnt.pkt])
  have huniq := hcount "uniq" r.uniq (by simp [RxAnt.pkt])
  have hlost := hcount "lost" r.lost (by simp [RxAnt.pkt])
  have hfec := hcount "fec_recovered" r.fecRecovered (by simp [RxAnt.pkt])
  have hdec := hcount "dec_err" r.decErr (by simp [RxAnt.pkt])
  have hmcs : (((mcsVals r).take 16).map i32) = (mcsVals r).take 16 := by
    have hid : ∀ v ∈ (mcsVals r).take 16, i32 v = v := by
      intro v hv
      obtain ⟨e, -, rfl⟩ := List.mem_map.mp (List.mem_of_mem_take hv)
      have hlt := e.mcs.toNat_lt
      exact i32_of_range ⟨by omega, by omega⟩
    exact (List.map_congr_left hid).trans (List.map_id _)
  simp only [derive, htype, hts, hseq, hpkt, antennas_rssi hr, antennas_snr hr, antennas_mcs hlong, hmcs,
    hall, huniq, hlost, hfec, hdec, Option.getD_some, Option.bind_some, Option.map_some, decide_true]

end Logger

/-! ## The store's reading -/

section Store

variable {ms : List (Bytes × Doc)} {key : String} {r : RxAnt}

theorem numOf_mem {n : ℕ} (hnodup : (ms.map Prod.fst).Nodup) (hmem : Ground.Stats.unsigned key n ∈ ms) :
    numOf (jsonMembers ms) key = some (some (n : ℚ)) := by
  have hjson : json (.prim (decimal n)) = .int n := json_signed n
  have hmember : Json.member (jsonMembers ms) key.toList = some (json (.prim (decimal n))) :=
    member_json hnodup hmem
  rw [numOf, hmember, hjson, num, Int.cast_natCast]

theorem avgOf_level {l : Level} (hnodup : (ms.map Prod.fst).Nodup)
    (hmem : (key.toList, .obj l.members) ∈ ms) : avgOf key (jsonMembers ms) = some (some (l.avg : ℚ)) := by
  have hkeys : (l.members.map Prod.fst).Nodup := by
    show ["min".toList, "avg".toList, "max".toList].Nodup
    decide
  have havg : ("avg".toList, .prim (signed l.avg)) ∈ l.members :=
    List.mem_cons_of_mem _ List.mem_cons_self
  have hmember : Json.member (jsonMembers ms) key.toList = some (.obj (jsonMembers l.members)) :=
    member_json hnodup hmem
  rw [avgOf, hmember]
  show numOf (jsonMembers l.members) "avg" = _
  rw [numOf, member_json hkeys havg, json_signed, num]

theorem antOf_record : antOf (jsonMembers r.members) = some (r.ant.map fun e => jsonMembers e.members) := by
  have hmember : Json.member (jsonMembers r.members) "ant".toList =
      some (.arr (r.ant.map fun e => .obj (jsonMembers e.members))) := by
    have hmem : ("ant".toList, .arr ((r.ant.map AntEntry.members).map Doc.obj)) ∈ r.members := by
      simp [RxAnt.members]
    rw [member_json (record_nodup r) hmem, json, jsonItems_eq_map, List.map_map, List.map_map]
    rfl
  rw [antOf, hmember]
  cases r.ant with
  | nil => rfl
  | cons e es =>
      show some (List.filterMap _ (List.map _ (e :: es))) = _
      rw [List.filterMap_map, ← List.filterMap_eq_map']
      rfl

theorem pktOf_record : pktOf (jsonMembers r.members) = some (jsonMembers r.pkt) := by
  have hmem : ("pkt".toList, .obj r.pkt) ∈ r.members := by simp [RxAnt.members]
  have hmember : Json.member (jsonMembers r.members) "pkt".toList = some (.obj (jsonMembers r.pkt)) :=
    member_json (record_nodup r) hmem
  rw [pktOf, hmember]
  rfl

theorem mapM_some {α β : Type} {f : α → Option β} {g : α → β} {xs : List α} (h : ∀ x ∈ xs, f x = some (g x)) :
    xs.mapM f = some (xs.map g) := by
  induction xs with
  | nil => rfl
  | cons x xs ih =>
      obtain ⟨hx, hxs⟩ := List.forall_mem_cons.mp h
      rw [List.mapM_cons, hx, ih hxs]
      rfl

/-- A number of each antenna. -/
theorem mapM_ant {f : Dict → Option (Option ℚ)} {g : AntEntry → ℚ}
    (h : ∀ e ∈ r.ant, f (jsonMembers e.members) = some (some (g e))) :
    (r.ant.map fun e => jsonMembers e.members).mapM f = some (r.ant.map fun e => some (g e)) := by
  rw [List.mapM_map]
  exact mapM_some h

theorem reduceOption_some {α β : Type} (f : α → β) (xs : List α) :
    (xs.map fun x => some (f x)).reduceOption = xs.map f := by
  rw [List.reduceOption, List.filterMap_map, ← List.filterMap_eq_map']
  rfl

/-- What the store has of a record. -/
theorem deriveColumns_record :
    deriveColumns (json (.obj r.members)) = some
      { tsMs := some r.tsMs.toNat
        seq := some r.seq.toNat
        mcs := modeOf (mcsVals r)
        rssiComb := maxOf (r.ant.map fun e => (e.rssi.avg : ℚ))
        rssiSpread := (maxOf (r.ant.map fun e => (e.rssi.avg : ℚ))).bind fun hi =>
          (minOf (r.ant.map fun e => (e.rssi.avg : ℚ))).map fun lo => hi - lo
        snrAvg := meanOf (r.ant.map fun e => (e.snr.avg : ℚ))
        pktAll := some r.all.toNat
        pktUniq := some r.uniq.toNat
        pktLost := some r.lost.toNat
        fecRec := some r.fecRecovered.toNat
        decErr := some r.decErr.toNat
        per := some (if 0 < (r.uniq.toNat + r.lost.toNat : ℚ) then
          r.lost.toNat / (r.uniq.toNat + r.lost.toNat : ℚ) else 0)
        uplinkRssi := none
        uplinkPkt := none
        uplinkLost := none } := by
  have hrssi : (r.ant.map fun e => jsonMembers e.members).mapM (avgOf "rssi") =
      some (r.ant.map fun e => some (e.rssi.avg : ℚ)) :=
    mapM_ant fun e _ => avgOf_level (entry_nodup e) (by simp [AntEntry.members])
  have hsnr : (r.ant.map fun e => jsonMembers e.members).mapM (avgOf "snr") =
      some (r.ant.map fun e => some (e.snr.avg : ℚ)) :=
    mapM_ant fun e _ => avgOf_level (entry_nodup e) (by simp [AntEntry.members])
  have hmcs : (r.ant.map fun e => jsonMembers e.members).mapM (fun a => numOf a "mcs") =
      some (r.ant.map fun e => some (e.mcs.toNat : ℚ)) :=
    mapM_ant fun e _ => numOf_mem (entry_nodup e) (by simp [AntEntry.members])
  have hvals : (r.ant.map fun e => (e.mcs.toNat : ℚ)).map truncQ = mcsVals r := by
    rw [List.map_map]
    refine List.map_congr_left fun e _ => ?_
    rw [Function.comp_apply, truncQ_of_nonneg (Nat.cast_nonneg _), Int.floor_natCast]
  have htop : ∀ (key : String) (n : ℕ), Ground.Stats.unsigned key n ∈ r.members →
      numOf (jsonMembers r.members) key = some (some (n : ℚ)) := fun _ _ => numOf_mem (record_nodup r)
  have hcount : ∀ (key : String) (n : ℕ), Ground.Stats.unsigned key n ∈ r.pkt →
      numOf (jsonMembers r.pkt) key = some (some (n : ℚ)) := fun _ _ => numOf_mem (pkt_nodup r)
  have hts := htop "ts_ms" r.tsMs.toNat (by simp [RxAnt.members])
  have hseq := htop "seq" r.seq.toNat (by simp [RxAnt.members])
  have hall := hcount "all" r.all.toNat (by simp [RxAnt.pkt])
  have huniq := hcount "uniq" r.uniq.toNat (by simp [RxAnt.pkt])
  have hlost := hcount "lost" r.lost.toNat (by simp [RxAnt.pkt])
  have hfec := hcount "fec_recovered" r.fecRecovered.toNat (by simp [RxAnt.pkt])
  have hdec := hcount "dec_err" r.decErr.toNat (by simp [RxAnt.pkt])
  have hup : Json.member (jsonMembers r.members) "uplink_rx".toList = none := by
    have hkeys : ∀ key ∈ r.members.map Prod.fst, key ≠ "uplink_rx".toList := by
      show ∀ key ∈ ["ts_ms".toList, "type".toList, "ver".toList, "seq".toList, "interval_ms".toList,
        "ant".toList, "pkt".toList], key ≠ "uplink_rx".toList
      decide
    exact member_json_none fun m hm => hkeys m.1 (List.mem_map_of_mem hm)
  have hnone : ∀ key, numOf [] key = some none := fun _ => rfl
  show deriveColumns (.obj (jsonMembers r.members)) = _
  simp only [deriveColumns, antOf_record, pktOf_record, hrssi, hsnr, hmcs, reduceOption_some, hvals, hts, hseq,
    hall, huniq, hlost, hfec, hdec, hup, hnone, Option.bind_eq_bind, Option.bind_some, Option.map_some]
  rfl

end Store

/-! ## Levels -/

theorem rssiRange_fin (xs : List ℚ) :
    rssiRange (xs.map .fin) = (minOf xs).bind fun lo => (maxOf xs).map fun hi => (.fin lo, .fin hi) := by
  cases xs with
  | nil => rfl
  | cons x xs =>
      have hfold : ∀ lo hi : ℚ, (xs.map Dbl.fin).foldl
          (fun p r => (if r.lt p.1 then r else p.1, if p.2.lt r then r else p.2))
          (.fin lo, .fin hi) =
            (.fin (xs.foldl (fun best x => if x < best then x else best) lo),
              .fin (xs.foldl (fun best x => if best < x then x else best) hi)) := by
        induction xs with
        | nil =>
            intro lo hi
            rfl
        | cons y ys ih =>
            intro lo hi
            have hlo : (if (Dbl.fin y).lt (.fin lo) then Dbl.fin y else .fin lo) =
                .fin (if y < lo then y else lo) := by
              by_cases h : y < lo
              · simp [Dbl.lt, h]
              · simp [Dbl.lt, h]
            have hhi : (if (Dbl.fin hi).lt (.fin y) then Dbl.fin y else .fin hi) =
                .fin (if hi < y then y else hi) := by
              by_cases h : hi < y
              · simp [Dbl.lt, h]
              · simp [Dbl.lt, h]
            rw [List.map_cons, List.foldl_cons, List.foldl_cons, List.foldl_cons]
            dsimp only
            rw [hlo, hhi]
            exact ih _ _
      exact congrArg some (hfold x x)

theorem rssiComb_fin (xs : List ℚ) : (rssiRange (xs.map .fin)).map (·.2) = (maxOf xs).map .fin := by
  rw [rssiRange_fin]
  cases xs with
  | nil => rfl
  | cons x xs => rfl

theorem rssiSpread_fin (xs : List ℚ) : (rssiRange (xs.map .fin)).map (fun r => r.2.sub r.1) =
    ((maxOf xs).bind fun hi => (minOf xs).map fun lo => hi - lo).map .fin := by
  rw [rssiRange_fin]
  cases xs with
  | nil => rfl
  | cons x xs =>
      simp only [maxOf, minOf, Option.bind_some, Option.map_some, Dbl.sub, Dbl.neg, Dbl.add, sub_eq_add_neg]

theorem snrMean_fin (xs : List ℚ) : snrMean (xs.map .fin) = (meanOf xs).map .fin := by
  have hfold : ∀ s : ℚ, (xs.map Dbl.fin).foldl Dbl.add (.fin s) = .fin (xs.foldl (· + ·) s) := by
    induction xs with
    | nil =>
        intro s
        rfl
    | cons x xs ih =>
        intro s
        rw [List.map_cons, List.foldl_cons, List.foldl_cons]
        exact ih (s + x)
  rw [snrMean, meanOf, hfold, List.length_map]
  cases xs with
  | nil => rfl
  | cons x xs => rfl

/-! ## The MCS -/

/-- A value that is there, and no other more often. -/
def MostFrequent (vs : List ℤ) (v : ℤ) : Prop := v ∈ vs ∧ ∀ w, vs.count w ≤ vs.count v

def FirstFrequent (vs : List ℤ) (v : ℤ) : Prop :=
  MostFrequent vs v ∧ ∀ w, MostFrequent vs w → vs.idxOf v ≤ vs.idxOf w

def LeastFrequent (vs : List ℤ) (v : ℤ) : Prop := MostFrequent vs v ∧ ∀ w, MostFrequent vs w → v ≤ w

/-- The first of the most frequent among 16 values is the least of the most frequent among all. -/
def ModesMeet (vs : List ℤ) : Prop := vs = [] ∨ ∃ v, FirstFrequent (vs.take 16) v ∧ LeastFrequent vs v

theorem mode_eq_maxBy (vs : List ℤ) : mode vs = maxBy (fun v => vs.count v) vs := by
  have hfold : ∀ (f : ℤ → ℕ) (xs : List ℤ) (m : ℤ),
      (xs.foldl (fun p v => if p.2 < f v then (v, f v) else (p.1, p.2)) (m, f m)).1 =
        best f m xs := by
    intro f xs
    induction xs with
    | nil =>
        intro m
        rfl
    | cons x xs ih =>
        intro m
        rw [best, List.foldl_cons, List.foldl_cons]
        dsimp only
        split
        · exact ih x
        · exact ih m
  cases vs with
  | nil => rfl
  | cons m ms =>
      have hpos : 0 < (m :: ms).count m := List.count_pos_iff.mpr List.mem_cons_self
      rw [mode, List.foldl_cons]
      dsimp only
      rw [if_pos hpos]
      exact congrArg some (hfold (fun v => (m :: ms).count v) ms m)

theorem mode_eq_some_iff {vs : List ℤ} {v : ℤ} : mode vs = some v ↔ FirstFrequent vs v := by
  rw [mode_eq_maxBy, maxBy_eq_some_iff]
  constructor
  · rintro ⟨before, after, hvs, hbefore, hafter⟩
    have hle : ∀ w, vs.count w ≤ vs.count v := by
      intro w
      by_cases hw : w ∈ vs
      · rw [hvs] at hw
        rcases List.mem_append.mp hw with hw | hw
        · exact (hbefore w hw).le
        · rcases List.mem_cons.mp hw with rfl | hw
          · exact le_rfl
          · exact hafter w hw
      · rw [List.count_eq_zero_of_not_mem hw]
        exact Nat.zero_le _
    have hindex : ∀ w, w ∉ before → before.length ≤ vs.idxOf w := by
      intro w hw
      rw [hvs, List.idxOf_append_of_notMem hw]
      exact Nat.le_add_right _ _
    refine ⟨⟨hvs ▸ List.mem_append_right _ List.mem_cons_self, hle⟩, fun w hw => ?_⟩
    have hv : vs.idxOf v = before.length := by
      have hno : v ∉ before := fun h => (hbefore v h).false
      rw [hvs, List.idxOf_append_of_notMem hno, List.idxOf_cons_self, Nat.add_zero]
    rw [hv]
    exact hindex w fun h => absurd (hw.2 v) (Nat.not_le.mpr (hbefore w h))
  · rintro ⟨⟨hmem, hle⟩, hfirst⟩
    obtain ⟨before, after, hvs, hno⟩ := List.eq_append_cons_of_mem hmem
    refine ⟨before, after, hvs, ?_, fun w _ => hle w⟩
    intro w hw
    refine lt_of_le_of_ne (hle w) fun heq => ?_
    have hfrequent : MostFrequent vs w :=
      ⟨hvs ▸ List.mem_append_left _ hw, fun u => (hle u).trans heq.ge⟩
    have hindex := hfirst w hfrequent
    rw [hvs, List.idxOf_append_of_notMem hno, List.idxOf_cons_self, List.idxOf_append_of_mem hw] at hindex
    exact absurd (List.idxOf_lt_length_of_mem hw) (Nat.not_lt.mpr hindex)

theorem modeOf_eq_some_iff {vs : List ℤ} {v : ℤ} : modeOf vs = some v ↔ LeastFrequent vs v := by
  rw [modeOf, maxBy_eq_some_iff]
  have hset : ∀ w, w ∈ vs.dedup.insertionSort (· ≤ ·) ↔ w ∈ vs := fun w =>
    (List.mem_insertionSort _).trans List.mem_dedup
  have hsorted : (vs.dedup.insertionSort (· ≤ ·)).Pairwise (· ≤ ·) := List.pairwise_insertionSort _ _
  have hnodup : (vs.dedup.insertionSort (· ≤ ·)).Nodup :=
    (List.perm_insertionSort (· ≤ ·) vs.dedup).nodup_iff.mpr vs.nodup_dedup
  generalize vs.dedup.insertionSort (· ≤ ·) = set at hset hsorted hnodup
  constructor
  · rintro ⟨before, after, rfl, hbefore, hafter⟩
    have hcases : ∀ w ∈ vs, w ∈ before ∨ w = v ∨ w ∈ after := fun w hw =>
      (List.mem_append.mp ((hset w).mpr hw)).imp_right List.mem_cons.mp
    have hle : ∀ w, vs.count w ≤ vs.count v := by
      intro w
      by_cases hw : w ∈ vs
      · rcases hcases w hw with hw | rfl | hw
        · exact (hbefore w hw).le
        · exact le_rfl
        · exact hafter w hw
      · rw [List.count_eq_zero_of_not_mem hw]
        exact Nat.zero_le _
    refine ⟨⟨(hset v).mp (List.mem_append_right _ List.mem_cons_self), hle⟩, fun w hw => ?_⟩
    rcases hcases w hw.1 with hin | rfl | hin
    · exact absurd (hw.2 v) (Nat.not_le.mpr (hbefore w hin))
    · exact le_rfl
    · exact (List.pairwise_cons.mp (List.pairwise_append.mp hsorted).2.1).1 w hin
  · rintro ⟨⟨hmem, hle⟩, hleast⟩
    obtain ⟨before, after, rfl⟩ := List.append_of_mem ((hset v).mpr hmem)
    refine ⟨before, after, rfl, ?_, fun w _ => hle w⟩
    intro w hw
    refine lt_of_le_of_ne (hle w) fun heq => ?_
    have hfrequent : MostFrequent vs w :=
      ⟨(hset w).mp (List.mem_append_left _ hw), fun u => (hle u).trans heq.ge⟩
    have hsame : w = v := le_antisymm
      ((List.pairwise_append.mp hsorted).2.2 w hw v List.mem_cons_self) (hleast w hfrequent)
    exact (List.nodup_append.mp hnodup).2.2 w hw v List.mem_cons_self hsame

theorem modeOf_eq_none {vs : List ℤ} (h : modeOf vs = none) : vs = [] := by
  cases hset : vs.dedup.insertionSort (· ≤ ·) with
  | nil =>
      rw [List.eq_nil_iff_forall_not_mem]
      intro v hv
      have hmem : v ∈ vs.dedup.insertionSort (· ≤ ·) := (List.mem_insertionSort _).mpr (List.mem_dedup.mpr hv)
      rw [hset] at hmem
      cases hmem
  | cons m ms =>
      rw [modeOf, hset] at h
      cases h

theorem modes_agree_iff (vs : List ℤ) : modeOf vs = mode (vs.take 16) ↔ ModesMeet vs := by
  constructor
  · intro h
    cases hmode : modeOf vs with
    | none => exact .inl (modeOf_eq_none hmode)
    | some v => exact .inr ⟨v, mode_eq_some_iff.mp (h.symm.trans hmode), modeOf_eq_some_iff.mp hmode⟩
  · rintro (rfl | ⟨v, hfirst, hleast⟩)
    · rfl
    · rw [modeOf_eq_some_iff.mpr hleast, mode_eq_some_iff.mpr hfirst]

instance (vs : List ℤ) : Decidable (ModesMeet vs) := decidable_of_iff _ (modes_agree_iff vs)

/-! ## Counts -/

/-- A `long` has room for each of the counts, and for the sum that the loss is a part of. -/
def Fits (long : ℕ) (r : RxAnt) : Prop :=
  ∀ n ∈ [r.tsMs.toNat, r.seq.toNat, r.all.toNat, r.uniq.toNat, r.lost.toNat, r.fecRecovered.toNat,
    r.decErr.toNat, r.uniq.toNat + r.lost.toNat], n < 2 ^ (long - 1)

instance (long : ℕ) (r : RxAnt) : Decidable (Fits long r) := inferInstanceAs (Decidable (∀ n ∈ _, _))

theorem clampLong_eq_iff {long n : ℕ} : clampLong long n = n ↔ n < 2 ^ (long - 1) := by
  have hcast : ((2 ^ (long - 1) : ℕ) : ℤ) = 2 ^ (long - 1) := Nat.cast_pow 2 _
  have hpos : 0 < 2 ^ (long - 1) := Nat.two_pow_pos _
  rw [clampLong, ← hcast]
  generalize 2 ^ (long - 1) = room at hpos
  constructor
  · intro h
    have hle : (n : ℤ) ≤ max (-(room : ℤ)) (room - 1) := h ▸ max_le_max_left _ (min_le_right _ _)
    omega
  · intro h
    rw [min_eq_left (by omega), max_eq_right (by omega)]

/-- A sum that goes over is negative. -/
theorem wrapLong_eq {long n : ℕ} (hlong : 0 < long) (h : n < 2 * 2 ^ (long - 1)) :
    wrapLong long n = if n < 2 ^ (long - 1) then (n : ℤ) else n - 2 * (2 ^ (long - 1) : ℕ) := by
  have hpow : 2 ^ long = 2 * 2 ^ (long - 1) := (mul_pow_sub_one hlong.ne' 2).symm
  rw [wrapLong, hpow, Int.bmod]
  generalize 2 ^ (long - 1) = room at h
  have hmod : (n : ℤ) % (2 * room : ℕ) = n := Int.emod_eq_of_lt (by omega) (by omega)
  rw [hmod]
  by_cases hroom : n < room
  · rw [if_pos hroom, if_pos (by omega)]
  · rw [if_neg hroom, if_neg (by omega)]
    push_cast
    rfl

/-- The part of the packets that is lost, as the store and as the logger have it. -/
theorem per_agrees_iff {long uniq lost : ℕ} (hlong : 0 < long) (huniq : uniq < 2 ^ (long - 1))
    (hlost : lost < 2 ^ (long - 1)) :
    (if 0 < (uniq + lost : ℚ) then (lost : ℚ) / (uniq + lost) else 0) =
        (if 0 < wrapLong long ((uniq : ℤ) + lost) then
          ((lost : ℤ) : ℚ) / (wrapLong long ((uniq : ℤ) + lost) : ℤ) else 0) ↔
      uniq + lost < 2 ^ (long - 1) := by
  have hwrap : wrapLong long ((uniq : ℤ) + lost) = if uniq + lost < 2 ^ (long - 1) then ((uniq + lost : ℕ) : ℤ)
      else (uniq + lost : ℕ) - 2 * (2 ^ (long - 1) : ℕ) := by
    rw [← wrapLong_eq hlong (by omega), Nat.cast_add]
  rw [hwrap]
  by_cases hroom : uniq + lost < 2 ^ (long - 1)
  · rw [if_pos hroom]
    refine iff_of_true ?_ hroom
    have hpos : 0 < ((uniq + lost : ℕ) : ℤ) ↔ 0 < (uniq + lost : ℚ) := by
      rw [← Nat.cast_add, Nat.cast_pos, Nat.cast_pos]
    have hcast : (((uniq + lost : ℕ) : ℤ) : ℚ) = uniq + lost := by push_cast; rfl
    simp only [hpos, hcast, Int.cast_natCast]
  · rw [if_neg hroom]
    refine iff_of_false ?_ hroom
    have hneg : ¬0 < ((uniq + lost : ℕ) : ℤ) - 2 * (2 ^ (long - 1) : ℕ) := by omega
    have hsum : 0 < (uniq + lost : ℚ) := by
      have hpos : 0 < 2 ^ (long - 1) := Nat.two_pow_pos _
      exact_mod_cast show 0 < uniq + lost by omega
    have hsome : 0 < (lost : ℚ) := by exact_mod_cast show 0 < lost by omega
    rw [if_pos hsum, if_neg hneg]
    exact (div_pos hsome hsum).ne'

/-! ## The line -/

theorem integral_unsigned (key : String) (n : ℕ) {ms : List (Bytes × Doc)} :
    IntegralMembers (Ground.Stats.unsigned key n :: ms) ↔ IntegralMembers ms :=
  and_iff_right ⟨(n : ℤ), rfl⟩

theorem integral_integer (key : String) (l : ℤ) {ms : List (Bytes × Doc)} :
    IntegralMembers (Ground.Stats.integer key l :: ms) ↔ IntegralMembers ms :=
  and_iff_right ⟨l, rfl⟩

theorem integral_level (l : Level) : IntegralMembers l.members := by
  rw [Level.members, integral_integer, integral_integer, integral_integer]
  trivial

theorem integral_entry (e : AntEntry) : IntegralMembers e.members := by
  rw [AntEntry.members, integral_unsigned, integral_unsigned, integral_unsigned]
  exact ⟨trivial, (integral_integer "pkts" e.pkts).mpr
    ⟨integral_level e.rssi, integral_level e.snr, trivial⟩⟩

theorem integral_entries (es : List AntEntry) :
    IntegralItems ((es.map AntEntry.members).map Doc.obj) := by
  induction es with
  | nil => trivial
  | cons e es ih => exact ⟨integral_entry e, ih⟩

theorem integral_record (r : RxAnt) : IntegralMembers r.members := by
  have hpkt : IntegralMembers r.pkt := by
    simp only [RxAnt.pkt]
    iterate 15 rw [integral_unsigned]
    trivial
  rw [RxAnt.members, integral_unsigned]
  refine ⟨trivial, ?_⟩
  rw [integral_unsigned, integral_unsigned, integral_integer]
  exact ⟨integral_entries r.ant, hpkt, trivial⟩

theorem loads_record (r : RxAnt) : Json.loads r.text = some (json (.obj r.members)) :=
  loads_print (Ground.Stats.plain_record r) (integral_record r)

theorem toks_entries (es : List AntEntry) :
    (toksItems ((es.map AntEntry.members).map Doc.obj)).length = 27 * es.length := by
  induction es with
  | nil => rfl
  | cons e es ih =>
      have hentry : (toks (.obj e.members)).length = 27 := rfl
      rw [List.map_cons, List.map_cons, toksItems, List.length_append, hentry, ih, List.length_cons]
      omega

theorem toks_record (r : RxAnt) : (toks (.obj r.members)).length = 45 + 27 * r.ant.length := by
  have hpkt : (toks (.obj r.pkt)).length = 31 := rfl
  have hsplit : toks (.obj r.members) = (toks (.obj r.members)).take 13 ++
      (toksItems ((r.ant.map AntEntry.members).map Doc.obj) ++
        ({ type := .str, text := "pkt".toList } :: (toks (.obj r.pkt) ++ []))) := rfl
  have hhead : ((toks (.obj r.members)).take 13).length = 13 := rfl
  rw [hsplit, List.length_append, hhead, List.length_append, toks_entries, List.length_cons, List.append_nil,
    hpkt]
  omega

/-- There is room for 26 antennas. -/
theorem document_record (r : RxAnt) :
    document r.text = if r.ant.length ≤ 26 then some (toks (.obj r.members)) else none := by
  have hparse : jsonParse 768 r.text = if (toks (.obj r.members)).length ≤ 768 then
      some (toks (.obj r.members)) else none := jsonParse_print (Ground.Stats.plain_record r)
  have hroom : (toks (.obj r.members)).length ≤ 768 ↔ r.ant.length ≤ 26 := by
    rw [toks_record]
    omega
  rw [document, hparse]
  simp only [hroom]
  split
  · rfl
  · rfl

/-! ## Agreement -/

/-- The same in every column. -/
structure Agrees (d : Derived) (c : Columns) : Prop where
  tsMs : c.tsMs = some (d.tsMs : ℚ)
  seq : c.seq = d.seq.map (↑)
  mcs : c.mcs = d.mcs
  rssiComb : c.rssiComb.map .fin = d.rssiComb
  rssiSpread : c.rssiSpread.map .fin = d.rssiSpread
  snrAvg : c.snrAvg.map .fin = d.snrAvg
  pktAll : c.pktAll = d.pktAll.map (↑)
  pktUniq : c.pktUniq = d.pktUniq.map (↑)
  pktLost : c.pktLost = d.pktLost.map (↑)
  fecRec : c.fecRec = d.fecRec.map (↑)
  decErr : c.decErr = d.decErr.map (↑)
  per : c.per = d.per

/-- The logger takes the line and derives from it what the store does. -/
def ColumnsAgree (long : ℕ) (raw : Bytes) : Prop :=
  ∃ doc c, document raw = some doc ∧ (Json.loads raw).bind deriveColumns = some c ∧
    Agrees (derive long doc) c

theorem agrees_iff {long : ℕ} (hlong : 32 ≤ long) {r : RxAnt} (hr : IntLevels r) {c : Columns}
    (hc : deriveColumns (json (.obj r.members)) = some c) :
    Agrees (derive long (toks (.obj r.members))) c ↔ Fits long r ∧ ModesMeet (mcsVals r) := by
  have hderive := derive_record hlong hr []
  rw [List.append_nil] at hderive
  obtain rfl := Option.some.inj (hc.symm.trans deriveColumns_record)
  rw [hderive]
  -- a count is the same where it fits, and not where it is clamped
  have hcount : ∀ {n : ℕ}, some (n : ℚ) = (some (clampLong long n)).map (Int.cast : ℤ → ℚ) ↔
      n < 2 ^ (long - 1) := by
    intro n
    rw [Option.map_some, Option.some_inj, ← clampLong_eq_iff, ← Int.cast_natCast, Int.cast_inj, eq_comm]
  have hper : ∀ {uniq lost : ℕ}, uniq < 2 ^ (long - 1) → lost < 2 ^ (long - 1) →
      (some (if 0 < (uniq + lost : ℚ) then (lost : ℚ) / (uniq + lost) else 0) =
        some (let sum := wrapLong long (clampLong long uniq + clampLong long lost)
          if 0 < sum then (clampLong long lost : ℚ) / sum else 0) ↔ uniq + lost < 2 ^ (long - 1)) := by
    intro uniq lost huniq hlost
    rw [Option.some_inj, clampLong_eq_iff.mpr huniq, clampLong_eq_iff.mpr hlost]
    exact per_agrees_iff (by omega) huniq hlost
  constructor
  · intro h
    have hts := hcount.mp h.tsMs
    have hseq := hcount.mp h.seq
    have hall := hcount.mp h.pktAll
    have huniq := hcount.mp h.pktUniq
    have hlost := hcount.mp h.pktLost
    have hfec := hcount.mp h.fecRec
    have hdec := hcount.mp h.decErr
    have hsum := (hper huniq hlost).mp h.per
    refine ⟨?_, (modes_agree_iff _).mp h.mcs⟩
    simp only [Fits, List.forall_mem_cons]
    exact ⟨hts, hseq, hall, huniq, hlost, hfec, hdec, hsum, by simp⟩
  · rintro ⟨hfits, hmodes⟩
    simp only [Fits, List.forall_mem_cons] at hfits
    obtain ⟨hts, hseq, hall, huniq, hlost, hfec, hdec, hsum, -⟩ := hfits
    have hcomb := rssiComb_fin (r.ant.map fun e => (e.rssi.avg : ℚ))
    have hspread := rssiSpread_fin (r.ant.map fun e => (e.rssi.avg : ℚ))
    have hsnr := snrMean_fin (r.ant.map fun e => (e.snr.avg : ℚ))
    rw [List.map_map] at hcomb hspread hsnr
    exact {
      tsMs := Option.some_inj.mpr (by rw [clampLong_eq_iff.mpr hts, Int.cast_natCast])
      seq := hcount.mpr hseq
      mcs := (modes_agree_iff _).mpr hmodes
      rssiComb := hcomb.symm
      rssiSpread := hspread.symm
      snrAvg := hsnr.symm
      pktAll := hcount.mpr hall
      pktUniq := hcount.mpr huniq
      pktLost := hcount.mpr hlost
      fecRec := hcount.mpr hfec
      decErr := hcount.mpr hdec
      per := (hper huniq hlost).mpr hsum }

theorem columnsAgree_record {long : ℕ} {r : RxAnt} :
    ColumnsAgree long r.text ↔ r.ant.length ≤ 26 ∧ ∃ c, deriveColumns (json (.obj r.members)) = some c ∧
      Agrees (derive long (toks (.obj r.members))) c := by
  have hloads : (Json.loads r.text).bind deriveColumns = deriveColumns (json (.obj r.members)) := by
    rw [loads_record, Option.bind_some]
  rw [ColumnsAgree, document_record, hloads]
  constructor
  · rintro ⟨doc, c, hdoc, hcols, hagree⟩
    split at hdoc
    · next hroom =>
        cases hdoc
        exact ⟨hroom, c, hcols, hagree⟩
    · cases hdoc
  · rintro ⟨hroom, c, hcols, hagree⟩
    exact ⟨_, c, if_pos hroom, hcols, hagree⟩

/-- The logger and the store agree on a record whose tokens and counts the logger has room for, and
whose MCS they choose alike. -/
theorem derivations_agree {long : ℕ} (hlong : 32 ≤ long) {r : RxAnt} (hr : IntLevels r) :
    ColumnsAgree long r.text ↔ r.ant.length ≤ 26 ∧ Fits long r ∧ ModesMeet (mcsVals r) := by
  rw [columnsAgree_record]
  refine and_congr_right fun _ => ?_
  constructor
  · rintro ⟨c, hcols, hagree⟩
    exact (agrees_iff hlong hr hcols).mp hagree
  · intro h
    exact ⟨_, deriveColumns_record, (agrees_iff hlong hr deriveColumns_record).mpr h⟩

/-- A record of one packet on each of these MCS. -/
def recordOf (mcs : List UInt8) : RxAnt :=
  { RxAnt.quiet with
    ant := mcs.map fun m =>
      { freq := 5180, mcs := m, bw := 20, id := 0, pkts := 1, rssi := ⟨-60, -60, -60⟩, snr := ⟨20, 20, 20⟩ } }

theorem intLevels_recordOf (mcs : List UInt8) : IntLevels (recordOf mcs) := by
  intro e he
  obtain ⟨m, -, rfl⟩ := List.mem_map.mp he
  show (-2 ^ 31 ≤ (-60 : ℤ) ∧ (-60 : ℤ) < 2 ^ 31) ∧ (-2 ^ 31 ≤ (20 : ℤ) ∧ (20 : ℤ) < 2 ^ 31)
  decide

theorem derivations_agree_alike : ColumnsAgree 64 (recordOf [3, 3, 1]).text :=
  (derivations_agree (by decide) (intLevels_recordOf _)).mpr ⟨by decide, by decide, by decide⟩

/-- Two antennas, each on its own MCS: the logger has the first, the store the lower one. -/
theorem not_derivations_agree : ¬ColumnsAgree 64 (recordOf [7, 1]).text := by
  intro h
  obtain ⟨-, c, hcols, hagree⟩ := columnsAgree_record.mp h
  have hmodes := ((agrees_iff (by decide) (intLevels_recordOf _) hcols).mp hagree).2
  exact absurd hmodes (by decide)

end Waybeam.Telemetry
