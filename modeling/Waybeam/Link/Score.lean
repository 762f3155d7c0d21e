/-
# `Waybeam.Link.Score` — a record of wfb_rx scored from its text

The vehicle goes through the text once.  From one `"rssi":` to the next it takes `avg` and
`max` of the object behind it and the id from what stands in front:

    ,"snr":{..}},{"freq":..,"mcs":..,"bw":..,"id":"1f","pkts":..,"rssi":{..},"snr":{..}},..
    p                                                           r        brace_close

On a line of wfb_rx these are its antennas, one by one (`scanAnts_text`).  One antenna heard
on several rungs has several entries; they share a slot, which keeps the best average.
-/
import Waybeam.Ground.Record
import Waybeam.Link.Probe
import Waybeam.Vehicle.Scorer

namespace Waybeam.Link

open Text Vehicle

/-! ## The pass over the text -/

/-- `strstr`: the first occurrence and what follows. -/
def strstr (pat s : Bytes) : Option Bytes := (Text.behind pat s).map (pat ++ ·)

/-- `json_get_int_in`: a key in the next block, as far as a window of 511 characters goes. -/
def jsonGetIntIn (long : ℕ) (block inner : Bytes) : Option ℤ :=
  let brace := block.dropWhile (· ≠ '\x7b')
  if '\x7d' ∈ brace then
    jsonGetInt long ((brace.takeWhile (· ≠ '\x7d') ++ ['\x7d']).take 511) inner
  else none

/-- The id of the entry whose levels start at `r`; it stands between `p` and `r`. -/
def antId (p r : Bytes) : Bytes :=
  match strstr "\"id\":".toList p with
  | none => []
  | some idp =>
      if r.length < idp.length then
        (((idp.drop 5).dropWhile fun c => c = ' ' || c = '"').takeWhile fun c =>
          c ≠ '"' && c ≠ ',' && c ≠ '\x7d').take 23
      else []

theorem strstr_length {pat s r : Bytes} (h : strstr pat s = some r) :
    pat.length ≤ r.length ∧ r.length ≤ s.length := by
  obtain ⟨rest, hrest, rfl⟩ := Option.map_eq_some_iff.mp h
  rw [List.length_append]
  exact ⟨Nat.le_add_right _ _, Text.behind_length hrest⟩

/-- The entries `scorer_update` goes through.  Without a closing brace nothing is left of the
text, and the pass ends. -/
def scanAnts (long : ℕ) (p : Bytes) : List AntEntry :=
  match _hr : strstr "\"rssi\":".toList p with
  | none => []
  | some r =>
      match jsonGetIntIn long r "avg".toList with
      | none => []
      | some avg =>
          { id := String.ofList (antId p r), avg := some avg
            max := jsonGetIntIn long r "max".toList } ::
          scanAnts long ((r.dropWhile (· ≠ '\x7d')).drop 1)
termination_by p.length
decreasing_by
  have hclose := (List.dropWhile_suffix (l := r) (· ≠ '\x7d')).length_le
  have hlen : 7 ≤ r.length ∧ r.length ≤ p.length := strstr_length _hr
  rw [List.length_drop]
  omega

/-- `scorer_update` on the text of a datagram. -/
def scorerUpdateBody (long : ℕ) (s : Scorer) (cfg : McsConfig) (body : Bytes)
    (uniq lost fecRecovered diversity adapters : ℤ) (now : ℕ) : Scorer × Option Score :=
  scorerUpdate s cfg (scanAnts long (cstr body)) uniq lost fecRecovered diversity adapters now

/-- Once around the loop. -/
theorem scanAnts_eq (long : ℕ) (p : Bytes) :
    scanAnts long p = match strstr "\"rssi\":".toList p with
      | none => []
      | some r =>
          match jsonGetIntIn long r "avg".toList with
          | none => []
          | some avg =>
              { id := String.ofList (antId p r), avg := some avg
                max := jsonGetIntIn long r "max".toList } ::
              scanAnts long ((r.dropWhile (· ≠ '\x7d')).drop 1) := by
  rw [scanAnts]
  split
  · next h => rw [h]
  · next h => rw [h]

/-- Only the next levels and the next id count. -/
theorem scanAnts_congr {long : ℕ} {p p' : Bytes}
    (hr : Text.behind "\"rssi\":".toList p = Text.behind "\"rssi\":".toList p')
    (hid : Text.behind "\"id\":".toList p = Text.behind "\"id\":".toList p') :
    scanAnts long p = scanAnts long p' := by
  have hr' : strstr "\"rssi\":".toList p = strstr "\"rssi\":".toList p' := by rw [strstr, strstr, hr]
  have hant (r : Bytes) : antId p r = antId p' r := by
    rw [antId, antId, strstr, strstr, hid]
  rw [scanAnts_eq, scanAnts_eq long p', hr']
  simp only [hant]

/-! ## The printed record -/

section Text

open Doc Ground.Stats

variable {long : ℕ}

/-! ### The levels in their window -/

/-- `{"min":%d,"avg":%d,"max":%d` -/
def levelArgs (l : Level) : List (Bytes × Bytes) :=
  [("\x7b\"min\":".toList, signed l.min), (",\"avg\":".toList, signed l.avg),
    (",\"max\":".toList, signed l.max)]

theorem print_level (l : Level) : print (.obj l.members) = printf (levelArgs l) ['\x7d'] := by
  simp only [Level.members, integer, print, printMembers]
  rfl

/-- The values of type `int`. -/
def Ints (l : Level) : Prop := ∀ v ∈ [l.min, l.avg, l.max], -2 ^ 31 ≤ v ∧ v < 2 ^ 31

instance (l : Level) : Decidable (Ints l) := inferInstanceAs (Decidable (∀ v ∈ _, _))

theorem signed_length {l : ℤ} (hlo : -2 ^ 31 ≤ l) (hhi : l < 2 ^ 31) : (signed l).length ≤ 11 := by
  have hdigits : ∀ n < 10 ^ 10, (decimal n).length ≤ 10 :=
    fun n hn => (Nat.length_toDigits_le_iff (by decide) (by decide)).mpr hn
  cases l with
  | ofNat n =>
      rw [Int.ofNat_eq_natCast] at hhi
      exact (hdigits n (by omega)).trans (by decide)
  | negSucc n => exact Nat.succ_le_succ (hdigits (n + 1) (by omega))

theorem levels_close (l : Level) :
    printf (levelArgs l) ['\x7d'] = printf (levelArgs l) [] ++ ['\x7d'] := by
  simp only [levelArgs, printf, List.append_assoc, List.append_nil]

theorem levels_open {l : Level} : ∀ c ∈ printf (levelArgs l) [], (c ≠ '\x7d' : Bool) = true := by
  have hvalue : ∀ v, '\x7d' ∉ signed v := fun v h => absurd (plainText_signed v _ h) (by decide)
  have hnone : '\x7d' ∉ printf (levelArgs l) [] := by
    refine notMem_printf ?_ List.not_mem_nil
    simp only [levelArgs, List.forall_mem_cons]
    exact ⟨⟨by decide, hvalue _⟩, ⟨by decide, hvalue _⟩, ⟨by decide, hvalue _⟩,
      fun _ h => absurd h List.not_mem_nil⟩
  intro c hc
  rw [decide_eq_true_eq]
  rintro rfl
  exact hnone hc

/-- The block of the levels is all that the window shows. -/
theorem window_level {l : Level} (hl : Ints l) (rest inner : Bytes) :
    jsonGetIntIn long ("\"rssi\":".toList ++ (print (.obj l.members) ++ rest)) inner =
      jsonGetInt long (print (.obj l.members)) inner := by
  have hopen : ("\"rssi\":".toList ++ (print (.obj l.members) ++ rest)).dropWhile (· ≠ '\x7b')
      = print (.obj l.members) ++ rest := by
    refine dropWhile_run (by decide) ?_
    intro c hc
    cases hc
    rfl
  have hroom : (print (.obj l.members)).length ≤ 511 := by
    simp only [Ints, List.forall_mem_cons] at hl
    obtain ⟨⟨h0, h1⟩, ⟨h2, h3⟩, ⟨h4, h5⟩, -⟩ := hl
    have hmin := signed_length h0 h1
    have havg := signed_length h2 h3
    have hmax := signed_length h4 h5
    have hpieces : "\x7b\"min\":".toList.length = 7 ∧ ",\"avg\":".toList.length = 7 ∧
        ",\"max\":".toList.length = 7 := by decide
    rw [print_level]
    simp only [levelArgs, printf, List.length_append, List.length_singleton]
    omega
  rw [jsonGetIntIn, hopen, if_pos (by rw [print_level, levels_close]; simp)]
  rw [print_level, levels_close, List.append_assoc,
    takeWhile_run levels_open (by intro c hc; cases hc; rfl), ← levels_close, ← print_level,
    List.take_of_length_le hroom]

/-- A number is read under its name, where the name is not in what comes before. -/
theorem jsonGetInt_member {key : Bytes} {pre post : List (Bytes × Doc)} {l : ℤ} (hkey : PlainText key)
    (hne : key ≠ []) (h : PlainMembers (pre ++ (key, .prim (signed l)) :: post))
    (hno : key ∉ textsMembers pre) (hlo : -2 ^ (long - 1) ≤ l) (hhi : l < 2 ^ (long - 1)) :
    jsonGetInt long (print (.obj (pre ++ (key, .prim (signed l)) :: post))) key = some l := by
  have hskips : Skips key (Text.behind (quoted key)) := skips_behind (List.prefix_refl _)
  have hbehind : Text.behind (quoted key) (print (.obj (pre ++ (key, .prim (signed l)) :: post))) =
      some (':' :: (signed l ++ printMembers post)) := by
    have hupto := hskips.upTo hkey hne [] hno h
    rw [List.append_nil, List.append_nil, behind_self] at hupto
    exact hupto
  show (Text.behind (quoted key) _).bind _ = _
  rw [hbehind, Option.bind_some]
  cases post with
  | nil => exact strtol_integer hlo hhi (by decide) _
  | cons m post => exact strtol_integer hlo hhi (by decide) _

theorem levels_read {l : Level} (hl : Ints l) (hlong : 32 ≤ long) (rest : Bytes) :
    let block := "\"rssi\":".toList ++ (print (.obj l.members) ++ rest)
    jsonGetIntIn long block "avg".toList = some l.avg ∧
      jsonGetIntIn long block "max".toList = some l.max := by
  have hpow : (2 : ℤ) ^ 31 ≤ 2 ^ (long - 1) := pow_le_pow_right₀ (by decide) (by omega)
  have hfits : ∀ v ∈ [l.min, l.avg, l.max], -2 ^ (long - 1) ≤ v ∧ v < 2 ^ (long - 1) := by
    intro v hv
    obtain ⟨hlo, hhi⟩ := hl v hv
    exact ⟨by omega, by omega⟩
  simp only [List.forall_mem_cons] at hfits
  obtain ⟨-, ⟨havglo, havghi⟩, ⟨hmaxlo, hmaxhi⟩, -⟩ := hfits
  have havg : "avg".toList ∉ textsMembers (l.members.take 1) := by
    show _ ∉ ["min".toList]
    decide
  have hmax : "max".toList ∉ textsMembers (l.members.take 2) := by
    show _ ∉ ["min".toList, "avg".toList]
    decide
  intro block
  rw [window_level hl, window_level hl]
  exact ⟨jsonGetInt_member (by decide) (by decide) (plain_level l) havg havglo havghi,
    jsonGetInt_member (by decide) (by decide) (plain_level l) hmax hmaxlo hmaxhi⟩

/-! ### Entry by entry -/

/-- What a search for either name goes past, the pass goes past. -/
theorem scanAnts_skips {p p' : Bytes}
    (h : ∀ key ∈ ["rssi".toList, "id".toList], ∀ f : Bytes → Option Bytes, Skips key f → f p = f p') :
    scanAnts long p = scanAnts long p' :=
  scanAnts_congr (h _ List.mem_cons_self _ (skips_behind ⟨[':'], rfl⟩))
    (h _ (List.mem_cons_of_mem _ List.mem_cons_self) _ (skips_behind ⟨[':'], rfl⟩))

theorem scanAnts_other {c : Char} (hc : c ≠ '"') (s : Bytes) : scanAnts long (c :: s) = scanAnts long s :=
  scanAnts_skips fun _ _ _ hf => hf.other hc s

theorem scanAnts_members {ms : List (Bytes × Doc)} (h : PlainMembers ms)
    (hno : ∀ key ∈ ["rssi".toList, "id".toList], key ∉ textsMembers ms) (rest : Bytes) :
    scanAnts long (printMembers ms ++ rest) = scanAnts long rest := by
  refine scanAnts_skips ?_
  intro key hkey f hf
  have hname : ∀ key ∈ ["rssi".toList, "id".toList], PlainText key ∧ key ≠ [] := by decide
  exact hf.members (hname key hkey).1 (hname key hkey).2 ms h (hno key hkey) rest

/-- The id of an entry, from wherever its levels stand. -/
theorem antId_entry (e : Ground.Stats.AntEntry) {rest r : Bytes}
    (hr : r.length < (printMembers (e.members.drop 4) ++ rest).length) :
    antId (print (.obj e.members) ++ rest) r = hex e.id.toNat := by
  have hidp : strstr "\"id\":".toList (print (.obj e.members) ++ rest) =
      some ("\"id\":".toList ++ (quoted (hex e.id.toNat) ++ (printMembers (e.members.drop 4) ++ rest))) := by
    have hskips : Skips "id".toList (Text.behind "\"id\":".toList) := skips_behind ⟨[':'], rfl⟩
    have hno : "id".toList ∉ textsMembers (e.members.take 3) := by
      show _ ∉ ["freq".toList, "mcs".toList, "bw".toList]
      decide
    have hbehind : Text.behind "\"id\":".toList (print (.obj e.members) ++ rest) =
        some (quoted (hex e.id.toNat) ++ (printMembers (e.members.drop 4) ++ rest)) :=
      (hskips.upTo (by decide) (by decide) rest hno (plain_entry e)).trans (behind_self _ _)
    rw [strstr, hbehind, Option.map_some]
  have hchars : ∀ c ∈ hex e.id.toNat, c ≠ ' ' ∧ c ≠ '"' ∧ c ≠ ',' ∧ c ≠ '\x7d' := by
    have hall : ∀ c ∈ "0123456789abcdef".toList, c ≠ ' ' ∧ c ≠ '"' ∧ c ≠ ',' ∧ c ≠ '\x7d' := by decide
    exact fun c hc => hall c (mem_hex hc)
  generalize printMembers (e.members.drop 4) ++ rest = tail at hidp hr
  have hlen : r.length < ("\"id\":".toList ++ (quoted (hex e.id.toNat) ++ tail)).length := by
    simp only [List.length_append]
    omega
  have hdrop : ((quoted (hex e.id.toNat) ++ tail).dropWhile fun c => c = ' ' || c = '"') =
      hex e.id.toNat ++ ('"' :: tail) := by
    obtain ⟨d, ds, hd⟩ := List.exists_cons_of_ne_nil (show hex e.id.toNat ≠ [] from Nat.toDigits_ne_nil)
    obtain ⟨hblank, hquote, -⟩ := hchars d (hd ▸ List.mem_cons_self)
    simp [quoted, hd, hblank, hquote]
  have htake : ((hex e.id.toNat ++ ('"' :: tail)).takeWhile fun c =>
      c ≠ '"' && c ≠ ',' && c ≠ '\x7d') = hex e.id.toNat := by
    refine takeWhile_run ?_ (by intro c hc; cases hc; rfl)
    intro c hc
    obtain ⟨-, hquote, hcomma, hbrace⟩ := hchars c hc
    simp [hquote, hcomma, hbrace]
  rw [antId, hidp]
  show (if _ then _ else _) = _
  rw [if_pos hlen]
  show (((quoted (hex e.id.toNat) ++ tail).dropWhile _).takeWhile _).take 23 = _
  rw [hdrop, htake, List.take_of_length_le ((hex_length e.id).trans (by decide))]

/-- What the pass has of an entry. -/
def scanned (e : Ground.Stats.AntEntry) : Vehicle.AntEntry where
  id := String.ofList (hex e.id.toNat)
  avg := some e.rssi.avg
  max := some e.rssi.max

/-- One entry is taken, and the pass goes on behind its levels. -/
theorem scanAnts_entry {e : Ground.Stats.AntEntry} (he : Ints e.rssi) (hlong : 32 ≤ long) (rest : Bytes) :
    scanAnts long (print (.obj e.members) ++ rest) = scanned e :: scanAnts long rest := by
  have hbehind : Text.behind "\"rssi\":".toList (print (.obj e.members) ++ rest) =
      some (print (.obj e.rssi.members) ++ (printMembers (e.members.drop 6) ++ rest)) := by
    have hskips : Skips "rssi".toList (Text.behind "\"rssi\":".toList) := skips_behind ⟨[':'], rfl⟩
    have hno : "rssi".toList ∉ textsMembers (e.members.take 5) := by
      intro h
      rcases List.mem_append.mp (show _ ∈ textsMembers (e.members.take 4) ++ ["pkts".toList] from h)
        with h | h
      · exact notMem_entry (by decide) (hex_ne ⟨'r', by decide, by decide⟩) h
      · exact absurd h (by decide)
    exact (hskips.upTo (by decide) (by decide) rest hno (plain_entry e)).trans (behind_self _ _)
  have hlen : ("\"rssi\":".toList ++ (print (.obj e.rssi.members) ++
      (printMembers (e.members.drop 6) ++ rest))).length <
        (printMembers (e.members.drop 4) ++ rest).length := by
    show _ < (printMembers (integer "pkts" e.pkts :: ("rssi".toList, .obj e.rssi.members) ::
      e.members.drop 6) ++ rest).length
    simp only [printMembers, integer, quoted, List.length_append, List.length_cons]
    have hkey : "\"rssi\":".toList.length = 7 ∧ "rssi".toList.length = 4 := by decide
    omega
  have hclose : (("\"rssi\":".toList ++ (print (.obj e.rssi.members) ++
      (printMembers (e.members.drop 6) ++ rest))).dropWhile (· ≠ '\x7d')).drop 1 =
        printMembers (e.members.drop 6) ++ rest := by
    rw [print_level, levels_close, List.append_assoc, List.dropWhile_append_of_pos (by decide),
      dropWhile_run levels_open (by intro c hc; cases hc; rfl)]
    rfl
  obtain ⟨havg, hmax⟩ := levels_read he hlong (printMembers (e.members.drop 6) ++ rest)
  have hsnr : scanAnts long (printMembers (e.members.drop 6) ++ rest) = scanAnts long rest := by
    have hplain : PlainMembers (e.members.drop 6) := ⟨by decide, plain_level e.snr, trivial⟩
    refine scanAnts_members hplain ?_ rest
    show ∀ key ∈ _, key ∉ ["snr".toList, "min".toList, "avg".toList, "max".toList]
    decide
  rw [scanAnts_eq, strstr, hbehind, Option.map_some]
  simp only [havg, hmax]
  rw [antId_entry e hlen, hclose, hsnr]
  rfl

/-- All entries are taken, and the pass goes on behind the list. -/
theorem scanAnts_items {es : List Ground.Stats.AntEntry} (hes : ∀ e ∈ es, Ints e.rssi) (hlong : 32 ≤ long)
    (rest : Bytes) :
    scanAnts long (printItems ((es.map AntEntry.members).map Doc.obj) ++ rest) =
      es.map scanned ++ scanAnts long rest := by
  induction es with
  | nil => exact scanAnts_other (by decide) rest
  | cons e es ih =>
      obtain ⟨he, hes⟩ := List.forall_mem_cons.mp hes
      rw [List.map_cons, List.map_cons, printItems, List.cons_append, List.append_assoc,
        scanAnts_other (by decide), scanAnts_entry he hlong, ih hes]
      rfl

variable (r : Ground.Stats.RxAnt)

/-- The pass over a line of wfb_rx takes its antennas, one by one. -/
theorem scanAnts_text (hints : ∀ e ∈ r.ant, Ints e.rssi) (hlong : 32 ≤ long) :
    scanAnts long (cstr r.text) = r.ant.map scanned := by
  have hcstr : cstr r.text = r.text := by
    refine cstr_of_free ?_
    rw [Ground.Stats.RxAnt.text, List.mem_append, not_or]
    exact ⟨notMem_print (by decide) (by decide) _ (plain_record r), by decide⟩
  have hhead : scanAnts long r.text =
      scanAnts long (print (.arr ((r.ant.map AntEntry.members).map Doc.obj)) ++
        (printMembers (r.members.drop 6) ++ ['\n'])) := by
    refine scanAnts_skips ?_
    intro key hkey f hf
    have hname : ∀ key ∈ ["rssi".toList, "id".toList], PlainText key ∧ key ≠ [] ∧ "ant".toList ≠ key ∧
        key ∉ ["ts_ms".toList, "type".toList, "rx_ant".toList, "ver".toList, "seq".toList,
          "interval_ms".toList] := by decide
    obtain ⟨hplain, hne, hant, hno⟩ := hname key hkey
    have hno' : key ∉ textsMembers (r.members.take 5) := hno
    refine (hf.upTo hplain hne ['\n'] hno' (plain_record r)).trans ?_
    rw [hf.quoted hplain hne (by decide) hant (by intro c hc; cases hc; rfl), hf.other (by decide)]
    rfl
  have htail : scanAnts long (printMembers (r.members.drop 6) ++ ['\n']) = [] := by
    have hplain : PlainMembers (r.members.drop 6) := ⟨by decide, plain_pkt r, trivial⟩
    have hno : ∀ key ∈ ["rssi".toList, "id".toList], key ∉ textsMembers (r.members.drop 6) := by
      show ∀ key ∈ _, key ∉ textsMembers (Ground.Stats.RxAnt.quiet.members.drop 6)
      decide
    rw [scanAnts_members hplain hno, scanAnts_eq]
    rfl
  rw [hcstr, hhead]
  cases hes : r.ant with
  | nil =>
      show scanAnts long ('[' :: ']' :: (printMembers (r.members.drop 6) ++ ['\n'])) = []
      rw [scanAnts_other (by decide), scanAnts_other (by decide), htail]
  | cons e es =>
      rw [hes] at hints
      have hitems := scanAnts_items hints hlong (printMembers (r.members.drop 6) ++ ['\n'])
      rw [htail, List.append_nil, List.map_cons, List.map_cons, printItems, List.cons_append,
        scanAnts_other (by decide)] at hitems
      rw [List.map_cons, List.map_cons, print, List.cons_append, scanAnts_other (by decide), hitems]

end Text

/-! ## The score of a record -/

section Score

open Ground.Stats

/-- The vehicle's name of an antenna. -/
def antName (i : UInt64) : String := String.ofList (hex i.toNat)

theorem antName_injective : Function.Injective antName :=
  fun _ _ h => UInt64.toNat_inj.mp (hex_injective (String.ofList_injective h))

theorem antName_ne (i : UInt64) : antName i ≠ "" := by
  intro h
  have hnil : hex i.toNat = [] := String.ofList_injective h
  exact Nat.toDigits_ne_nil hnil

/-- The antennas of a record: the first eight ids, each once, with the best of its averages. -/
structure ShowsAntennas (r : Ground.Stats.RxAnt) (ants : List (String × ℤ)) : Prop where
  ids : ants.map Prod.fst = ((r.ant.map (·.id)).eraseDups.take antMax).map antName
  once : (ants.map Prod.fst).Nodup
  top : ∀ i v, (antName i, v) ∈ ants → IsGreatest {a | ∃ e ∈ r.ant, e.id = i ∧ e.rssi.avg = a} v

theorem showsAntennas (r : Ground.Stats.RxAnt) :
    ShowsAntennas r (antSlots (r.ant.map fun e => (antName e.id, e.rssi.avg))) := by
  have hne : ∀ x ∈ r.ant.map fun e => (antName e.id, e.rssi.avg), x.1 ≠ "" := by
    intro x hx
    obtain ⟨e, -, rfl⟩ := List.mem_map.mp hx
    exact antName_ne e.id
  obtain ⟨hids, htop⟩ := antSlots_lists hne
  have hnames : (r.ant.map fun e => (antName e.id, e.rssi.avg)).map Prod.fst =
      (r.ant.map (·.id)).map antName := by
    rw [List.map_map, List.map_map]
    rfl
  rw [hnames] at hids
  constructor
  · rw [hids, eraseDups_map antName_injective, List.map_take]
  · rw [hids]
    exact (nodup_eraseDups _).sublist (List.take_sublist _ _)
  · intro i v hv
    have hset : {a | (antName i, a) ∈ r.ant.map fun e => (antName e.id, e.rssi.avg)} =
        {a | ∃ e ∈ r.ant, e.id = i ∧ e.rssi.avg = a} := by
      ext a
      simp only [Set.mem_ofPred_eq, List.mem_map, Prod.mk.injEq, antName_injective.eq_iff]
    exact hset ▸ htop _ hv

theorem antsRead_scanned (es : List Ground.Stats.AntEntry) :
    antsRead (es.map scanned) = es.map fun e => (antName e.id, e.rssi.avg, e.rssi.max) := by
  induction es with
  | nil => rfl
  | cons e es ih =>
      rw [List.map_cons, List.map_cons, ← ih]
      rfl

/-- The best average is one of the record's, and none is better. -/
theorem rawRssi_bestAvg {es : List Ground.Stats.AntEntry} (hes : es ≠ []) :
    IsGreatest {a : ℚ | ∃ e ∈ es, (e.rssi.avg : ℚ) = a}
      (rawRssi .bestAvg (es.map fun e => (antName e.id, e.rssi.avg, e.rssi.max))) := by
  have havgs : ((es.map fun e => (antName e.id, e.rssi.avg, e.rssi.max)).map (·.2.1)) =
      es.map (·.rssi.avg) := by
    rw [List.map_map]
    rfl
  have hne : es.map (·.rssi.avg) ≠ [] := fun h => hes (List.map_eq_nil_iff.mp h)
  obtain ⟨hmem, hle⟩ := best_greatest hne
  rw [rawRssi, havgs]
  constructor
  · obtain ⟨e, he, havg⟩ := List.mem_map.mp hmem
    exact ⟨e, he, by rw [havg]⟩
  · rintro a ⟨e, he, rfl⟩
    exact_mod_cast hle (List.mem_map_of_mem he)

variable {long : ℕ}

/-- Two antennas, one of them heard on two rungs. -/
def rungs : Ground.Stats.RxAnt :=
  let entry (mcs : UInt8) (id : UInt64) (avg : ℤ) : Ground.Stats.AntEntry :=
    { freq := 5745, mcs, bw := 20, id, pkts := 40, rssi := ⟨avg - 9, avg, avg + 6⟩, snr := ⟨18, 24, 30⟩ }
  { Ground.Stats.RxAnt.quiet with
    ant := [entry 2 0x1a (-61), entry 2 0x1b (-58), entry 4 0x1a (-55)], uniq := 100, lost := 3 }

end Score

end Waybeam.Link
