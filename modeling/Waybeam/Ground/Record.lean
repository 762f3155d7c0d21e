/-
# `Waybeam.Ground.Record` — the record of wfb_rx and what is read of it

At the end of each interval wfb_rx prints one line for its antennas and its packets:

    {"ts_ms":..,"type":"rx_ant","ver":1,"seq":..,"interval_ms":..,
     "ant":[{"freq":..,"mcs":..,"bw":..,"id":"..","pkts":..,"rssi":{..},"snr":{..}},..],
     "pkt":{"all":..,..,"uniq":..,..,"lost":..,..}}

The supervisor looks for keys in the bytes.  What it picks is what was printed under them
(`readAnts_text`, `recCount_text`): no key is found too early, since the id of an antenna has
only hexadecimal digits.
-/
import Waybeam.Ground.Query
import Waybeam.Ground.Slice

namespace Waybeam.Ground.Stats

open Text Doc

/-! ## The record -/

/-- `"%x"` -/
def hex (n : ℕ) : Bytes := Nat.toDigits 16 n

/-- The values of an interval. -/
structure Level where
  min : ℤ
  avg : ℤ
  max : ℤ

/-- What an antenna received at one frequency, MCS and bandwidth. -/
structure AntEntry where
  freq : UInt16
  mcs : UInt8
  bw : UInt8
  id : UInt64
  pkts : ℤ
  rssi : Level
  snr : Level

/-- A record of wfb_rx. -/
structure RxAnt where
  tsMs : UInt64
  seq : UInt64
  intervalMs : ℤ
  ant : List AntEntry
  all : UInt32
  bytes : UInt32
  decErr : UInt32
  session : UInt32
  sessionPlain : UInt32
  data : UInt32
  uniq : UInt32
  fecRecovered : UInt32
  lost : UInt32
  bad : UInt32
  outgoing : UInt32
  outgoingBytes : UInt32
  diversity : UInt32
  modeMismatch : UInt32
  adapters : UInt32

/-- `"key":%u` -/
def unsigned (key : String) (n : ℕ) : Bytes × Doc := (key.toList, .prim (decimal n))

/-- `"key":%d` -/
def integer (key : String) (l : ℤ) : Bytes × Doc := (key.toList, .prim (signed l))

/-- `"key":"%s"` -/
def string (key : String) (s : Bytes) : Bytes × Doc := (key.toList, .str s)

def Level.members (l : Level) : List (Bytes × Doc) :=
  [integer "min" l.min, integer "avg" l.avg, integer "max" l.max]

def AntEntry.members (e : AntEntry) : List (Bytes × Doc) :=
  [unsigned "freq" e.freq.toNat, unsigned "mcs" e.mcs.toNat, unsigned "bw" e.bw.toNat,
    string "id" (hex e.id.toNat), integer "pkts" e.pkts, ("rssi".toList, .obj e.rssi.members),
    ("snr".toList, .obj e.snr.members)]

namespace RxAnt

variable (r : RxAnt)

/-- The packet counts. -/
def pkt : List (Bytes × Doc) :=
  [unsigned "all" r.all.toNat, unsigned "bytes" r.bytes.toNat, unsigned "dec_err" r.decErr.toNat,
    unsigned "session" r.session.toNat, unsigned "session_plain" r.sessionPlain.toNat,
    unsigned "data" r.data.toNat, unsigned "uniq" r.uniq.toNat,
    unsigned "fec_recovered" r.fecRecovered.toNat, unsigned "lost" r.lost.toNat,
    unsigned "bad" r.bad.toNat, unsigned "outgoing" r.outgoing.toNat,
    unsigned "outgoing_bytes" r.outgoingBytes.toNat, unsigned "diversity" r.diversity.toNat,
    unsigned "mode_mismatch" r.modeMismatch.toNat, unsigned "adapters" r.adapters.toNat]

/-- The record as a document. -/
def members : List (Bytes × Doc) :=
  [unsigned "ts_ms" r.tsMs.toNat, string "type" "rx_ant".toList, unsigned "ver" 1,
    unsigned "seq" r.seq.toNat, integer "interval_ms" r.intervalMs,
    ("ant".toList, .arr ((r.ant.map AntEntry.members).map Doc.obj)), ("pkt".toList, .obj r.pkt)]

/-- The line. -/
def text : Bytes := print (.obj r.members) ++ ['\n']

/-- What is sent: a line that does not fit is lost. -/
def datagram : Option Bytes := if r.text.length < 4096 then some r.text else none

/-- An interval in which nothing was heard. -/
def quiet : RxAnt where
  tsMs := 0
  seq := 0
  intervalMs := 100
  ant := []
  all := 0
  bytes := 0
  decErr := 0
  session := 0
  sessionPlain := 0
  data := 0
  uniq := 0
  fecRecovered := 0
  lost := 0
  bad := 0
  outgoing := 0
  outgoingBytes := 0
  diversity := 0
  modeMismatch := 0
  adapters := 1

end RxAnt

/-! ## Plain texts -/

theorem plainText_decimal (n : ℕ) : PlainText (decimal n) := by
  intro c hc
  have hdig := isDigit_of_mem_decimal hc
  simp [plainChar, Char.isAlphanum, hdig]

theorem plainText_signed (l : ℤ) : PlainText (signed l) := by
  cases l with
  | ofNat n => exact plainText_decimal n
  | negSucc n => exact List.forall_mem_cons.mpr ⟨by decide, plainText_decimal (n + 1)⟩

theorem signed_ne_nil (l : ℤ) : signed l ≠ [] := by
  cases l with
  | ofNat n => exact decimal_ne_nil n
  | negSucc n => exact List.cons_ne_nil _ _

/-- The digits of a hexadecimal number. -/
theorem mem_hex {n : ℕ} {c : Char} (h : c ∈ hex n) : c ∈ "0123456789abcdef".toList := by
  induction n using Nat.strongRecOn with
  | ind n ih =>
      have hdigit : ∀ d < 16, Nat.digitChar d ∈ "0123456789abcdef".toList := by decide
      rw [hex, Nat.toDigits_eq_if (by decide)] at h
      split at h
      · next hlt => exact List.mem_singleton.mp h ▸ hdigit n hlt
      · next hge =>
          rcases List.mem_append.mp h with h | h
          · exact ih (n / 16) (Nat.div_lt_self (by omega) (by decide)) h
          · exact List.mem_singleton.mp h ▸ hdigit _ (Nat.mod_lt n (by decide))

/-- Different numbers have different digits. -/
theorem hex_injective : Function.Injective hex := by
  have hdigit : ∀ d < 16, ∀ d' < 16, Nat.digitChar d = Nat.digitChar d' → d = d' := by decide
  have hne (n : ℕ) : 0 < (Nat.toDigits 16 n).length := List.length_pos_iff.mpr Nat.toDigits_ne_nil
  intro m
  induction m using Nat.strongRecOn with
  | ind m ih =>
      intro n h
      rw [hex, hex, Nat.toDigits_eq_if (by decide), Nat.toDigits_eq_if (n := n) (by decide)] at h
      by_cases hm : m < 16
      · by_cases hn : n < 16
        · rw [if_pos hm, if_pos hn] at h
          exact hdigit m hm n hn (List.singleton_inj.mp h)
        · rw [if_pos hm, if_neg hn] at h
          have hlen := congrArg List.length h
          have hpos := hne (n / 16)
          simp only [List.length_append, List.length_singleton] at hlen
          omega
      · by_cases hn : n < 16
        · rw [if_neg hm, if_pos hn] at h
          have hlen := congrArg List.length h
          have hpos := hne (m / 16)
          simp only [List.length_append, List.length_singleton] at hlen
          omega
        · rw [if_neg hm, if_neg hn] at h
          obtain ⟨hhigh, hlow⟩ := List.append_inj' h rfl
          have hquot : m / 16 = n / 16 := ih (m / 16) (Nat.div_lt_self (by omega) (by decide)) hhigh
          have hrem : m % 16 = n % 16 :=
            hdigit _ (Nat.mod_lt m (by decide)) _ (Nat.mod_lt n (by decide)) (List.singleton_inj.mp hlow)
          omega

theorem plainText_hex (n : ℕ) : PlainText (hex n) := by
  have hall : ∀ c ∈ "0123456789abcdef".toList, plainChar c = true := by decide
  exact fun c hc => hall c (mem_hex hc)

/-- A text with another character is no hexadecimal number. -/
theorem hex_ne {n : ℕ} {s : Bytes} (h : ∃ c ∈ s, c ∉ "0123456789abcdef".toList) : hex n ≠ s := by
  rintro rfl
  obtain ⟨c, hc, hno⟩ := h
  exact hno (mem_hex hc)

theorem plain_unsigned {key : String} (h : PlainText key.toList) (n : ℕ) {ms : List (Bytes × Doc)} :
    PlainMembers (unsigned key n :: ms) ↔ PlainMembers ms :=
  and_iff_right h |>.trans (and_iff_right ⟨decimal_ne_nil n, plainText_decimal n⟩)

theorem plain_integer {key : String} (h : PlainText key.toList) (l : ℤ) {ms : List (Bytes × Doc)} :
    PlainMembers (integer key l :: ms) ↔ PlainMembers ms :=
  and_iff_right h |>.trans (and_iff_right ⟨signed_ne_nil l, plainText_signed l⟩)

theorem plain_level (l : Level) : PlainMembers l.members := by
  rw [Level.members, plain_integer (by decide), plain_integer (by decide), plain_integer (by decide)]
  trivial

theorem plain_entry (e : AntEntry) : PlainMembers e.members := by
  rw [AntEntry.members, plain_unsigned (by decide), plain_unsigned (by decide),
    plain_unsigned (by decide)]
  have hnames : PlainText "id".toList ∧ PlainText "rssi".toList ∧ PlainText "snr".toList := by decide
  obtain ⟨hid, hrssi, hsnr⟩ := hnames
  refine ⟨hid, plainText_hex _, ?_⟩
  exact (plain_integer (by decide) e.pkts).mpr
    ⟨hrssi, plain_level e.rssi, hsnr, plain_level e.snr, trivial⟩

theorem plain_entries (es : List AntEntry) :
    PlainItems ((es.map AntEntry.members).map Doc.obj) := by
  induction es with
  | nil => trivial
  | cons e es ih => exact ⟨plain_entry e, ih⟩

variable (r : RxAnt)

theorem plain_pkt : PlainMembers r.pkt := by
  simp only [RxAnt.pkt]
  iterate 15 rw [plain_unsigned (by decide)]
  trivial

theorem plain_record : PlainMembers r.members := by
  have hnames : PlainText "type".toList ∧ PlainText "rx_ant".toList ∧ PlainText "ant".toList ∧
      PlainText "pkt".toList := by decide
  obtain ⟨htype, hrx, hant, hpkt⟩ := hnames
  rw [RxAnt.members, plain_unsigned (by decide)]
  refine ⟨htype, hrx, ?_⟩
  rw [plain_unsigned (by decide), plain_unsigned (by decide), plain_integer (by decide)]
  exact ⟨hant, plain_entries r.ant, hpkt, plain_pkt r, trivial⟩

/-! ## What is read -/

/-- What the supervisor has of an entry. -/
def AntEntry.read (e : AntEntry) : Ant where
  rssiAvg := some (i32 e.rssi.avg)
  mcs := some (e.mcs.toNat : ℤ)
  pkts := some (i32 e.pkts)
  id := some (hex e.id.toNat)

theorem hex_length (i : UInt64) : (hex i.toNat).length ≤ 16 :=
  (Nat.length_toDigits_le_iff (by decide) (by decide)).mpr i.toNat_lt

theorem nul_notMem_plain {s : Bytes} (h : PlainText s) : '\x00' ∉ s :=
  fun h0 => absurd (h _ h0) (by decide)

/-- The names in front of a field of an entry, and its id. -/
theorem notMem_entry {e : AntEntry} {key : Bytes} (hfixed : key ∉ ["freq".toList, "mcs".toList,
    "bw".toList, "id".toList]) (hhex : hex e.id.toNat ≠ key) :
    key ∉ textsMembers (e.members.take 4) := by
  show _ ∉ ["freq".toList, "mcs".toList, "bw".toList, "id".toList, hex e.id.toNat]
  intro h
  rcases List.mem_append.mp (show key ∈ ["freq".toList, "mcs".toList, "bw".toList, "id".toList]
    ++ [hex e.id.toNat] from h) with h | h
  · exact hfixed h
  · exact hhex (List.mem_singleton.mp h).symm

theorem readAnt_entry (e : AntEntry) : readAnt (print (.obj e.members)) = e.read := by
  have hplain := plain_entry e
  have hmcs : jsonPickI32 (print (.obj e.members)) "mcs".toList = some (i32 e.mcs.toNat) := by
    have hno : "mcs".toList ∉ textsMembers (e.members.take 1) := by
      show _ ∉ ["freq".toList]
      decide
    have hpick := jsonPickI32_member (l := e.mcs.toNat) (by decide) (by decide) hno hplain []
    rwa [List.append_nil] at hpick
  have hid : jsonPickStr 24 (print (.obj e.members)) "id".toList = some (hex e.id.toNat) := by
    have hno : "id".toList ∉ textsMembers (e.members.take 3) := by
      show _ ∉ ["freq".toList, "mcs".toList, "bw".toList]
      decide
    have hpick : jsonPickStr 24 (print (.obj e.members) ++ []) _ = some ((hex e.id.toNat).take 23) :=
      jsonPickStr_member (by decide) (by decide) hno hplain (plainText_hex _) []
    rwa [List.append_nil, List.take_of_length_le ((hex_length e.id).trans (by decide))] at hpick
  have hpkts : jsonPickI32 (print (.obj e.members)) "pkts".toList = some (i32 e.pkts) := by
    have hno : "pkts".toList ∉ textsMembers (e.members.take 4) :=
      notMem_entry (by decide) (hex_ne ⟨'p', by decide, by decide⟩)
    have hpick := jsonPickI32_member (by decide) (by decide) hno hplain []
    rwa [List.append_nil] at hpick
  have hrssi : jsonSliceObject (print (.obj e.members)) "rssi".toList
      = some (print (.obj e.rssi.members)) := by
    have hno : "rssi".toList ∉ textsMembers (e.members.take 5) := by
      have hfour : "rssi".toList ∉ textsMembers (e.members.take 4) :=
        notMem_entry (by decide) (hex_ne ⟨'r', by decide, by decide⟩)
      intro h
      rcases List.mem_append.mp (show _ ∈ textsMembers (e.members.take 4) ++ ["pkts".toList] from h)
        with h | h
      · exact hfour h
      · exact absurd h (by decide)
    have hslice := jsonSliceObject_obj (by decide) (by decide) hno (plain_level e.rssi) hplain []
    rwa [List.append_nil] at hslice
  have havg : jsonPickI32 (print (.obj e.rssi.members)) "avg".toList = some (i32 e.rssi.avg) := by
    have hno : "avg".toList ∉ textsMembers (e.rssi.members.take 1) := by
      show _ ∉ ["min".toList]
      decide
    have hpick := jsonPickI32_member (by decide) (by decide) hno (plain_level e.rssi) []
    rwa [List.append_nil] at hpick
  have hsmall : i32 e.mcs.toNat = e.mcs.toNat := by
    have hlt := e.mcs.toNat_lt
    exact i32_of_range ⟨by omega, by omega⟩
  rw [readAnt, hrssi, hmcs, hid, hpkts, Option.bind_some, havg, hsmall, Option.map_some,
    cstr_of_free (nul_notMem_plain (plainText_hex _))]
  rfl

/-- What the antennas have in quotes: the names of an entry, and ids. -/
theorem mem_texts_entries {s : Bytes} {es : List AntEntry}
    (h : s ∈ textsItems ((es.map AntEntry.members).map Doc.obj)) :
    s ∈ ["freq".toList, "mcs".toList, "bw".toList, "id".toList, "pkts".toList, "rssi".toList,
      "min".toList, "avg".toList, "max".toList, "snr".toList] ∨ ∃ n, s = hex n := by
  induction es with
  | nil => cases h
  | cons e es ih =>
      have hentry : texts (.obj e.members) = ["freq".toList, "mcs".toList, "bw".toList, "id".toList] ++
          (hex e.id.toNat :: ["pkts".toList, "rssi".toList, "min".toList, "avg".toList, "max".toList,
            "snr".toList, "min".toList, "avg".toList, "max".toList]) := rfl
      rcases List.mem_append.mp (show s ∈ texts (.obj e.members) ++ _ from h) with h | h
      · rw [hentry] at h
        rcases List.mem_append.mp h with h | h
        · exact .inl (List.mem_append_left _ h)
        · rcases List.mem_cons.mp h with rfl | h
          · exact .inr ⟨_, rfl⟩
          · have hnames : ∀ s ∈ ["pkts".toList, "rssi".toList, "min".toList, "avg".toList,
                "max".toList, "snr".toList, "min".toList, "avg".toList, "max".toList],
                s ∈ ["freq".toList, "mcs".toList, "bw".toList, "id".toList, "pkts".toList,
                  "rssi".toList, "min".toList, "avg".toList, "max".toList, "snr".toList] := by
              decide
            exact .inl (hnames s h)
      · exact ih h

/-- A name behind the antennas is not in front of it. -/
theorem notMem_record {key : Bytes} (hfixed : key ∉ ["ts_ms".toList, "type".toList, "rx_ant".toList,
    "ver".toList, "seq".toList, "interval_ms".toList, "ant".toList, "freq".toList, "mcs".toList,
    "bw".toList, "id".toList, "pkts".toList, "rssi".toList, "min".toList, "avg".toList, "max".toList,
    "snr".toList]) (hhex : ∃ c ∈ key, c ∉ "0123456789abcdef".toList) :
    key ∉ textsMembers (r.members.take 6) := by
  intro h
  have hsplit : textsMembers (r.members.take 6) = ["ts_ms".toList, "type".toList, "rx_ant".toList,
      "ver".toList, "seq".toList, "interval_ms".toList, "ant".toList] ++
        (textsItems ((r.ant.map AntEntry.members).map Doc.obj) ++ []) := rfl
  rw [hsplit, List.append_nil] at h
  rcases List.mem_append.mp h with h | h
  · exact hfixed (List.mem_append_left _ h)
  · rcases mem_texts_entries h with h | ⟨n, rfl⟩
    · exact hfixed (List.mem_append_right ["ts_ms".toList, "type".toList, "rx_ant".toList,
        "ver".toList, "seq".toList, "interval_ms".toList, "ant".toList] h)
    · exact hex_ne hhex rfl

/-- The packet counts are picked as they were printed. -/
theorem recCount_text : recCount r.text "uniq".toList = r.uniq ∧ recCount r.text "lost".toList = r.lost := by
  have hpkt : jsonSliceObject r.text "pkt".toList = some (print (.obj r.pkt)) := by
    have hno : "pkt".toList ∉ textsMembers (r.members.take 6) :=
      notMem_record r (by decide) ⟨'p', by decide, by decide⟩
    exact jsonSliceObject_obj (by decide) (by decide) hno (plain_pkt r) (plain_record r) ['\n']
  have huniq : jsonPickU32 (print (.obj r.pkt)) "uniq".toList = some r.uniq := by
    have hno : "uniq".toList ∉ textsMembers (r.pkt.take 6) := by
      show _ ∉ ["all".toList, "bytes".toList, "dec_err".toList, "session".toList,
        "session_plain".toList, "data".toList]
      decide
    have hpick := jsonPickU32_member (by decide) (by decide) hno r.uniq.toNat_lt (plain_pkt r) []
    rwa [List.append_nil, UInt32.ofNat_toNat] at hpick
  have hlost : jsonPickU32 (print (.obj r.pkt)) "lost".toList = some r.lost := by
    have hno : "lost".toList ∉ textsMembers (r.pkt.take 8) := by
      show _ ∉ ["all".toList, "bytes".toList, "dec_err".toList, "session".toList,
        "session_plain".toList, "data".toList, "uniq".toList, "fec_recovered".toList]
      decide
    have hpick := jsonPickU32_member (by decide) (by decide) hno r.lost.toNat_lt (plain_pkt r) []
    rwa [List.append_nil, UInt32.ofNat_toNat] at hpick
  rw [recCount, recCount, hpkt, Option.bind_some, Option.bind_some, huniq, hlost]
  exact ⟨rfl, rfl⟩

/-- So are the antennas, entry by entry. -/
theorem readAnts_text : readAnts r.text = r.ant.map AntEntry.read := by
  have hant : jsonSliceObject r.text "ant".toList
      = some (print (.arr ((r.ant.map AntEntry.members).map Doc.obj))) := by
    have hno : "ant".toList ∉ textsMembers (r.members.take 5) := by
      show _ ∉ ["ts_ms".toList, "type".toList, "rx_ant".toList, "ver".toList, "seq".toList,
        "interval_ms".toList]
      decide
    exact jsonSliceObject_arr (by decide) (by decide) hno (plain_entries r.ant) (plain_record r) ['\n']
  rw [readAnts, hant]
  show (objects 0 [] _).map readAnt = _
  rw [objects_print (plain_entries r.ant), List.map_map, List.map_map]
  refine List.map_congr_left ?_
  intro e _
  exact readAnt_entry e

/-- A line of wfb_rx is taken for one. -/
theorem isRxAnt_text : isRxAnt r.text = true := by
  have hshape : ∃ rest, r.text = "\x7b\"ts_ms\":".toList ++ (decimal r.tsMs.toNat ++
      (",\"type\":\"rx_ant\"".toList ++ rest)) := by
    refine ⟨printMembers (r.members.drop 2) ++ ['\n'], ?_⟩
    show print (.obj r.members) ++ ['\n'] = _
    rw [RxAnt.members, unsigned, print, List.cons_append, List.append_assoc, List.cons_append,
      List.append_assoc]
    rfl
  obtain ⟨rest, hrest⟩ := hshape
  have hcstr : cstr r.text = "\x7b\"ts_ms\":".toList ++ (decimal r.tsMs.toNat ++
      (",\"type\":\"rx_ant\"".toList ++ cstr rest)) := by
    have hdigits : ∀ c ∈ decimal r.tsMs.toNat, (c ≠ '\x00' : Bool) = true := by
      intro c hc
      rw [decide_eq_true_eq]
      rintro rfl
      exact nul_notMem_plain (plainText_decimal _) hc
    rw [hrest, cstr, List.takeWhile_append_of_pos (by decide), List.takeWhile_append_of_pos hdigits,
      List.takeWhile_append_of_pos (by decide)]
    rfl
  have hquote : '"' ∉ decimal r.tsMs.toNat := by
    intro h
    exact absurd (isDigit_of_mem_decimal h) (by decide)
  have hdigits : Avoids "\"type\":\"rx_ant\"".toList (decimal r.tsMs.toNat) :=
    avoids_of_notMem "type\":\"rx_ant\"".toList hquote
  rw [isRxAnt, contains, hcstr, behind_avoids (by decide), behind_avoids hdigits]
  rfl

end Waybeam.Ground.Stats
