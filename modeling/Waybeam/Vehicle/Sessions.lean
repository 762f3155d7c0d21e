/-
# `Waybeam.Vehicle.Sessions` — the numbered session directories on the SD card

The logger opens a directory `NNNNNN_<stamp>_<pid>` per session and keeps the newest.  The
clock may go back on a cold boot, so the number and not the stamp says what is old:

    logger_next_seq       one more than `.seq` and every number in a name
    logger_prune          from ten directories on: legacy names first, then the lowest name
    logger_open_session   the number, the prune, then `mkdir`

Nothing of this may stop the control loop: a write may fail, a directory may refuse to go,
and the prune makes at most fourteen turns.  Reading the directory and the counter works.
-/
import Mathlib.Data.List.Induction
import Mathlib.Data.List.Nodup
import Mathlib.Data.List.Perm.Basic
import Waybeam.Machine
import Waybeam.Numeric
import Waybeam.Scrape

namespace Waybeam.Vehicle.Logger

open Text

/-- `LOGGER_KEEP_SESSIONS` -/
def keepSessions : ℕ := 10

/-! ## The directory -/

/-- What `readdir` says of an entry, and `lstat`; a `d_name` has at most 255 characters, so the
buffers of `logger_prune` cut none. -/
structure Entry where
  name : Bytes
  isDir : Bool
  deriving DecidableEq

def dots : List Entry := [⟨".".toList, true⟩, ⟨"..".toList, true⟩]

/-- `<sd_dir>/walkout`, without the two dots: no name twice, none empty. -/
structure Walkout where
  entries : List Entry
  nodup : (entries.map Entry.name).Nodup
  named : ∀ e ∈ entries, e.name ≠ [] ∧ e.name ≠ ".".toList ∧ e.name ≠ "..".toList

/-- The entries that are directories. -/
def Walkout.dirs (w : Walkout) : List Entry := w.entries.filter Entry.isDir

/-- `logger_rm_rf` that succeeded. -/
def Walkout.rmRf (w : Walkout) (victim : Bytes) : Walkout where
  entries := w.entries.filter fun e => decide (e.name ≠ victim)
  nodup := w.nodup.sublist (List.filter_sublist.map Entry.name)
  named e he := w.named e (List.mem_of_mem_filter he)

/-! ## Names and numbers -/

/-- `logger_is_indexed` -/
def loggerIsIndexed (name : Bytes) : Bool :=
  decide (7 ≤ name.length) && decide (name[6]? = some '_') && (name.take 6).all Char.isDigit

/-- The `int` that `fscanf("%d")` and `atoi` read; `long` is the width of that type. -/
def scanInt (long : ℕ) (s : Bytes) : Option ℤ := (strtol long s).map i32

/-- `atoi` of a name. -/
def indexOf (long : ℕ) (name : Bytes) : ℤ := (scanInt long name).getD 0

/-- What `.seq` says; `none` where there is no such file. -/
def seqCounter (long : ℕ) (seq : Option Bytes) : ℤ := (seq.bind (scanInt long)).getD 0

/-- `"%06d"` -/
def sixDigits (n : ℕ) : Bytes := (decimal n).leftpad 6 '0'

/-- The name of a session directory. -/
def sessionName (seq : ℕ) (stamp : Bytes) (pid : ℤ) : Bytes :=
  sixDigits seq ++ '_' :: (stamp ++ '_' :: signed pid)

/-! ## `logger_next_seq` -/

/-- `hi` after an entry; a file counts like a directory. -/
def higher (long : ℕ) (hi : ℤ) (e : Entry) : ℤ :=
  if loggerIsIndexed e.name then
    let v := indexOf long e.name
    if hi < v then v else hi
  else hi

/-- The number it returns, for the order in which `readdir` lists the entries. -/
def loggerNextSeq (long : ℕ) (seq : Option Bytes) (order : List Entry) : ℤ :=
  order.foldl (higher long) (max 0 (seqCounter long seq)) + 1

/-! ## `logger_prune` -/

/-- What one pass over the directory has found so far. -/
structure Found where
  count : ℕ := 0
  oldestIdx : Bytes := []
  legacy : Bytes := []

/-- One entry of the pass; `strcmp` is the order of the lists. -/
def Found.see (f : Found) (e : Entry) : Found :=
  if e.name = ".".toList ∨ e.name = "..".toList then f
  else if e.isDir = false then f
  else if loggerIsIndexed e.name = false then
    { f with
      count := f.count + 1
      legacy := if f.legacy = [] then e.name else f.legacy }
  else
    { f with
      count := f.count + 1
      oldestIdx := if f.oldestIdx = [] ∨ e.name < f.oldestIdx then e.name else f.oldestIdx }

def scanDirs (order : List Entry) : Found := order.foldl Found.see {}

/-- `victim`; empty where there is none. -/
def Found.victim (f : Found) : Bytes := if f.legacy ≠ [] then f.legacy else f.oldestIdx

/-- How the card answers in one session: the order of each listing, and which removals work. -/
structure Card where
  readdir : ℕ → List Entry → List Entry
  removes : ℕ → Bool
  readdir_perm : ∀ i l, (readdir i l).Perm l

/-- A removal that is tried: the directory before it, and the name. -/
structure Removal where
  before : Walkout
  victim : Bytes

/-- The turns of `logger_prune` that are left, from turn `i` on. -/
def pruneTurns (c : Card) : ℕ → ℕ → Bytes → Walkout → Walkout × List Removal
  | 0, _, _, w => (w, [])
  | guard + 1, i, lastVictim, w =>
      let f := scanDirs (c.readdir (i + 1) (dots ++ w.entries))
      if f.count < keepSessions then (w, [])
      else if f.victim = [] then (w, [])
      else if f.victim = lastVictim then (w, [])
      else
        let w' := if c.removes i then w.rmRf f.victim else w
        let r := pruneTurns c guard (i + 1) f.victim w'
        (r.1, ⟨w, f.victim⟩ :: r.2)

/-- `logger_prune`: what it leaves, and the removals it tried. -/
def loggerPrune (c : Card) (w : Walkout) : Walkout × List Removal :=
  pruneTurns c (keepSessions + 4) 0 [] w

/-! ## Sessions -/

/-- The SD card as the logger knows it. -/
structure Sd where
  seq : Option Bytes
  walkout : Walkout

/-- A call of `logger_open_session`, and what its system calls answer. -/
structure Opening where
  enabled : Bool := true
  sdReady : Bool := true
  /-- the base directory is there, or could be made -/
  baseMade : Bool := true
  card : Card
  /-- how much of the new `.seq` reaches the card; `none` where it cannot be opened -/
  seqWritten : Option ℕ
  stamp : Bytes
  pid : ℤ
  mkdir : Bool := true

/-- `mkdir` of a session directory, unless there is such an entry. -/
def Walkout.mkdir (w : Walkout) (name : Bytes) (hnew : name ∉ w.entries.map Entry.name)
    (hname : name ≠ [] ∧ name ≠ ".".toList ∧ name ≠ "..".toList) : Walkout where
  entries := ⟨name, true⟩ :: w.entries
  nodup := List.nodup_cons.mpr ⟨hnew, w.nodup⟩
  named e he := by
    rcases List.mem_cons.mp he with rfl | he
    · exact hname
    · exact w.named e he

theorem sessionName_named (seq : ℕ) (stamp : Bytes) (pid : ℤ) :
    sessionName seq stamp pid ≠ [] ∧ sessionName seq stamp pid ≠ ".".toList ∧
      sessionName seq stamp pid ≠ "..".toList := by
  have hmem : '_' ∈ sessionName seq stamp pid :=
    List.mem_append_right _ List.mem_cons_self
  refine ⟨?_, ?_, ?_⟩ <;>
  · intro h
    rw [h] at hmem
    exact absurd hmem (by decide)

/-- The directory of a session: made, or there already, which is no error. -/
def Opening.makeDir (o : Opening) (next : ℕ) (w : Walkout) : Walkout × List Bytes :=
  let name := sessionName next o.stamp o.pid
  if h : name ∈ w.entries.map Entry.name then (w, [name]) -- `EEXIST`
  else if o.mkdir then (w.mkdir name h (sessionName_named ..), [name])
  else (w, [])

/-- `logger_open_session`: what it leaves on the card, and the name of the directory it opened. -/
def openSession (long : ℕ) (s : Sd) (o : Opening) : Sd × List Bytes :=
  if (o.enabled && o.sdReady && o.baseMade) = false then (s, [])
  else
    let next := (loggerNextSeq long s.seq (o.card.readdir 0 (dots ++ s.walkout.entries))).toNat
    let seq := match o.seqWritten with
      | none => s.seq
      | some k => some ((sixDigits next ++ ['\n']).take k)
    let r := o.makeDir next (loggerPrune o.card s.walkout).1
    (⟨seq, r.1⟩, r.2)

/-- Session after session. -/
def sessions (long : ℕ) : Machine Sd Opening Bytes where
  step := openSession long

/-! ## Names are ordered like numbers -/

theorem readInt_digits {ds rest : Bytes} (hne : ds ≠ []) (hds : ∀ c ∈ ds, c.isDigit)
    (hrest : Ends rest) : readInt (ds ++ rest) = some ((Nat.ofDigitChars 10 ds 0 : ℤ), rest) := by
  obtain ⟨d, ds, rfl⟩ := List.exists_cons_of_ne_nil hne
  rw [List.cons_append, readInt_digit (hds d List.mem_cons_self), ← List.cons_append, magnitude,
    takeWhile_run hds hrest, dropWhile_run hds hrest]
  rfl

theorem ofDigitChars_cons_zero (c : Char) (cs : Bytes) : Nat.ofDigitChars 10 (c :: cs) 0 =
    10 ^ cs.length * (c.toNat - '0'.toNat) + Nat.ofDigitChars 10 cs 0 := by
  rw [Nat.ofDigitChars_cons, Nat.ofDigitChars_eq_ofDigitChars_zero, Nat.mul_zero, Nat.zero_add]

theorem digit_range {c : Char} (hc : c.isDigit) : '0'.toNat ≤ c.toNat ∧ c.toNat - '0'.toNat ≤ 9 := by
  rw [Char.isDigit, Bool.and_eq_true, decide_eq_true_eq, decide_eq_true_eq] at hc
  have h9 : c.toNat ≤ 57 := hc.2
  have h0 : '0'.toNat = 48 := rfl
  exact ⟨hc.1, by omega⟩

theorem ofDigitChars_lt {ds : Bytes} (hds : ∀ c ∈ ds, c.isDigit) :
    Nat.ofDigitChars 10 ds 0 < 10 ^ ds.length := by
  induction ds with
  | nil => decide
  | cons c ds ih =>
      have htail := ih fun d hd => hds d (List.mem_cons_of_mem _ hd)
      have hhead := (digit_range (hds c List.mem_cons_self)).2
      have hmul := Nat.mul_le_mul_left (10 ^ ds.length) hhead
      rw [ofDigitChars_cons_zero, List.length_cons, pow_succ]
      omega

/-- Of two strings of digits of one length the smaller number stands first, whatever follows. -/
theorem lt_of_ofDigitChars_lt {as bs : Bytes} (hlen : as.length = bs.length)
    (has : ∀ c ∈ as, c.isDigit) (hbs : ∀ c ∈ bs, c.isDigit)
    (h : Nat.ofDigitChars 10 as 0 < Nat.ofDigitChars 10 bs 0) (ra rb : Bytes) :
    as ++ ra < bs ++ rb := by
  induction as generalizing bs with
  | nil =>
      rw [List.length_eq_zero_iff.mp hlen.symm] at h
      exact absurd h (lt_irrefl _)
  | cons a as ih =>
      obtain ⟨b, bs, rfl⟩ := List.exists_cons_of_length_eq_add_one hlen.symm
      have hlen : as.length = bs.length := Nat.succ.inj hlen
      rw [ofDigitChars_cons_zero, ofDigitChars_cons_zero, hlen] at h
      rw [List.cons_append, List.cons_append, List.cons_lt_cons_iff]
      have htail := ofDigitChars_lt fun d hd => hbs d (List.mem_cons_of_mem _ hd)
      by_cases hab : a = b
      · refine .inr ⟨hab, ih hlen (fun d hd => has d (List.mem_cons_of_mem _ hd))
          (fun d hd => hbs d (List.mem_cons_of_mem _ hd)) ?_⟩
        rw [hab] at h
        omega
      · refine .inl (Char.not_le.mp fun hge => ?_)
        have hlt : b.toNat < a.toNat :=
          lt_of_le_of_ne hge fun heq => hab (Char.toNat_inj.mp heq.symm)
        have hdigit : b.toNat - '0'.toNat + 1 ≤ a.toNat - '0'.toNat := by
          have := (digit_range (hbs b List.mem_cons_self)).1
          omega
        -- one more in front outweighs all that follows
        have hmul := Nat.mul_le_mul_left (10 ^ bs.length) hdigit
        rw [Nat.mul_succ] at hmul
        omega

/-- An indexed name: six digits, an underscore, and anything. -/
theorem loggerIsIndexed_iff {name : Bytes} : loggerIsIndexed name ↔
    ∃ ds rest, name = ds ++ '_' :: rest ∧ ds.length = 6 ∧ ∀ c ∈ ds, c.isDigit := by
  rw [loggerIsIndexed, Bool.and_eq_true, Bool.and_eq_true, decide_eq_true_eq, decide_eq_true_eq,
    List.all_eq_true]
  constructor
  · rintro ⟨⟨hlen, hbar⟩, hdigits⟩
    obtain ⟨hin, hget⟩ := List.getElem?_eq_some_iff.mp hbar
    refine ⟨name.take 6, name.drop 7, ?_, by rw [List.length_take]; omega, hdigits⟩
    rw [← hget, ← List.drop_eq_getElem_cons hin, List.take_append_drop]
  · rintro ⟨ds, rest, rfl, hlen, hdigits⟩
    refine ⟨⟨?_, ?_⟩, ?_⟩
    · rw [List.length_append, List.length_cons]
      omega
    · rw [← hlen, List.getElem?_append_right le_rfl, Nat.sub_self]
      rfl
    · rw [List.take_left' hlen]
      exact hdigits

variable {long : ℕ}

theorem scanInt_digits (hlong : 32 ≤ long) {ds rest : Bytes} (hne : ds ≠ [])
    (hds : ∀ c ∈ ds, c.isDigit) (hrest : Ends rest) (hlt : Nat.ofDigitChars 10 ds 0 < 2 ^ 31) :
    scanInt long (ds ++ rest) = some (Nat.ofDigitChars 10 ds 0 : ℤ) := by
  have hwide : (2 : ℤ) ^ 31 ≤ 2 ^ (long - 1) := pow_le_pow_right₀ (by decide) (by omega)
  have hlt : (Nat.ofDigitChars 10 ds 0 : ℤ) < 2 ^ 31 := by exact_mod_cast hlt
  rw [scanInt, strtol, readInt_digits hne hds hrest, Option.map_some, Option.map_some,
    clampLong_of_lt (by omega) (by omega), i32_of_range ⟨by omega, hlt⟩]

theorem indexOf_digits (hlong : 32 ≤ long) {ds rest : Bytes} (hlen : ds.length = 6)
    (hds : ∀ c ∈ ds, c.isDigit) :
    indexOf long (ds ++ '_' :: rest) = Nat.ofDigitChars 10 ds 0 ∧
      Nat.ofDigitChars 10 ds 0 < 1000000 := by
  have hlt : Nat.ofDigitChars 10 ds 0 < 10 ^ ds.length := ofDigitChars_lt hds
  rw [hlen] at hlt
  have hne : ds ≠ [] := by
    rintro rfl
    cases hlen
  rw [indexOf, scanInt_digits hlong hne hds (ends_cons (by decide)) (by omega)]
  exact ⟨rfl, hlt⟩

/-- `strcmp` finds the lower number first. -/
theorem lt_of_indexOf_lt (hlong : 32 ≤ long) {a b : Bytes} (ha : loggerIsIndexed a)
    (hb : loggerIsIndexed b) (h : indexOf long a < indexOf long b) : a < b := by
  obtain ⟨as, ra, rfl, hla, hda⟩ := loggerIsIndexed_iff.mp ha
  obtain ⟨bs, rb, rfl, hlb, hdb⟩ := loggerIsIndexed_iff.mp hb
  rw [(indexOf_digits hlong hla hda).1, (indexOf_digits hlong hlb hdb).1] at h
  exact lt_of_ofDigitChars_lt (hla.trans hlb.symm) hda hdb (by exact_mod_cast h) _ _

theorem sixDigits_digits (n : ℕ) : ∀ c ∈ sixDigits n, c.isDigit := by
  intro c hc
  rw [sixDigits, List.leftpad] at hc
  rcases List.mem_append.mp hc with hc | hc
  · rw [List.eq_of_mem_replicate hc]
    decide
  · exact isDigit_of_mem_decimal hc

theorem sixDigits_value (n : ℕ) : Nat.ofDigitChars 10 (sixDigits n) 0 = n := by
  rw [sixDigits, List.leftpad, Nat.ofDigitChars_append, Nat.ofDigitChars_replicate_zero,
    Nat.mul_zero]
  exact Nat.ofDigitChars_ten_toDigits

theorem sixDigits_length {n : ℕ} (hn : n < 1000000) : (sixDigits n).length = 6 := by
  have hle : (decimal n).length ≤ 6 := (Nat.length_toDigits_le_iff (by decide) (by decide)).mpr hn
  rw [sixDigits, List.length_leftpad]
  omega

/-- A session directory has the number it was given. -/
theorem sessionName_indexed (hlong : 32 ≤ long) {n : ℕ} (hn : n < 1000000) (stamp : Bytes) (pid : ℤ) :
    loggerIsIndexed (sessionName n stamp pid) ∧ indexOf long (sessionName n stamp pid) = n := by
  have hlen := sixDigits_length hn
  have hdigits := sixDigits_digits n
  refine ⟨loggerIsIndexed_iff.mpr ⟨_, _, rfl, hlen, hdigits⟩, ?_⟩
  rw [sessionName, (indexOf_digits hlong hlen hdigits).1, sixDigits_value]

/-! ## The next number -/

theorem le_higher (hi : ℤ) (e : Entry) : hi ≤ higher long hi e := by
  unfold higher
  split
  · exact (le_max_left hi (indexOf long e.name)).trans (by rw [max_def_lt])
  · exact le_rfl

theorem indexOf_le_higher (hi : ℤ) {e : Entry} (he : loggerIsIndexed e.name) :
    indexOf long e.name ≤ higher long hi e := by
  rw [higher, if_pos he]
  exact (le_max_right hi (indexOf long e.name)).trans (by rw [max_def_lt])

theorem le_foldl_higher (order : List Entry) (hi : ℤ) : hi ≤ order.foldl (higher long) hi := by
  induction order generalizing hi with
  | nil => exact le_rfl
  | cons e order ih => exact (le_higher hi e).trans (ih _)

theorem indexOf_le_foldl {order : List Entry} {e : Entry} (he : e ∈ order)
    (hidx : loggerIsIndexed e.name) (hi : ℤ) :
    indexOf long e.name ≤ order.foldl (higher long) hi := by
  induction order generalizing hi with
  | nil => cases he
  | cons e' order ih =>
      rcases List.mem_cons.mp he with rfl | he
      · exact (indexOf_le_higher hi hidx).trans (le_foldl_higher order _)
      · exact ih he _

theorem foldl_higher_le {order : List Entry} {hi m : ℤ} (hhi : hi ≤ m)
    (h : ∀ e ∈ order, loggerIsIndexed e.name → indexOf long e.name ≤ m) :
    order.foldl (higher long) hi ≤ m := by
  induction order generalizing hi with
  | nil => exact hhi
  | cons e order ih =>
      refine ih ?_ fun e' he' => h e' (List.mem_cons_of_mem _ he')
      unfold higher
      split
      · next hidx =>
          show (if hi < indexOf long e.name then indexOf long e.name else hi) ≤ m
          split
          · exact h e List.mem_cons_self hidx
          · exact hhi
      · exact hhi

/-- The number is beyond the counter and beyond every number in a name. -/
theorem loggerNextSeq_gt (seq : Option Bytes) (order : List Entry) :
    0 < loggerNextSeq long seq order ∧ seqCounter long seq < loggerNextSeq long seq order ∧
      ∀ e ∈ order, loggerIsIndexed e.name → indexOf long e.name < loggerNextSeq long seq order := by
  have hstart : max 0 (seqCounter long seq) ≤ order.foldl (higher long) (max 0 (seqCounter long seq)) :=
    le_foldl_higher order _
  rw [max_le_iff] at hstart
  refine ⟨by rw [loggerNextSeq]; omega, by rw [loggerNextSeq]; omega, fun e he hidx => ?_⟩
  have hbest : indexOf long e.name ≤ order.foldl (higher long) (max 0 (seqCounter long seq)) :=
    indexOf_le_foldl he hidx _
  rw [loggerNextSeq]
  omega

/-! ## One pass over the directory -/

/-- A directory that the pass counts. -/
def Entry.Counts (e : Entry) : Prop :=
  e.name ≠ ".".toList ∧ e.name ≠ "..".toList ∧ e.isDir = true

instance (e : Entry) : Decidable e.Counts := inferInstanceAs (Decidable (_ ∧ _))

/-- What the pass knows after the entries `es`. -/
structure Sees (f : Found) (es : List Entry) : Prop where
  count : f.count = (es.filter fun e => decide e.Counts).length
  noLegacy : f.legacy = [] → ∀ e ∈ es, e.Counts → loggerIsIndexed e.name
  isLegacy : f.legacy ≠ [] → ∃ e ∈ es, e.Counts ∧ loggerIsIndexed e.name = false ∧ e.name = f.legacy
  noOldest : f.oldestIdx = [] → ∀ e ∈ es, e.Counts → loggerIsIndexed e.name = false
  isOldest : f.oldestIdx ≠ [] → ∃ e ∈ es, e.Counts ∧ loggerIsIndexed e.name ∧ e.name = f.oldestIdx
  oldest : ∀ e ∈ es, e.Counts → loggerIsIndexed e.name → ¬e.name < f.oldestIdx

theorem loggerIsIndexed_ne_nil {name : Bytes} (h : loggerIsIndexed name) : name ≠ [] := by
  rintro rfl
  exact absurd h (by decide)

theorem name_lt_irrefl (a : Bytes) : ¬a < a := List.lt_irrefl a

theorem name_lt_trans {a b c : Bytes} (hab : a < b) (hbc : b < c) : a < c := List.lt_trans hab hbc

/-- An entry that is no directory of its own changes nothing. -/
theorem Found.see_of_not_counts {f : Found} {e : Entry} (h : ¬e.Counts) : f.see e = f := by
  unfold Found.see
  split
  · rfl
  · next hdot =>
      rw [not_or] at hdot
      split
      · rfl
      · next hdir =>
          rw [Bool.not_eq_false] at hdir
          exact absurd ⟨hdot.1, hdot.2, hdir⟩ h

theorem Found.see_legacy {f : Found} {e : Entry} (h : e.Counts)
    (hidx : loggerIsIndexed e.name = false) : f.see e =
      { f with
        count := f.count + 1
        legacy := if f.legacy = [] then e.name else f.legacy } := by
  rw [Found.see, if_neg (not_or.mpr ⟨h.1, h.2.1⟩), if_neg (by rw [h.2.2]; decide), if_pos hidx]

theorem Found.see_indexed {f : Found} {e : Entry} (h : e.Counts) (hidx : loggerIsIndexed e.name) :
    f.see e =
      { f with
        count := f.count + 1
        oldestIdx := if f.oldestIdx = [] ∨ e.name < f.oldestIdx then e.name else f.oldestIdx } := by
  rw [Found.see, if_neg (not_or.mpr ⟨h.1, h.2.1⟩), if_neg (by rw [h.2.2]; decide),
    if_neg (by rw [hidx]; decide)]

/-- What held of the entries before holds of all but the last one. -/
theorem forall_snoc {P : Entry → Prop} {es : List Entry} {e : Entry} (h : ∀ x ∈ es, P x) (he : P e) :
    ∀ x ∈ es ++ [e], P x := by
  intro x hx
  rcases List.mem_append.mp hx with hx | hx
  · exact h x hx
  · rw [List.mem_singleton.mp hx]
    exact he

theorem exists_snoc {P : Entry → Prop} {es : List Entry} (e : Entry) (h : ∃ x ∈ es, P x) :
    ∃ x ∈ es ++ [e], P x := by
  obtain ⟨x, hx, hP⟩ := h
  exact ⟨x, List.mem_append_left _ hx, hP⟩

theorem mem_snoc (es : List Entry) (e : Entry) : e ∈ es ++ [e] :=
  List.mem_append_right _ (List.mem_singleton_self e)

theorem Sees.snoc {f : Found} {es : List Entry} {e : Entry} (h : Sees f es) (hne : e.name ≠ []) :
    Sees (f.see e) (es ++ [e]) := by
  by_cases hcounts : e.Counts
  · have hcount : f.count + 1 = ((es ++ [e]).filter fun e => decide e.Counts).length := by
      rw [List.filter_append, List.filter_singleton, decide_eq_true hcounts, List.length_append,
        ← h.count]
      rfl
    cases hidx : loggerIsIndexed e.name with
    | false =>
        rw [Found.see_legacy hcounts hidx]
        refine ⟨hcount, ?_, ?_, ?_, fun hold => exists_snoc e (h.isOldest hold), ?_⟩
        · intro hnil
          by_cases hlegacy : f.legacy = []
          · exact absurd ((if_pos hlegacy).symm.trans hnil) hne
          · exact absurd ((if_neg hlegacy).symm.trans hnil) hlegacy
        · intro _
          by_cases hlegacy : f.legacy = []
          · exact ⟨e, mem_snoc es e, hcounts, hidx, (if_pos hlegacy).symm⟩
          · show ∃ x ∈ es ++ [e], x.Counts ∧ loggerIsIndexed x.name = false ∧
              x.name = if f.legacy = [] then e.name else f.legacy
            rw [if_neg hlegacy]
            exact exists_snoc e (h.isLegacy hlegacy)
        · exact fun hold => forall_snoc (h.noOldest hold) fun _ => hidx
        · refine forall_snoc h.oldest fun _ hidx' => ?_
          rw [hidx] at hidx'
          cases hidx'
    | true =>
        rw [Found.see_indexed hcounts hidx]
        refine ⟨hcount, ?_, fun hlegacy => exists_snoc e (h.isLegacy hlegacy), ?_, ?_, ?_⟩
        · exact fun hlegacy => forall_snoc (h.noLegacy hlegacy) fun _ => hidx
        · intro hnil
          by_cases hold : f.oldestIdx = [] ∨ e.name < f.oldestIdx
          · exact absurd ((if_pos hold).symm.trans hnil) hne
          · exact absurd (Or.inl ((if_neg hold).symm.trans hnil)) hold
        · intro _
          by_cases hold : f.oldestIdx = [] ∨ e.name < f.oldestIdx
          · exact ⟨e, mem_snoc es e, hcounts, hidx, (if_pos hold).symm⟩
          · show ∃ x ∈ es ++ [e], x.Counts ∧ loggerIsIndexed x.name ∧
              x.name = if f.oldestIdx = [] ∨ e.name < f.oldestIdx then e.name else f.oldestIdx
            rw [if_neg hold]
            exact exists_snoc e (h.isOldest (not_or.mp hold).1)
        · show ∀ x ∈ es ++ [e], x.Counts → loggerIsIndexed x.name →
            ¬x.name < if f.oldestIdx = [] ∨ e.name < f.oldestIdx then e.name else f.oldestIdx
          by_cases hold : f.oldestIdx = [] ∨ e.name < f.oldestIdx
          · rw [if_pos hold]
            refine forall_snoc (fun x hx hxc hxi hlt => ?_) fun _ _ => name_lt_irrefl _
            rcases hold with hnil | hless
            · have := h.noOldest hnil x hx hxc
              rw [hxi] at this
              cases this
            · exact h.oldest x hx hxc hxi (name_lt_trans hlt hless)
          · rw [if_neg hold]
            exact forall_snoc h.oldest fun _ _ => (not_or.mp hold).2
  · rw [Found.see_of_not_counts hcounts]
    refine ⟨?_, ?_, fun hlegacy => exists_snoc e (h.isLegacy hlegacy), ?_,
      fun hold => exists_snoc e (h.isOldest hold), ?_⟩
    · rw [List.filter_append, List.filter_singleton, decide_eq_false hcounts, h.count]
      simp
    · exact fun hlegacy => forall_snoc (h.noLegacy hlegacy) fun hc => absurd hc hcounts
    · exact fun hold => forall_snoc (h.noOldest hold) fun hc => absurd hc hcounts
    · exact forall_snoc h.oldest fun hc => absurd hc hcounts

/-- The whole pass. -/
theorem scanDirs_sees {order : List Entry} (hne : ∀ e ∈ order, e.name ≠ []) :
    Sees (scanDirs order) order := by
  induction order using List.reverseRecOn with
  | nil =>
      refine ⟨rfl, ?_, ?_, ?_, ?_, ?_⟩
      · exact fun _ e he => absurd he List.not_mem_nil
      · exact fun h => absurd rfl h
      · exact fun _ e he => absurd he List.not_mem_nil
      · exact fun h => absurd rfl h
      · exact fun e he => absurd he List.not_mem_nil
  | append_singleton es e ih =>
      rw [scanDirs, List.foldl_append]
      exact (ih fun x hx => hne x (List.mem_append_left _ hx)).snoc (hne e (mem_snoc es e))

/-- What a pass over a whole directory comes to. -/
structure Chooses (w : Walkout) (f : Found) : Prop where
  count : f.count = w.dirs.length
  isDir : f.victim ≠ [] → ∃ e ∈ w.dirs, e.name = f.victim
  exists_victim : w.dirs ≠ [] → f.victim ≠ []
  first : loggerIsIndexed f.victim → ∀ e ∈ w.dirs, loggerIsIndexed e.name ∧ ¬e.name < f.victim

theorem Walkout.mem_dirs {w : Walkout} {e : Entry} : e ∈ w.dirs ↔ e ∈ w.entries ∧ e.isDir = true :=
  List.mem_filter

/-- Among what `readdir` lists, the directories of the logger are what counts. -/
theorem counts_iff {w : Walkout} {e : Entry} :
    (e ∈ dots ++ w.entries ∧ e.Counts) ↔ e ∈ w.dirs := by
  rw [Walkout.mem_dirs, List.mem_append]
  constructor
  · rintro ⟨hmem | hmem, hcounts⟩
    · rcases List.mem_cons.mp hmem with rfl | hmem
      · exact absurd rfl hcounts.1
      · rw [List.mem_singleton.mp hmem] at hcounts
        exact absurd rfl hcounts.2.1
    · exact ⟨hmem, hcounts.2.2⟩
  · rintro ⟨hmem, hdir⟩
    exact ⟨.inr hmem, (w.named e hmem).2.1, (w.named e hmem).2.2, hdir⟩

theorem filter_counts (w : Walkout) :
    (dots ++ w.entries).filter (fun e => decide e.Counts) = w.dirs := by
  have hdots : dots.filter (fun e => decide e.Counts) = [] := by decide
  rw [List.filter_append, hdots, List.nil_append, Walkout.dirs]
  refine List.filter_congr fun e he => ?_
  have hnamed := w.named e he
  rw [Bool.eq_iff_iff, decide_eq_true_eq]
  exact ⟨fun h => h.2.2, fun h => ⟨hnamed.2.1, hnamed.2.2, h⟩⟩

/-- In whatever order the directory is listed. -/
theorem scanDirs_chooses {w : Walkout} {order : List Entry} (hperm : order.Perm (dots ++ w.entries)) :
    Chooses w (scanDirs order) := by
  have hne : ∀ e ∈ order, e.name ≠ [] := by
    intro e he
    rcases List.mem_append.mp (hperm.mem_iff.mp he) with he | he
    · rcases List.mem_cons.mp he with rfl | he
      · decide
      · rw [List.mem_singleton.mp he]
        decide
    · exact (w.named e he).1
  have hsees := scanDirs_sees hne
  have hdirs : ∀ {e}, (e ∈ order ∧ e.Counts) ↔ e ∈ w.dirs := by
    intro e
    rw [hperm.mem_iff, counts_iff]
  refine ⟨?_, fun hvictim => ?_, fun hsome => ?_, fun hidx => ?_⟩
  · rw [hsees.count, (hperm.filter _).length_eq, filter_counts]
  · by_cases hlegacy : (scanDirs order).legacy = []
    · rw [Found.victim, if_neg (not_not.mpr hlegacy)] at hvictim ⊢
      obtain ⟨e, he, hcounts, -, hname⟩ := hsees.isOldest hvictim
      exact ⟨e, hdirs.mp ⟨he, hcounts⟩, hname⟩
    · rw [Found.victim, if_pos hlegacy]
      obtain ⟨e, he, hcounts, -, hname⟩ := hsees.isLegacy hlegacy
      exact ⟨e, hdirs.mp ⟨he, hcounts⟩, hname⟩
  · by_cases hlegacy : (scanDirs order).legacy = []
    · rw [Found.victim, if_neg (not_not.mpr hlegacy)]
      intro hold
      obtain ⟨e, he⟩ := List.exists_mem_of_ne_nil _ hsome
      obtain ⟨he, hcounts⟩ := hdirs.mpr he
      have hyes := hsees.noLegacy hlegacy e he hcounts
      rw [hsees.noOldest hold e he hcounts] at hyes
      cases hyes
    · rw [Found.victim, if_pos hlegacy]
      exact hlegacy
  · by_cases hlegacy : (scanDirs order).legacy = []
    · rw [Found.victim, if_neg (not_not.mpr hlegacy)]
      intro e he
      obtain ⟨he, hcounts⟩ := hdirs.mpr he
      have hyes := hsees.noLegacy hlegacy e he hcounts
      exact ⟨hyes, hsees.oldest e he hcounts hyes⟩
    · rw [Found.victim, if_pos hlegacy] at hidx
      obtain ⟨e, -, -, hno, hname⟩ := hsees.isLegacy hlegacy
      rw [hname, hidx] at hno
      cases hno

/-! ## The prune -/

/-- A removal in the right order: of a directory, a legacy one if there is any, else one with
the lowest number. -/
structure Rightful (long : ℕ) (r : Removal) : Prop where
  isDir : ∃ e ∈ r.before.dirs, e.name = r.victim
  legacyFirst : loggerIsIndexed r.victim → ∀ e ∈ r.before.dirs, loggerIsIndexed e.name
  lowestFirst : loggerIsIndexed r.victim → ∀ e ∈ r.before.dirs, loggerIsIndexed e.name →
    indexOf long r.victim ≤ indexOf long e.name

/-- Somewhere a number at least as high. -/
def Reaches (long : ℕ) (w : Walkout) (n : ℤ) : Prop :=
  ∃ e ∈ w.entries, loggerIsIndexed e.name ∧ n ≤ indexOf long e.name

/-- What a turn that goes on does. -/
theorem pruneTurns_succ (c : Card) (guard i : ℕ) (lastVictim : Bytes) (w : Walkout) :
    (pruneTurns c (guard + 1) i lastVictim w = (w, []) ∧
      (w.dirs.length < keepSessions ∨ ∃ e ∈ w.dirs, e.name = lastVictim)) ∨
    ∃ f, Chooses w f ∧ keepSessions ≤ w.dirs.length ∧ f.victim ≠ [] ∧ f.victim ≠ lastVictim ∧
      pruneTurns c (guard + 1) i lastVictim w =
        ((pruneTurns c guard (i + 1) f.victim (if c.removes i then w.rmRf f.victim else w)).1,
          ⟨w, f.victim⟩ ::
            (pruneTurns c guard (i + 1) f.victim (if c.removes i then w.rmRf f.victim else w)).2) := by
  have hchooses : Chooses w (scanDirs (c.readdir (i + 1) (dots ++ w.entries))) :=
    scanDirs_chooses (c.readdir_perm (i + 1) _)
  rw [pruneTurns]
  generalize scanDirs (c.readdir (i + 1) (dots ++ w.entries)) = f at hchooses ⊢
  by_cases hfew : f.count < keepSessions
  · exact .inl ⟨if_pos hfew, .inl (hchooses.count ▸ hfew)⟩
  · have hmany : keepSessions ≤ w.dirs.length := hchooses.count ▸ not_lt.mp hfew
    have hsome : f.victim ≠ [] := by
      refine hchooses.exists_victim fun hnil => ?_
      rw [hnil] at hmany
      exact absurd hmany (by decide)
    simp only [if_neg hfew, if_neg hsome]
    by_cases hstuck : f.victim = lastVictim
    · exact .inl ⟨if_pos hstuck, .inr (hstuck ▸ hchooses.isDir hsome)⟩
    · exact .inr ⟨f, hchooses, hmany, hsome, hstuck, if_neg hstuck⟩

theorem pruneTurns_length (c : Card) (guard i : ℕ) (lastVictim : Bytes) (w : Walkout) :
    (pruneTurns c guard i lastVictim w).2.length ≤ guard := by
  induction guard generalizing i lastVictim w with
  | zero => exact le_rfl
  | succ guard ih =>
      rcases pruneTurns_succ c guard i lastVictim w with ⟨heq, -⟩ | ⟨f, -, -, -, -, heq⟩
      · rw [heq]
        exact Nat.zero_le _
      · rw [heq]
        exact Nat.succ_le_succ (ih _ _ _)

theorem Chooses.rightful {w : Walkout} {f : Found} (hlong : 32 ≤ long) (h : Chooses w f)
    (hsome : f.victim ≠ []) : Rightful long ⟨w, f.victim⟩ where
  isDir := h.isDir hsome
  legacyFirst hidx e he := (h.first hidx e he).1
  lowestFirst hidx e he hidx' :=
    not_lt.mp fun hlt => (h.first hidx e he).2 (lt_of_indexOf_lt hlong hidx' hidx hlt)

theorem pruneTurns_rightful (hlong : 32 ≤ long) (c : Card) (guard i : ℕ) (lastVictim : Bytes)
    (w : Walkout) : ∀ r ∈ (pruneTurns c guard i lastVictim w).2, Rightful long r := by
  induction guard generalizing i lastVictim w with
  | zero => exact fun r hr => absurd hr List.not_mem_nil
  | succ guard ih =>
      rcases pruneTurns_succ c guard i lastVictim w with ⟨heq, -⟩ | ⟨f, hch, -, hsome, -, heq⟩
      · rw [heq]
        exact fun r hr => absurd hr List.not_mem_nil
      · rw [heq]
        intro r hr
        rcases List.mem_cons.mp hr with rfl | hr
        · exact hch.rightful hlong hsome
        · exact ih _ _ _ r hr

theorem rmRf_names (w : Walkout) (victim : Bytes) : ∀ e ∈ (w.rmRf victim).dirs, e.name ≠ victim := by
  intro e he
  have := (List.mem_filter.mp (Walkout.mem_dirs.mp he).1).2
  exact of_decide_eq_true this

theorem rmRf_dirs (w : Walkout) (victim : Bytes) :
    (w.rmRf victim).dirs = w.dirs.filter fun e => decide (e.name ≠ victim) := by
  show (w.entries.filter _).filter _ = (w.entries.filter _).filter _
  rw [List.filter_filter, List.filter_filter]
  exact List.filter_congr fun e _ => Bool.and_comm _ _

theorem dirs_nodup (w : Walkout) : (w.dirs.map Entry.name).Nodup :=
  w.nodup.sublist (List.filter_sublist.map Entry.name)

/-- A removal that works takes one directory. -/
theorem rmRf_dirs_length {w : Walkout} {victim : Bytes} (h : ∃ e ∈ w.dirs, e.name = victim) :
    (w.rmRf victim).dirs.length + 1 = w.dirs.length := by
  have hone : (w.dirs.filter fun e => !decide (e.name ≠ victim)).length = 1 := by
    obtain ⟨e, he, hname⟩ := h
    have hmem : victim ∈ w.dirs.map Entry.name := List.mem_map.mpr ⟨e, he, hname⟩
    rw [← List.count_eq_one_of_mem (dirs_nodup w) hmem, List.count, List.countP_map,
      List.countP_eq_length_filter]
    congr 1
    refine List.filter_congr fun e _ => ?_
    simp [Bool.beq_eq_decide_eq]
  rw [rmRf_dirs, List.length_eq_length_filter_add (l := w.dirs) fun e => decide (e.name ≠ victim),
    hone]

/-- Where every removal works, each turn left takes one directory. -/
theorem pruneTurns_few {c : Card} (hworks : ∀ i, c.removes i = true) {guard i : ℕ}
    {lastVictim : Bytes} {w : Walkout} (hgone : ∀ e ∈ w.dirs, e.name ≠ lastVictim)
    (hle : w.dirs.length < keepSessions + guard) :
    (pruneTurns c guard i lastVictim w).1.dirs.length < keepSessions := by
  induction guard generalizing i lastVictim w with
  | zero => exact hle
  | succ guard ih =>
      rcases pruneTurns_succ c guard i lastVictim w with ⟨heq, hfew | ⟨e, he, hname⟩⟩ |
        ⟨f, hch, -, hsome, -, heq⟩
      · rw [heq]
        exact hfew
      · exact absurd hname (hgone e he)
      · rw [heq, if_pos (hworks i)]
        have hone := rmRf_dirs_length (hch.isDir hsome)
        exact ih (rmRf_names w f.victim) (by omega)

/-- The highest number stays: the lowest of ten or more goes first. -/
theorem Chooses.reaches {w : Walkout} {f : Found} (hlong : 32 ≤ long) (h : Chooses w f)
    (hmany : keepSessions ≤ w.dirs.length) {n : ℤ} (hn : Reaches long w n) :
    Reaches long (w.rmRf f.victim) n := by
  obtain ⟨e, he, hidx, hle⟩ := hn
  by_cases hname : e.name = f.victim
  · have hvictim : loggerIsIndexed f.victim := hname ▸ hidx
    have hsome := loggerIsIndexed_ne_nil hvictim
    have hright := h.rightful hlong hsome
    have hone := rmRf_dirs_length (h.isDir hsome)
    have hleft : (w.rmRf f.victim).dirs ≠ [] := by
      intro hnil
      rw [hnil] at hone
      rw [keepSessions] at hmany
      rw [List.length_nil] at hone
      omega
    obtain ⟨e', he'⟩ := List.exists_mem_of_ne_nil _ hleft
    have hdir : e' ∈ w.dirs := by
      rw [rmRf_dirs] at he'
      exact List.mem_of_mem_filter he'
    have hidx' := hright.legacyFirst hvictim e' hdir
    refine ⟨e', (Walkout.mem_dirs.mp he').1, hidx', ?_⟩
    rw [hname] at hle
    exact hle.trans (hright.lowestFirst hvictim e' hdir hidx')
  · exact ⟨e, List.mem_filter.mpr ⟨he, decide_eq_true hname⟩, hidx, hle⟩

theorem pruneTurns_reaches (hlong : 32 ≤ long) {n : ℤ} (c : Card) (guard i : ℕ)
    (lastVictim : Bytes) (w : Walkout) (hn : Reaches long w n) :
    Reaches long (pruneTurns c guard i lastVictim w).1 n := by
  induction guard generalizing i lastVictim w with
  | zero => exact hn
  | succ guard ih =>
      rcases pruneTurns_succ c guard i lastVictim w with ⟨heq, -⟩ | ⟨f, hch, hmany, -, -, heq⟩
      · rw [heq]
        exact hn
      · rw [heq]
        split
        · exact ih _ _ _ (hch.reaches hlong hmany hn)
        · exact ih _ _ _ hn

/-! ## Runs of sessions -/

/-- Counters with room for one more in six digits. -/
def Below (long : ℕ) (s : Sd) : Prop :=
  seqCounter long s.seq < 999999 ∧
    ∀ e ∈ s.walkout.entries, loggerIsIndexed e.name → indexOf long e.name < 999999

instance (s : Sd) : Decidable (Below long s) := inferInstanceAs (Decidable (_ ∧ _))

/-- The number that an opening takes. -/
theorem loggerNextSeq_lt {s : Sd} (hbelow : Below long s) {order : List Entry}
    (hperm : order.Perm (dots ++ s.walkout.entries)) :
    loggerNextSeq long s.seq order < 1000000 := by
  have hle : order.foldl (higher long) (max 0 (seqCounter long s.seq)) ≤ 999998 := by
    refine foldl_higher_le (by have := hbelow.1; omega) fun e he hidx => ?_
    rcases List.mem_append.mp (hperm.mem_iff.mp he) with he | he
    · rcases List.mem_cons.mp he with rfl | he
      · exact absurd hidx (by decide)
      · rw [List.mem_singleton.mp he] at hidx
        exact absurd hidx (by decide)
    · have := hbelow.2 e he hidx
      omega
  rw [loggerNextSeq]
  omega

/-- The directory has the number, and nothing is lost. -/
theorem makeDir_spec (hlong : 32 ≤ long) (o : Opening) {next : ℕ} (hlt : next < 1000000) (w : Walkout) :
    (∀ n, Reaches long w n → Reaches long (o.makeDir next w).1 n) ∧
      ((o.makeDir next w).2 = [] ∨ ∃ name, (o.makeDir next w).2 = [name] ∧ loggerIsIndexed name ∧
        indexOf long name = next ∧ Reaches long (o.makeDir next w).1 next) := by
  obtain ⟨hidx, hvalue⟩ := sessionName_indexed hlong hlt o.stamp o.pid
  by_cases hexists : sessionName next o.stamp o.pid ∈ w.entries.map Entry.name
  · have heq : o.makeDir next w = (w, [sessionName next o.stamp o.pid]) := dif_pos hexists
    obtain ⟨e, he, hname⟩ := List.mem_map.mp hexists
    rw [heq]
    refine ⟨fun _ h => h, .inr ⟨_, rfl, hidx, hvalue, e, he, ?_, ?_⟩⟩
    · rw [hname]
      exact hidx
    · rw [hname, hvalue]
  · by_cases hmkdir : o.mkdir
    · have heq : o.makeDir next w =
          (w.mkdir _ hexists (sessionName_named ..), [sessionName next o.stamp o.pid]) :=
        (dif_neg hexists).trans (if_pos hmkdir)
      rw [heq]
      refine ⟨fun n hn => ?_,
        .inr ⟨_, rfl, hidx, hvalue, _, List.mem_cons_self, hidx, hvalue.ge⟩⟩
      obtain ⟨e, he, hreach⟩ := hn
      exact ⟨e, List.mem_cons_of_mem _ he, hreach⟩
    · have heq : o.makeDir next w = (w, []) := (dif_neg hexists).trans (if_neg hmkdir)
      rw [heq]
      exact ⟨fun _ h => h, .inl rfl⟩

/-- What an opening does to the card: numbers are never lost, and the name of the directory it
opened has a higher number than any before. -/
theorem openSession_spec (hlong : 32 ≤ long) {s : Sd} (o : Opening) (hbelow : Below long s) :
    (∀ n, Reaches long s.walkout n → Reaches long (openSession long s o).1.walkout n) ∧
      ((openSession long s o).2 = [] ∨ ∃ name, (openSession long s o).2 = [name] ∧
        loggerIsIndexed name ∧
        (∀ e ∈ s.walkout.entries, loggerIsIndexed e.name → indexOf long e.name < indexOf long name) ∧
        Reaches long (openSession long s o).1.walkout (indexOf long name)) := by
  by_cases hoff : (o.enabled && o.sdReady && o.baseMade) = false
  · rw [openSession, if_pos hoff]
    exact ⟨fun _ h => h, .inl rfl⟩
  · have hperm := o.card.readdir_perm 0 (dots ++ s.walkout.entries)
    have hlt := loggerNextSeq_lt hbelow hperm
    obtain ⟨hpos, -, hgt⟩ := @loggerNextSeq_gt long s.seq
      (o.card.readdir 0 (dots ++ s.walkout.entries))
    rw [openSession, if_neg hoff]
    generalize loggerNextSeq long s.seq (o.card.readdir 0 (dots ++ s.walkout.entries)) = next at *
    obtain ⟨hkeep, hmade⟩ := makeDir_spec hlong o (show next.toNat < 1000000 by omega)
      (loggerPrune o.card s.walkout).1
    refine ⟨fun n hn => hkeep n (pruneTurns_reaches hlong o.card _ _ _ _ hn), ?_⟩
    rcases hmade with hnone | ⟨name, hname, hidx, hvalue, hreach⟩
    · exact .inl hnone
    · refine .inr ⟨name, hname, hidx, fun e he hidx' => ?_, hvalue ▸ hreach⟩
      have := hgt e (hperm.mem_iff.mpr (List.mem_append_right _ he)) hidx'
      omega

/-- Over a run every name opened is numbered beyond what was there before it. -/
theorem sessions_beyond (hlong : 32 ≤ long) {os : List Opening} {s : Sd}
    (hbelow : (sessions long).Meets (fun s _ => Below long s) s os) :
    ((sessions long).trace s os).Nodup ∧ ∀ name ∈ (sessions long).trace s os,
      loggerIsIndexed name ∧ ∀ n, Reaches long s.walkout n → n < indexOf long name := by
  induction os generalizing s with
  | nil => exact ⟨List.nodup_nil, fun _ h => absurd h List.not_mem_nil⟩
  | cons o os ih =>
      obtain ⟨hb, hrest⟩ := hbelow
      obtain ⟨hnodup, hlater⟩ := ih hrest
      obtain ⟨hkeep, hopened⟩ := openSession_spec hlong o hb
      have hbefore : ∀ name ∈ (sessions long).trace (openSession long s o).1 os,
          loggerIsIndexed name ∧ ∀ n, Reaches long s.walkout n → n < indexOf long name :=
        fun name hname => ⟨(hlater name hname).1, fun n hn => (hlater name hname).2 n (hkeep n hn)⟩
      have hstep : (sessions long).trace s (o :: os) =
          (openSession long s o).2 ++ (sessions long).trace (openSession long s o).1 os := rfl
      rw [hstep]
      rcases hopened with hnone | ⟨name, hname, hidx, hbeyond, hreach⟩
      · rw [hnone]
        exact ⟨hnodup, hbefore⟩
      · rw [hname, List.singleton_append]
        refine ⟨List.nodup_cons.mpr ⟨fun hmem => ?_, hnodup⟩, fun x hx => ?_⟩
        · exact lt_irrefl _ ((hlater name hmem).2 _ hreach)
        · rcases List.mem_cons.mp hx with rfl | hx
          · refine ⟨hidx, fun n hn => ?_⟩
            obtain ⟨e, he, hidx', hle⟩ := hn
            exact hle.trans_lt (hbeyond e he hidx')
          · exact hbefore x hx

/-- Numbers go up, the prune ends and takes what is oldest, and no session directory is used
twice. -/
theorem session_rotation (hlong : 32 ≤ long) :
    (∀ seq order, seqCounter long seq < loggerNextSeq long seq order ∧
      ∀ e ∈ order, loggerIsIndexed e.name → indexOf long e.name < loggerNextSeq long seq order) ∧
    (∀ c w, (loggerPrune c w).2.length ≤ keepSessions + 4 ∧
      ∀ r ∈ (loggerPrune c w).2, Rightful long r) ∧
    (∀ c w, (∀ i, c.removes i = true) → w.dirs.length ≤ 2 * keepSessions + 3 →
      (loggerPrune c w).1.dirs.length < keepSessions) ∧
    ∀ s os, (sessions long).Meets (fun s _ => Below long s) s os →
      ((sessions long).trace s os).Nodup ∧
        ∀ name ∈ (sessions long).trace s os, name ∉ s.walkout.entries.map Entry.name := by
  refine ⟨fun seq order => (loggerNextSeq_gt seq order).2, fun c w => ⟨?_, ?_⟩,
    fun c w hworks hle => ?_, fun s os hbelow => ?_⟩
  · exact pruneTurns_length c _ _ _ w
  · exact pruneTurns_rightful hlong c _ _ _ w
  · refine pruneTurns_few hworks (fun e he => (w.named e (Walkout.mem_dirs.mp he).1).1) ?_
    rw [keepSessions] at hle ⊢
    omega
  · obtain ⟨hnodup, hnames⟩ := sessions_beyond hlong hbelow
    refine ⟨hnodup, fun name hname hmem => ?_⟩
    obtain ⟨e, he, rfl⟩ := List.mem_map.mp hmem
    obtain ⟨hidx, hbeyond⟩ := hnames _ hname
    exact lt_irrefl _ (hbeyond _ ⟨e, he, hidx, le_rfl⟩)

/-- A card from the field: ten sessions, a directory named by the clock, a file. -/
def fieldCard : Sd where
  seq := some "000041\n".toList
  walkout := {
    entries := (List.range 10).map (fun n => ⟨sessionName (32 + n) "20240101_000000".toList 77, true⟩) ++
      [⟨"20231231".toList, true⟩, ⟨"notes.txt".toList, false⟩]
    nodup := by decide +kernel
    named := by decide +kernel }

/-- Listed backwards; every removal works; the counter reaches the card only in part. -/
def fieldOpening : Opening where
  card := {
    readdir := fun _ l => l.reverse
    removes := fun _ => true
    readdir_perm := fun _ l => List.reverse_perm l }
  seqWritten := some 3
  stamp := "19700101_000012".toList
  pid := 77

/-- Two sessions of one boot clock on it: the directory named by the clock goes first, and the
second session finds the number of the first in its directory. -/
theorem session_rotation_field :
    ((sessions 64).trace fieldCard [fieldOpening, fieldOpening]).Nodup ∧
      (loggerPrune fieldOpening.card fieldCard.walkout).1.dirs.length < keepSessions :=
  ⟨((session_rotation (by decide : 32 ≤ 64)).2.2.2 fieldCard [fieldOpening, fieldOpening]
      (by decide +kernel)).1,
    (session_rotation (by decide : 32 ≤ 64)).2.2.1 fieldOpening.card fieldCard.walkout
      (fun _ => rfl) (by decide +kernel)⟩

/-- What was written whole is read back. -/
theorem seqCounter_written (hlong : 32 ≤ long) {n : ℕ} (hn : n < 2 ^ 31) :
    seqCounter long (some (sixDigits n ++ ['\n'])) = n := by
  have hne : sixDigits n ≠ [] := fun hnil =>
    decimal_ne_nil n (List.append_eq_nil_iff.mp (hnil : List.replicate _ _ ++ _ = [])).2
  rw [seqCounter, Option.bind_some,
    scanInt_digits hlong hne (sixDigits_digits n) (ends_cons (by decide)) (by rwa [sixDigits_value]),
    sixDigits_value]
  rfl

end Waybeam.Vehicle.Logger
