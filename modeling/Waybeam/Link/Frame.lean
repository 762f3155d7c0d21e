/-
# `Waybeam.Link.Frame` — the frame from the printer to the parser

The ground station prints a csa_commit frame with `snprintf`, nothing escaped; the vehicle
looks for `"key":` from the start of the line.  The two fit together because of what the
fields hold: numbers and one of three widths contain no letter a key starts with, so the
search for a key passes over every value before it (`findKeyFrom_printf`).  Only the last
field, `prev_ht`, is free text, and it comes after all keys: the search never reaches into
it.  What can go wrong is its own end: `get_str` stops at the first quote.

    frameOf f.text = the fields of f, prev_ht up to its first quote       `frameOf_text`
-/
import Waybeam.Csa.Agent
import Waybeam.Ground.Session

namespace Waybeam.Link

open Text Csa Ground

/-! ## The key search over a printed line -/

/-- A value the search for a key runs over: no letter in it could start one. -/
def Plain (value : Bytes) : Prop := ∀ c ∈ value, c.isLower = false

/-- A piece of a format string the search for a key runs over: the key stands nowhere in it,
and does not begin at its end. -/
def Passes (key piece : Bytes) : Prop :=
  ∀ t ∈ piece.tails, t = [] ∨ ¬key <+: t ∧ ¬t <+: key

instance (key piece : Bytes) : Decidable (Passes key piece) :=
  inferInstanceAs (Decidable (∀ t ∈ piece.tails, _))

theorem findKeyFrom_passes {key piece : Bytes} (h : Passes key piece) (before : Option Char)
    (rest : Bytes) :
    ∃ before', findKeyFrom key before 0 (piece ++ rest) = findKeyFrom key before' 0 rest := by
  induction piece generalizing before with
  | nil => exact ⟨before, rfl⟩
  | cons c piece ih =>
      obtain ⟨hhere, hpiece⟩ := List.forall_mem_cons.mp h
      obtain ⟨hkey, hshort⟩ := hhere.resolve_left (List.cons_ne_nil c piece)
      have hno : key.isPrefixOf (c :: (piece ++ rest)) = false := by
        rw [Bool.eq_false_iff, ne_eq, List.isPrefixOf_iff_prefix]
        intro hpre
        have hself : c :: piece <+: c :: (piece ++ rest) := ⟨rest, rfl⟩
        exact (List.prefix_or_prefix_of_prefix hpre hself).elim hkey hshort
      obtain ⟨before', hrest⟩ := ih hpiece (some c)
      refine ⟨before', ?_⟩
      rw [List.cons_append, findKeyFrom, hno]
      simpa using hrest

theorem findKeyFrom_plain {k : Char} (hk : k.isLower) (ks : Bytes) {value : Bytes}
    (h : Plain value) (before : Option Char) (rest : Bytes) :
    ∃ before', findKeyFrom (k :: ks) before 0 (value ++ rest)
      = findKeyFrom (k :: ks) before' 0 rest := by
  induction value generalizing before with
  | nil => exact ⟨before, rfl⟩
  | cons c value ih =>
      obtain ⟨hc, hvalue⟩ := List.forall_mem_cons.mp h
      have hne : (k == c) = false := by
        rw [beq_eq_false_iff_ne]
        intro hkc
        rw [hkc, hc] at hk
        exact nomatch hk
      obtain ⟨before', hrest⟩ := ih hvalue (some c)
      refine ⟨before', ?_⟩
      rw [List.cons_append, findKeyFrom]
      simp only [List.isPrefixOf, hne, Bool.false_and, Bool.false_eq_true, if_false]
      exact hrest

/-- A key is found behind any number of fields that the search runs over. -/
theorem findKeyFrom_printf {k : Char} (hk : k.isLower) {ks : Bytes} {args : List (Bytes × Bytes)}
    (hpass : ∀ a ∈ args, Passes (k :: ks) a.1) (hplain : ∀ a ∈ args, Plain a.2)
    {tail value : Bytes} (htail : ∀ before, findKeyFrom (k :: ks) before 0 tail = some value)
    (before : Option Char) : findKeyFrom (k :: ks) before 0 (printf args tail) = some value := by
  induction args generalizing before with
  | nil => exact htail before
  | cons a args ih =>
      obtain ⟨hpiece, hpass⟩ := List.forall_mem_cons.mp hpass
      obtain ⟨hvalue, hplain⟩ := List.forall_mem_cons.mp hplain
      obtain ⟨mid, hmid⟩ := findKeyFrom_passes hpiece before (a.2 ++ printf args tail)
      obtain ⟨after', hafter⟩ := findKeyFrom_plain hk ks hvalue mid (printf args tail)
      show findKeyFrom (k :: ks) before 0 (a.1 ++ (a.2 ++ printf args tail)) = _
      rw [hmid, hafter]
      exact ih hpass hplain after'

theorem plain_decimal (n : ℕ) : Plain (decimal n) := by
  intro c hc
  obtain ⟨-, h9⟩ := Char.isDigit_iff_toNat.mp (isDigit_of_mem_decimal hc)
  have h9 : c.toNat ≤ 57 := h9
  rw [Bool.eq_false_iff]
  intro hlow
  have hlow : (decide (97 ≤ c.val) && decide (c.val ≤ 122)) = true := hlow
  have ha : 97 ≤ c.toNat := of_decide_eq_true (Bool.and_eq_true _ _ ▸ hlow).1
  omega

theorem plain_signed (l : ℤ) : Plain (signed l) := by
  cases l with
  | ofNat n => exact plain_decimal n
  | negSucc n => exact List.forall_mem_cons.mpr ⟨rfl, plain_decimal (n + 1)⟩

/-! ## The fields of a frame -/

section Fields

variable {f : CsaCommit}

theorem mem_take_zip {pieces values : List Bytes} {n : ℕ} {a : Bytes × Bytes}
    (h : a ∈ (pieces.zip values).take n) : a.1 ∈ pieces.take n ∧ a.2 ∈ values.take n := by
  rw [List.zip, List.take_zipWith] at h
  exact List.of_mem_zip h

/-- All arguments but the last are plain, when the target width is. -/
theorem plain_args (h : Plain f.targetHt) (n : ℕ) (hn : n ≤ 7) :
    ∀ a ∈ (csaFormat.zip f.args).take n, Plain a.2 := by
  have hall : ∀ v ∈ f.args.take 7, Plain v := by
    simp only [CsaCommit.args, List.take_succ_cons, List.take_zero, List.forall_mem_cons]
    exact ⟨plain_decimal _, plain_decimal _, plain_signed _, h, plain_signed _, plain_signed _,
      plain_signed _, fun v hv => nomatch hv⟩
  intro a ha
  exact hall a.2 (List.take_subset_take_left _ hn (mem_take_zip ha).2)

/-- The n-th key is found where it stands. -/
theorem findKey_text {k : Char} (hk : k.isLower) {ks : Bytes} (n : ℕ) (hn : n ≤ 7)
    (hht : Plain f.targetHt) (hpass : ∀ p ∈ csaFormat.take n, Passes (k :: ks) p) {value : Bytes}
    (hhere : ∀ before,
      findKeyFrom (k :: ks) before 0 (printf ((csaFormat.zip f.args).drop n) csaClose)
        = some value) :
    findKey f.text (k :: ks) = some value := by
  have hsplit : f.text = printf ((csaFormat.zip f.args).take n)
      (printf ((csaFormat.zip f.args).drop n) csaClose) := by
    rw [← printf_append, List.take_append_drop]
    rfl
  rw [findKey, hsplit]
  exact findKeyFrom_printf hk (fun a ha => hpass a.1 (mem_take_zip ha).1)
    (plain_args hht n hn) hhere none

/-- What follows a number in the line does not go on with a digit. -/
theorem getInt_of_findKey {buf key rest : Bytes} {l : ℤ} (hl : InI64 l) (hrest : Ends rest)
    (h : findKey buf key = some (signed l ++ rest)) : getInt buf key = some l := by
  rw [getInt, h]
  show (strtoll ((signed l ++ rest).dropWhile (· = ' '))).map Prod.fst = some l
  rw [strtoll_dropSpaces, strtoll_signed l hl hrest]
  rfl

/-- A string in the line is read up to its first quote, which a clean one meets at its end. -/
theorem getStr_of_findKey {buf key value rest : Bytes} {room : ℕ} (hroom : value.length ≤ room)
    (h : findKey buf key = some ('"' :: (value ++ '"' :: rest))) :
    getStr buf key room = some (value.takeWhile (· ≠ '"')) := by
  have hread : (value ++ '"' :: rest).takeWhile (· ≠ '"') = value.takeWhile (· ≠ '"') :=
    takeWhile_stop rfl
  have hlen : (value.takeWhile (· ≠ '"')).length ≤ room :=
    (List.takeWhile_prefix _).length_le.trans hroom
  rw [getStr, h]
  show some (List.take room ((value ++ '"' :: rest).takeWhile (· ≠ '"'))) = _
  rw [hread, List.take_of_length_le hlen]

/-- What the session and the request put into a frame. -/
structure Printable (f : CsaCommit) : Prop where
  targetHt : f.targetHt = "HT20".toList ∨ f.targetHt = "HT40+".toList ∨ f.targetHt = "HT40-".toList
  targetChan : InI64 f.targetChan
  prevChan : InI64 f.prevChan
  dt : InI64 f.dtToSwitchMs
  tRevert : InI64 f.tRevertMs
  prevHt : f.prevHt.length ≤ 7 ∧ '\x00' ∉ f.prevHt

theorem Printable.plain (h : Printable f) : Plain f.targetHt := by
  have hall : f.targetHt.all (fun c => !c.isLower) = true := by
    rcases h.targetHt with hht | hht | hht <;> rw [hht] <;> decide
  intro c hc
  simpa using List.all_eq_true.mp hall c hc

/-- The fields as the vehicle reads them. -/
def readBack (f : CsaCommit) : Commit where
  sess := f.sess.toNat
  seq := f.seq.toNat
  dt := f.dtToSwitchMs
  tRevert := f.tRevertMs
  targetChan := f.targetChan
  prevChan := f.prevChan
  targetHt := f.targetHt
  prevHt := f.prevHt.takeWhile (· ≠ '"')

theorem inI64_uint32 (n : UInt32) : InI64 n.toNat := by
  have h := n.toNat_lt
  simp only [InI64]
  omega

/-- A number in the line. -/
theorem getInt_text {k : Char} (hk : k.isLower) {ks : Bytes} (n : ℕ) (hn : n ≤ 7)
    (hht : Plain f.targetHt) (hpass : ∀ p ∈ csaFormat.take n, Passes (k :: ks) p) {l : ℤ}
    (hl : InI64 l) {c : Char} (hc : c.isDigit = false) {rest : Bytes}
    (hhere : ∀ before,
      findKeyFrom (k :: ks) before 0 (printf ((csaFormat.zip f.args).drop n) csaClose)
        = some (signed l ++ c :: rest)) :
    getInt f.text (k :: ks) = some l :=
  getInt_of_findKey hl (ends_cons hc) (findKey_text hk n hn hht hpass hhere)

/-- Every field of the line is read as it was printed, `prev_ht` up to its first quote. -/
theorem parse_text (h : Printable f) : Commit.parse f.text = some (readBack f) := by
  have hp := h.plain
  have hsess : getInt f.text "sess".toList = some (f.sess.toNat : ℤ) :=
    getInt_text rfl 0 (by decide) hp (by decide) (inI64_uint32 _) rfl fun _ => rfl
  have hseq : getInt f.text "seq".toList = some (f.seq.toNat : ℤ) :=
    getInt_text rfl 1 (by decide) hp (by decide +kernel) (inI64_uint32 _) rfl fun _ => rfl
  have htarget : getInt f.text "target_chan".toList = some f.targetChan :=
    getInt_text rfl 2 (by decide) hp (by decide +kernel) h.targetChan rfl fun _ => rfl
  have hdt : getInt f.text "dt_to_switch_ms".toList = some (f.dtToSwitchMs : ℤ) :=
    getInt_text rfl 4 (by decide) hp (by decide +kernel) h.dt rfl fun _ => rfl
  have hrevert : getInt f.text "t_revert_ms".toList = some (f.tRevertMs : ℤ) :=
    getInt_text rfl 5 (by decide) hp (by decide +kernel) h.tRevert rfl fun _ => rfl
  have hprev : getInt f.text "prev_chan".toList = some f.prevChan :=
    getInt_text rfl 6 (by decide) hp (by decide +kernel) h.prevChan rfl fun _ => rfl
  have htargetHt : getStr f.text "target_ht".toList 7 = some f.targetHt := by
    have hlen : f.targetHt.length ≤ 7 := by
      rcases h.targetHt with hht | hht | hht <;> rw [hht] <;> decide
    have hclean : f.targetHt.takeWhile (· ≠ '"') = f.targetHt := by
      rcases h.targetHt with hht | hht | hht <;> rw [hht] <;> decide
    have hread : getStr f.text "target_ht".toList 7 = some (f.targetHt.takeWhile (· ≠ '"')) :=
      getStr_of_findKey hlen (findKey_text rfl 3 (by decide) hp (by decide +kernel) fun _ => rfl)
    rwa [hclean] at hread
  have hprevHt : getStr f.text "prev_ht".toList 7 = some (f.prevHt.takeWhile (· ≠ '"')) :=
    getStr_of_findKey h.prevHt.1
      (findKey_text rfl 7 (by decide) hp (by decide +kernel) fun _ => rfl)
  rw [Commit.parse, hsess, hseq, htarget, hdt, hrevert, hprev, htargetHt, hprevHt]
  rfl

theorem nul_notMem_decimal (n : ℕ) : '\x00' ∉ decimal n :=
  fun h => absurd (isDigit_of_mem_decimal h) (by decide)

theorem nul_notMem_signed (l : ℤ) : '\x00' ∉ signed l := by
  cases l with
  | ofNat n => exact nul_notMem_decimal n
  | negSucc n =>
      intro h
      rcases List.mem_cons.mp h with h | h
      · exact absurd h (by decide)
      · exact nul_notMem_decimal _ h

/-- The line is a C string: nothing in it ends it early. -/
theorem cstr_text (h : Printable f) : cstr f.text = f.text := by
  have hvalues : ∀ v ∈ f.args, '\x00' ∉ v := by
    simp only [CsaCommit.args, List.forall_mem_cons]
    refine ⟨nul_notMem_decimal _, nul_notMem_decimal _, nul_notMem_signed _, ?_,
      nul_notMem_signed _, nul_notMem_signed _, nul_notMem_signed _, h.prevHt.2, fun v hv => nomatch hv⟩
    rcases h.targetHt with hht | hht | hht <;> rw [hht] <;> decide
  have hpieces : ∀ p ∈ csaFormat, '\x00' ∉ p := by decide +kernel
  refine cstr_of_free (notMem_printf (fun a ha => ?_) (by decide))
  obtain ⟨hp, hv⟩ := List.of_mem_zip ha
  exact ⟨hpieces _ hp, hvalues _ hv⟩

/-- What the vehicle makes of a frame. -/
theorem frameOf_text (h : Printable f) : frameOf f.text = some (readBack f) := by
  have htype : getStr f.text "type".toList 31 = some "csa_commit".toList := rfl
  have hpre : "csa_commit".toList.isPrefixOf "csa_commit".toList = true := by decide
  rw [frameOf, cstr_text h, htype]
  show (if "csa_commit".toList.isPrefixOf "csa_commit".toList then _ else _) = _
  rw [hpre, if_pos rfl, parse_text h]

end Fields

/-! ## The session and its frames -/

/-- The decoded `prev_ht` fits its buffer. -/
theorem csaPrevHt_fits (q : Bytes) : (csaPrevHt q).length ≤ 7 ∧ '\x00' ∉ csaPrevHt q := by
  rw [csaPrevHt]
  split
  · next raw _ =>
      split
      · have hlen : (cstr (qsPctDecode 7 raw)).length ≤ (qsPctDecode 7 raw).length :=
          (List.takeWhile_prefix _).length_le
        exact ⟨hlen.trans (qsPctDecode_length_le 7 raw), nul_notMem_cstr _⟩
      · decide
  · decide

/-- The revert time is a whole number of milliseconds, half a minute at most. -/
theorem revert_ms {c : Ground.CsaState} (h : Requested c) :
    ∃ ms ≤ 30000, c.tRevertUs = c.tSwitchUs + ms * 1000 := by
  obtain ⟨s, q, t, harm⟩ := h
  obtain ⟨chan, ifaces, ht, -, rfl⟩ := csaArm_ok harm
  have hms := csaMs_range q "t_revert_ms".toList 3000 (show (0 : ℤ) ≤ 500 by decide)
    (show (500 : ℤ) ≤ 30000 by decide)
  exact ⟨csaMs q "t_revert_ms".toList 3000 500 30000, by omega, rfl⟩

/-- What a request stores is printable at any moment of the session. -/
theorem printable_commit {c : Ground.CsaState} (h : Requested c) (seq : UInt32) {now : ℕ}
    (hnow : c.tSwitchUs ≤ now + 5000000) : Printable (c.commit seq now) := by
  obtain ⟨ms, hle, hrevert⟩ := revert_ms h
  obtain ⟨s, q, t, harm⟩ := h
  obtain ⟨chan, ifaces, ht, hacc, rfl⟩ := csaArm_ok harm
  obtain ⟨raw, hraw⟩ := hacc.ht
  have hchan := csaChan_ok hacc.chan
  refine ⟨csaHt_ok hraw, ?_, ?_, ?_, ?_, csaPrevHt_fits q⟩
  · show InI64 chan
    simp only [InI64]
    omega
  · show InI64 ((qsGetInt q "prev_chan".toList).getD chan)
    cases hq : qsGetInt q "prev_chan".toList with
    | none =>
        simp only [Option.getD_none, InI64]
        omega
    | some prev =>
        have hr := qsGetInt_range hq
        simp only [Option.getD_some, InI64]
        omega
  · generalize s.session q t chan ifaces ht = c at hnow ⊢
    show InI64 ((c.tSwitchUs - now) / 1000 : ℕ)
    simp only [InI64]
    omega
  · generalize s.session q t chan ifaces ht = c at hrevert ⊢
    show InI64 ((c.tRevertUs - c.tSwitchUs) / 1000 : ℕ)
    simp only [InI64]
    omega

/-- A frame is read as the session it stands for: its id, both pairs and the revert time. -/
def ReadsAs (c : Ground.CsaState) (f : CsaCommit) : Prop :=
  ∃ r ∈ frameOf f.text, r.sess = c.sess.toNat ∧ r.targetChan = c.targetChan ∧
    r.targetHt = c.targetHt ∧ r.prevChan = c.prevChan ∧ r.prevHt = c.prevHt ∧
    r.tRevert * 1000 = c.tRevertUs - c.tSwitchUs

instance (c : Ground.CsaState) (f : CsaCommit) : Decidable (ReadsAs c f) :=
  inferInstanceAs (Decidable (∃ r ∈ frameOf f.text, _))

theorem takeWhile_quote_iff (s : Bytes) : s.takeWhile (· ≠ '"') = s ↔ '"' ∉ s := by
  rw [List.takeWhile_eq_self_iff]
  constructor
  · intro h hq
    exact absurd (h _ hq) (by decide)
  · intro h c hc
    have hne : c ≠ '"' := fun he => h (he ▸ hc)
    simpa using hne

/-- A frame of the session reads as the session iff nothing in `prev_ht` is a quote. -/
theorem readsAs_iff {c : Ground.CsaState} (h : Requested c) (seq : UInt32) {now : ℕ}
    (hnow : c.tSwitchUs ≤ now + 5000000) : ReadsAs c (c.commit seq now) ↔ '"' ∉ c.prevHt := by
  obtain ⟨ms, -, hms⟩ := revert_ms h
  rw [ReadsAs, frameOf_text (printable_commit h seq hnow), ← takeWhile_quote_iff]
  constructor
  · rintro ⟨r, hr, -, -, -, -, hprev, -⟩
    cases hr
    exact hprev
  · intro hq
    refine ⟨_, rfl, rfl, rfl, rfl, rfl, hq, ?_⟩
    show (((c.tRevertUs - c.tSwitchUs) / 1000 : ℕ) : ℤ) * 1000 = _
    rw [hms]
    omega

/-- A frame against the session armed last: it reads as it exactly when `prev_ht` is clean. -/
def readBackCheck (c : Ground.CsaState) : Ground.Obs → Bool
  | .frame _ f _ => ReadsAs c f ↔ '"' ∉ c.prevHt
  | _ => true

/-- In every run, every frame reads as the session that was armed, unless the request's
`prev_ht` decodes to something with a quote in it, and then it does not. -/
theorem frame_round_trip_iff (tunnels : List Tunnel) (up : String) (es : List Ground.Event) :
    (sessions readBackCheck).Accepts none (Ground.machine.trace (Sup.boot tunnels up) es) := by
  refine sessions_accepts (fun c o hreq ho => ?_) tunnels up es
  cases o with
  | frame port f sent =>
      obtain ⟨seq, now, hlead, rfl⟩ := ho
      exact decide_eq_true (readsAs_iff hreq seq hlead)
  | _ => rfl

/-- The frames of every session read as the session. -/
def readsBack (c : Ground.CsaState) : Ground.Obs → Bool
  | .frame _ f _ => ReadsAs c f
  | _ => true

/-- A request whose previous width is `HT2"`. -/
def quotedRun : List Ground.Event :=
  [.post 0 "chan=149&ht=HT20&iface=wlan0&prev_chan=161&prev_ht=HT2%22".toList, .tick 0 ⟨0, true⟩]

theorem frame_round_trip_broken :
    ¬ ∀ (tunnels : List Tunnel) (up : String) (es : List Ground.Event),
      (sessions readsBack).Accepts none (Ground.machine.trace (Sup.boot tunnels up) es) :=
  not_forall.mpr ⟨[{ name := "uplink", role := .tx, ifaces := ["wlan0".toList], udpInPort := 5801 }],
    not_forall.mpr ⟨"uplink", not_forall.mpr ⟨quotedRun, by decide +kernel⟩⟩⟩

end Waybeam.Link
