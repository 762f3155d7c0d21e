/-
# `Waybeam.Ground.Decode` — what the WebUI encodes is what the supervisor reads

The WebUI puts a value through `encodeURIComponent` and joins `key=value` pairs with `&`.  The
supervisor takes it apart again:

    qs_get          walks the pairs: the first `=`, the first `&`, lengths, then `strncmp`
    qs_pct_decode   `%XX`                  the radio endpoints
    url_decode      `%XX` and `+` → ' '    the telemetry endpoints, behind `qparam_dec`

The two decoders differ at a `+`, which the encoder writes as `%2B`, so on encoded text they
are the same (`urlDecode_eq`), and both give back what was encoded (`decode_query`).
-/
import Mathlib.Data.List.TakeWhile
import Waybeam.Ground.Query

namespace Waybeam.Ground

open Text

/-! ## The encoder -/

/-- What `encodeURIComponent` leaves as it is. -/
def unreserved (c : Char) : Bool := c.isAlphanum || "-_.!~*'()".toList.contains c

/-- A hexadecimal digit, in upper case. -/
def hexDigit (n : ℕ) : Char := "0123456789ABCDEF".toList.getD n '0'

/-- `encodeURIComponent`, on the bytes of a string. -/
def encodeURIComponent (s : Bytes) : Bytes :=
  s.flatMap fun c =>
    if unreserved c then [c] else ['%', hexDigit (c.toNat / 16), hexDigit (c.toNat % 16)]

/-- A pair of a query string. -/
structure QPair where
  key : Bytes
  value : Bytes
  key_free : ∀ c ∈ key, c ≠ '=' ∧ c ≠ '&' ∧ c ≠ '\x00'
  value_free : ∀ c ∈ value, c ≠ '&' ∧ c ≠ '\x00'

def QPair.text (q : QPair) : Bytes := q.key ++ '=' :: q.value

/-- Pairs joined with `&`. -/
def queryText (qs : List QPair) : Bytes := ['&'].intercalate (qs.map QPair.text)

/-! ## `qs_get` as the code walks -/

/-- The loop of `qs_get`; the text from `p` on. -/
def qsWalk (key : Bytes) : Bytes → Option Bytes
  | [] => none
  | c :: s =>
      let p := c :: s
      if '=' ∉ p then none
      else
        let kl := (p.takeWhile (· ≠ '=')).length
        let amp := (p.takeWhile (· ≠ '&')).length
        let val := p.drop (kl + 1)
        -- with the `&` before the `=` the length wraps, but then a key without `&` differs
        let vl := if '&' ∈ p then amp - (kl + 1) else val.length
        if kl = key.length ∧ p.take key.length = key then some (val.take vl)
        else if '&' ∉ p then none
        else qsWalk key (s.drop amp)
termination_by p => p.length
decreasing_by
  rw [List.length_drop, List.length_cons]
  omega

/-- `qs_get` on the C string `qs`. -/
def qsGetC (qs key : Bytes) : Option Bytes := qsWalk key (cstr qs)

/-! ## `url_decode` -/

/-- `url_decode` with room for that many bytes; `hexv` is `hexnib`. -/
def urlDecode : ℕ → Bytes → Bytes
  | 0, _ => []
  | _, [] => []
  | room + 1, '+' :: s => ' ' :: urlDecode room s
  | room + 1, '%' :: h :: l :: s =>
      match pctByte h l with
      | some c => c :: urlDecode room s
      | none => '%' :: urlDecode room (h :: l :: s)
  | room + 1, c :: s => c :: urlDecode room s

/-- `qparam_dec`: the C string it leaves in `out`, of `cap` bytes; `none` where it returns 0. -/
def qparamDec (qstr key : Bytes) (cap : ℕ) : Option Bytes :=
  (qsGetC qstr key).map fun v => cstr (urlDecode (cap - 1) v)

/-- `+` is a blank. -/
def plusToSpace (s : Bytes) : Bytes := s.map fun c => if c = '+' then ' ' else c

theorem pctByte_plus (h l : Char) :
    pctByte (if h = '+' then ' ' else h) (if l = '+' then ' ' else l) = pctByte h l := by
  have hblank : ∀ c, hexnib (if c = '+' then ' ' else c) = hexnib c := by
    intro c
    split
    · next hc =>
        rw [hc]
        decide
    · rfl
  rw [pctByte, pctByte, hblank, hblank]

theorem qsPctDecode_of_ne {c : Char} (hc : c ≠ '%') (room : ℕ) (s : Bytes) :
    qsPctDecode (room + 1) (c :: s) = c :: qsPctDecode room s := by
  rw [qsPctDecode]
  intro h l s' heq
  exact absurd heq hc

theorem qsPctDecode_of_byte {h l c : Char} (hc : pctByte h l = some c) (room : ℕ) (s : Bytes) :
    qsPctDecode (room + 1) ('%' :: h :: l :: s) = c :: qsPctDecode room s := by
  rw [qsPctDecode, hc]

theorem qsPctDecode_of_none {h l : Char} (hc : pctByte h l = none) (room : ℕ) (s : Bytes) :
    qsPctDecode (room + 1) ('%' :: h :: l :: s) = '%' :: qsPctDecode room (h :: l :: s) := by
  rw [qsPctDecode, hc]

/-- The telemetry decoder is the other one after `+` became a blank. -/
theorem urlDecode_eq (room : ℕ) (s : Bytes) :
    urlDecode room s = qsPctDecode room (plusToSpace s) := by
  fun_induction urlDecode room s with
  | case1 => rw [qsPctDecode]
  | case2 room => cases room <;> rfl
  | case3 room s ih =>
      rw [ih]
      exact (qsPctDecode_of_ne (by decide) room (plusToSpace s)).symm
  | case4 room h l s c hc ih =>
      rw [ih]
      exact (qsPctDecode_of_byte ((pctByte_plus h l).trans hc) room (plusToSpace s)).symm
  | case5 room h l s hc ih =>
      rw [ih]
      exact (qsPctDecode_of_none ((pctByte_plus h l).trans hc) room (plusToSpace s)).symm
  | case6 room c s hplus hesc ih =>
      rw [ih]
      have hkept : plusToSpace (c :: s) = c :: plusToSpace s := by
        rw [plusToSpace, List.map_cons, if_neg hplus]
        rfl
      rw [hkept, qsPctDecode]
      intro h l s' heq htail
      obtain ⟨h', l', s'', rfl⟩ : ∃ h' l' s'', s = h' :: l' :: s'' := by
        rcases s with - | ⟨h', - | ⟨l', s''⟩⟩
        · cases htail
        · cases htail
        · exact ⟨h', l', s'', rfl⟩
      exact hesc h' l' s'' heq rfl

theorem urlDecode_length_le (room : ℕ) (s : Bytes) : (urlDecode room s).length ≤ room := by
  rw [urlDecode_eq]
  exact qsPctDecode_length_le room _

/-! ## Encoded text -/

theorem hexnib_hexDigit {n : ℕ} (hn : n < 16) : hexnib (hexDigit n) = some n := by
  have hall : ∀ n < 16, hexnib (hexDigit n) = some n := by decide
  exact hall n hn

theorem pctByte_hexDigit {c : Char} (hc : c.toNat < 256) :
    pctByte (hexDigit (c.toNat / 16)) (hexDigit (c.toNat % 16)) = some c := by
  have hbyte : 16 * (c.toNat / 16) + c.toNat % 16 = c.toNat := by omega
  rw [pctByte, hexnib_hexDigit (by omega), hexnib_hexDigit (by omega)]
  show some (Char.ofNat (16 * (c.toNat / 16) + c.toNat % 16)) = some c
  rw [hbyte, Char.ofNat_toNat]

theorem encode_cons (c : Char) (s : Bytes) : encodeURIComponent (c :: s) =
    (if unreserved c then [c] else ['%', hexDigit (c.toNat / 16), hexDigit (c.toNat % 16)]) ++
      encodeURIComponent s :=
  List.flatMap_cons

/-- None of the characters that mean something to the reader is left as it is. -/
theorem unreserved_ne {c : Char} (h : unreserved c) :
    c ≠ '%' ∧ c ≠ '+' ∧ c ≠ '&' ∧ c ≠ '\x00' := by
  refine ⟨?_, ?_, ?_, ?_⟩ <;>
  · rintro rfl
    exact absurd h (by decide)

theorem hexDigit_ne {n : ℕ} (hn : n < 16) :
    hexDigit n ≠ '+' ∧ hexDigit n ≠ '&' ∧ hexDigit n ≠ '\x00' := by
  have hall : ∀ n < 16, hexDigit n ≠ '+' ∧ hexDigit n ≠ '&' ∧ hexDigit n ≠ '\x00' := by decide
  exact hall n hn

/-- Encoded text has none of `+`, `&` and NUL. -/
theorem mem_encode {s : Bytes} (hs : ∀ c ∈ s, c.toNat < 256) :
    ∀ c ∈ encodeURIComponent s, c ≠ '+' ∧ c ≠ '&' ∧ c ≠ '\x00' := by
  intro c hc
  obtain ⟨b, hb, hc⟩ := List.mem_flatMap.mp hc
  have hbyte := hs b hb
  split at hc
  · next hkeep =>
      rw [List.mem_singleton.mp hc]
      exact (unreserved_ne hkeep).2
  · rcases List.mem_cons.mp hc with rfl | hc
    · decide
    · rcases List.mem_cons.mp hc with rfl | hc
      · exact hexDigit_ne (by omega)
      · rw [List.mem_singleton.mp hc]
        exact hexDigit_ne (by omega)

theorem plusToSpace_encode {s : Bytes} (hs : ∀ c ∈ s, c.toNat < 256) :
    plusToSpace (encodeURIComponent s) = encodeURIComponent s := by
  rw [plusToSpace]
  conv_rhs => rw [← List.map_id (encodeURIComponent s)]
  exact List.map_congr_left fun c hc => if_neg (mem_encode hs c hc).1

/-- Decoding gives back what was encoded, where there is room for it. -/
theorem qsPctDecode_encode {s : Bytes} (hs : ∀ c ∈ s, c.toNat < 256) {room : ℕ}
    (hroom : s.length ≤ room) : qsPctDecode room (encodeURIComponent s) = s := by
  induction s generalizing room with
  | nil => cases room <;> rfl
  | cons c s ih =>
      obtain ⟨room, rfl⟩ : ∃ r, room = r + 1 := ⟨room - 1, by rw [List.length_cons] at hroom; omega⟩
      have htail : qsPctDecode room (encodeURIComponent s) = s :=
        ih (fun d hd => hs d (List.mem_cons_of_mem _ hd)) (Nat.le_of_succ_le_succ hroom)
      rw [encode_cons]
      split
      · next hkeep =>
          rw [List.singleton_append, qsPctDecode_of_ne (unreserved_ne hkeep).1, htail]
      · show qsPctDecode (room + 1) ('%' :: hexDigit _ :: hexDigit _ :: encodeURIComponent s) = _
        rw [qsPctDecode_of_byte (pctByte_hexDigit (hs c List.mem_cons_self)), htail]

theorem urlDecode_encode {s : Bytes} (hs : ∀ c ∈ s, c.toNat < 256) {room : ℕ}
    (hroom : s.length ≤ room) : urlDecode room (encodeURIComponent s) = s := by
  rw [urlDecode_eq, plusToSpace_encode hs, qsPctDecode_encode hs hroom]

/-! ## Extraction -/

/-- A key that a query string can have. -/
def IsKey (key : Bytes) : Prop := ∀ c ∈ key, c ≠ '=' ∧ c ≠ '&' ∧ c ≠ '\x00'

variable {key seg p : Bytes}

/-- The test of the loop: the name in front of the first `=` is the key. -/
theorem matches_iff (hkey : IsKey key) (heq : '=' ∈ p) :
    ((p.takeWhile (· ≠ '=')).length = key.length ∧ p.take key.length = key) ↔
      key ++ ['='] <+: p := by
  constructor
  · rintro ⟨hlen, htake⟩
    obtain ⟨name, rest, rfl, hname⟩ := List.eq_append_cons_of_mem heq
    have hrun : (name ++ '=' :: rest).takeWhile (· ≠ '=') = name :=
      takeWhile_run (fun c hc => decide_eq_true fun h => hname (h ▸ hc)) (by simp)
    rw [hrun] at hlen
    rw [List.take_left' hlen] at htake
    exact ⟨rest, by rw [htake, List.append_assoc]; rfl⟩
  · rintro ⟨rest, rfl⟩
    rw [List.append_assoc]
    refine ⟨?_, List.take_left' rfl⟩
    rw [takeWhile_run (fun c hc => decide_eq_true (hkey c hc).1) (by simp)]

/-- A key does not reach beyond an `&`. -/
theorem prefix_seg_iff (hkey : IsKey key) (tail : Bytes) (htail : ∀ c ∈ tail.head?, c = '&') :
    key ++ ['='] <+: seg ++ tail ↔ key ++ ['='] <+: seg := by
  constructor
  · intro h
    by_cases hlen : (key ++ ['=']).length ≤ seg.length
    · exact List.prefix_of_prefix_length_le h (List.prefix_append seg tail) hlen
    · exfalso
      rcases tail with - | ⟨c, tail⟩
      · rw [List.append_nil] at h
        exact hlen h.length_le
      · obtain rfl := htail c rfl
        have hsep : seg ++ ['&'] <+: seg ++ '&' :: tail := ⟨tail, by simp⟩
        have hin : seg ++ ['&'] <+: key ++ ['='] :=
          List.prefix_of_prefix_length_le hsep h (by
            rw [List.length_append, List.length_singleton]
            omega)
        have hmem : '&' ∈ key ++ ['='] :=
          hin.subset (List.mem_append_right seg (List.mem_singleton_self '&'))
        rcases List.mem_append.mp hmem with hmem | hmem
        · exact (hkey '&' hmem).2.1 rfl
        · exact absurd hmem (by decide)
  · exact fun h => h.trans (List.prefix_append seg tail)

/-- What the loop does with a pair that ends the text. -/
theorem qsWalk_last (hkey : IsKey key) (hseg : '&' ∉ seg) : qsWalk key seg =
    if key ++ ['='] <+: seg then some (seg.drop (key.length + 1)) else none := by
  rcases seg with - | ⟨c, s⟩
  · rw [qsWalk, if_neg]
    exact fun h => absurd h.length_le (by simp)
  · rw [qsWalk]
    by_cases heq : '=' ∈ c :: s
    · simp only [if_neg (not_not.mpr heq), matches_iff hkey heq, if_neg hseg, if_pos hseg]
      split
      · next hpre =>
          rw [((matches_iff hkey heq).mpr hpre).1, List.take_length]
      · rfl
    · rw [if_pos heq, if_neg]
      exact fun h => heq (h.subset (by simp))

/-- And with one that another follows. -/
theorem qsWalk_amp (hkey : IsKey key) (hseg : '&' ∉ seg) : qsWalk key (seg ++ '&' :: p) =
    if key ++ ['='] <+: seg then some (seg.drop (key.length + 1))
    else if '=' ∈ seg ++ '&' :: p then qsWalk key p else none := by
  have hmem : '&' ∈ seg ++ '&' :: p := List.mem_append_right _ List.mem_cons_self
  have hrun : (seg ++ '&' :: p).takeWhile (· ≠ '&') = seg :=
    takeWhile_run (fun c hc => decide_eq_true fun h => hseg (h ▸ hc)) (by simp)
  have hpre : key ++ ['='] <+: seg ++ '&' :: p ↔ key ++ ['='] <+: seg :=
    prefix_seg_iff hkey ('&' :: p) (by simp)
  obtain ⟨c, s, hcs⟩ : ∃ c s, seg ++ '&' :: p = c :: s := by
    rcases seg with - | ⟨c, s⟩
    · exact ⟨_, _, rfl⟩
    · exact ⟨_, _, rfl⟩
  have hnext : s.drop seg.length = p := by
    have : (c :: s).drop (seg.length + 1) = p := by
      rw [← hcs, List.drop_append, List.drop_of_length_le (by omega)]
      simp
    exact this
  rw [hcs] at hmem hrun hpre ⊢
  rw [qsWalk]
  by_cases heq : '=' ∈ c :: s
  · simp only [if_neg (not_not.mpr heq), matches_iff hkey heq, hrun, if_pos hmem,
      if_neg (not_not.mpr hmem), hpre, if_pos heq, hnext]
    split
    · next hmatch =>
        rw [((matches_iff hkey heq).mpr (hpre.mpr hmatch)).1, ← hcs]
        obtain ⟨v, rfl⟩ := hmatch
        have hlen : (key ++ ['=']).length = key.length + 1 := by simp
        rw [List.append_assoc _ v, List.drop_left' hlen, List.drop_left' hlen, List.length_append,
          hlen, Nat.add_sub_cancel_left, List.take_left]
    · rfl
  · rw [if_pos heq, if_neg fun h => heq ((hpre.mpr h).subset (by simp)), if_neg heq]

theorem qsGet_last (hseg : '&' ∉ seg) : qsGet seg key =
    if key ++ ['='] <+: seg then some (seg.drop (key.length + 1)) else none := by
  rw [qsGet, List.splitOn_eq_singleton hseg, List.findSome?_singleton]
  simp only [List.isPrefixOf_iff_prefix]

theorem qsGet_amp (hseg : '&' ∉ seg) : qsGet (seg ++ '&' :: p) key =
    if key ++ ['='] <+: seg then some (seg.drop (key.length + 1)) else qsGet p key := by
  rw [qsGet, List.splitOn_append_cons_self_of_not_mem hseg, List.findSome?_cons]
  simp only [List.isPrefixOf_iff_prefix]
  split
  · next h =>
      split at h
      · next hpre => rw [if_pos hpre, ← h]
      · cases h
  · next h =>
      split at h
      · cases h
      · next hpre =>
          rw [if_neg hpre]
          simp only [qsGet, List.isPrefixOf_iff_prefix]

/-- Without an `=` there is no value. -/
theorem qsGet_of_notMem (heq : '=' ∉ p) : qsGet p key = none := by
  refine List.findSome?_eq_none_iff.mpr fun seg hseg => ?_
  rw [if_neg]
  intro hpre
  have hmem : '=' ∈ seg := (List.isPrefixOf_iff_prefix.mp hpre).subset (by simp)
  exact heq (mem_splitOn hseg '=' hmem).1

/-- The walk of the code finds what looking through the pairs finds. -/
theorem qsWalk_eq (hkey : IsKey key) (p : Bytes) : qsWalk key p = qsGet p key := by
  induction hlen : p.length using Nat.strong_induction_on generalizing p with
  | _ n ih =>
      by_cases hamp : '&' ∈ p
      · obtain ⟨seg, rest, rfl, hseg⟩ := List.eq_append_cons_of_mem hamp
        have hrest : rest.length < n := by
          rw [List.length_append, List.length_cons] at hlen
          omega
        rw [qsWalk_amp hkey hseg, qsGet_amp hseg, ih _ hrest rest rfl]
        by_cases heq : '=' ∈ seg ++ '&' :: rest
        · rw [if_pos heq]
        · have hnone : qsGet rest key = none := by
            refine qsGet_of_notMem fun h => heq ?_
            exact List.mem_append_right _ (List.mem_cons_of_mem _ h)
          rw [if_neg heq, hnone]
      · rw [qsWalk_last hkey hamp, qsGet_last hamp]

/-! ## Query strings of pairs -/

theorem QPair.isKey (q : QPair) : IsKey q.key := q.key_free

theorem QPair.amp_notMem (q : QPair) : '&' ∉ q.text := by
  intro h
  rcases List.mem_append.mp h with h | h
  · exact (q.key_free '&' h).2.1 rfl
  · rcases List.mem_cons.mp h with h | h
    · exact absurd h (by decide)
    · exact (q.value_free '&' h).1 rfl

theorem QPair.nul_notMem (q : QPair) : '\x00' ∉ q.text := by
  intro h
  rcases List.mem_append.mp h with h | h
  · exact (q.key_free _ h).2.2 rfl
  · rcases List.mem_cons.mp h with h | h
    · exact absurd h (by decide)
    · exact (q.value_free _ h).2 rfl

/-- A pair is found by its whole key: two keys, one of which the other starts with, differ. -/
theorem QPair.prefix_iff (hkey : IsKey key) (q : QPair) :
    key ++ ['='] <+: q.text ↔ q.key = key := by
  have heq : '=' ∈ q.text := List.mem_append_right _ List.mem_cons_self
  have hrun : q.text.takeWhile (· ≠ '=') = q.key :=
    takeWhile_run (fun c hc => decide_eq_true (q.key_free c hc).1) (by simp)
  rw [← matches_iff hkey heq, hrun]
  constructor
  · rintro ⟨hlen, htake⟩
    rwa [QPair.text, List.take_left' hlen] at htake
  · rintro rfl
    exact ⟨rfl, List.take_left' rfl⟩

theorem QPair.drop_text (q : QPair) : q.text.drop (q.key.length + 1) = q.value := by
  rw [QPair.text, List.drop_append, List.drop_of_length_le (by omega)]
  simp

theorem queryText_nul (qs : List QPair) : '\x00' ∉ queryText qs := by
  intro h
  induction qs with
  | nil => cases h
  | cons q qs ih =>
      rcases qs with - | ⟨q', qs⟩
      · exact q.nul_notMem (by simpa [queryText] using h)
      · rw [queryText, List.map_cons, List.map_cons, List.intercalate_cons_cons] at h
        rcases List.mem_append.mp h with h | h
        · exact q.nul_notMem (by simpa using h)
        · exact ih (by simpa [queryText] using h)

theorem findSome_pairs (hkey : IsKey key) (qs : List QPair) :
    ((qs.map QPair.text).findSome? fun pair =>
      if (key ++ ['=']).isPrefixOf pair then some (pair.drop (key.length + 1)) else none) =
      (qs.find? fun q => decide (q.key = key)).map QPair.value := by
  induction qs with
  | nil => rfl
  | cons q qs ih =>
      rw [List.map_cons, List.findSome?_cons, ih, List.find?_cons]
      simp only [List.isPrefixOf_iff_prefix, q.prefix_iff hkey]
      by_cases hq : q.key = key
      · rw [if_pos hq, decide_eq_true hq, ← hq, q.drop_text]
        rfl
      · rw [if_neg hq, decide_eq_false hq]

/-- `qs_get` on pairs: the value of the first one with the key. -/
theorem qsGetC_query (hkey : IsKey key) (qs : List QPair) :
    qsGetC (queryText qs) key = (qs.find? fun q => decide (q.key = key)).map QPair.value := by
  rw [qsGetC, cstr_of_free (queryText_nul qs), qsWalk_eq hkey]
  rcases qs with - | ⟨q, qs⟩
  · exact qsGet_of_notMem List.not_mem_nil
  · rw [qsGet, queryText, List.splitOn_intercalate]
    · exact findSome_pairs hkey (q :: qs)
    · intro l hl
      obtain ⟨q', -, rfl⟩ := List.mem_map.mp hl
      exact q'.amp_notMem
    · exact List.cons_ne_nil _ _

/-- The pair that holds an encoded string. -/
def encodedPair (key s : Bytes) (hkey : IsKey key) (hs : ∀ c ∈ s, c.toNat < 256) : QPair where
  key := key
  value := encodeURIComponent s
  key_free := hkey
  value_free c hc := (mem_encode hs c hc).2

/-- What was encoded under a key is what both decoders give back, between whatever pairs it
stands; and nothing they are given makes either write more than its capacity less one. -/
theorem decode_query (key s : Bytes) (hkey : IsKey key)
    (hs : ∀ c ∈ s, c.toNat < 256 ∧ c ≠ '\x00') (cap : ℕ) (hcap : s.length < cap)
    (before after : List QPair) (hfirst : ∀ q ∈ before, q.key ≠ key) :
    (∃ v, qsGetC (queryText (before ++ encodedPair key s hkey (fun c hc => (hs c hc).1) :: after))
          key = some v ∧
        qsPctDecode (cap - 1) v = s ∧ urlDecode (cap - 1) v = s) ∧
      qparamDec (queryText (before ++ encodedPair key s hkey (fun c hc => (hs c hc).1) :: after))
        key cap = some s ∧
      ∀ cap' src, (qsPctDecode (cap' - 1) src).length ≤ cap' - 1 ∧
        (urlDecode (cap' - 1) src).length ≤ cap' - 1 := by
  have hbytes : ∀ c ∈ s, c.toNat < 256 := fun c hc => (hs c hc).1
  have hroom : s.length ≤ cap - 1 := by omega
  have hvalue : qsGetC (queryText (before ++ encodedPair key s hkey hbytes :: after)) key =
      some (encodeURIComponent s) := by
    rw [qsGetC_query hkey, List.find?_append, List.find?_eq_none.mpr, Option.none_or,
      List.find?_cons_of_pos (p := fun q : QPair => decide (q.key = key)) (decide_eq_true rfl)]
    · rfl
    · intro q hq
      simpa using hfirst q hq
  have hurl : urlDecode (cap - 1) (encodeURIComponent s) = s := urlDecode_encode hbytes hroom
  have hnul : '\x00' ∉ s := fun h => (hs _ h).2 rfl
  refine ⟨⟨_, hvalue, qsPctDecode_encode hbytes hroom, hurl⟩, ?_, fun _ src =>
    ⟨qsPctDecode_length_le _ src, urlDecode_length_le _ src⟩⟩
  rw [qparamDec, hvalue, Option.map_some, hurl, cstr_of_free hnul]

/-- A label with a blank, a plus, a percent sign and separators in it, behind a longer key. -/
theorem decode_query_label :
    qparamDec (queryText [⟨"label2".toList, "x=1".toList, by decide, by decide⟩,
        encodedPair "label".toList "HT40+ 5% a&b=c".toList (by unfold IsKey; decide) (by decide),
        ⟨"label".toList, "late".toList, by decide, by decide⟩]) "label".toList 64 =
      some "HT40+ 5% a&b=c".toList :=
  (decode_query _ _ (by unfold IsKey; decide) (by decide) 64 (by decide)
    [⟨"label2".toList, "x=1".toList, by decide, by decide⟩]
    [⟨"label".toList, "late".toList, by decide, by decide⟩] (by decide)).2.1

end Waybeam.Ground
