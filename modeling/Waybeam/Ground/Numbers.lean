/-
# `Waybeam.Ground.Numbers` — integers that are read for what they are

    jint            a primitive of a document, into a `long`
    qs_get_int      a value of a query, into an `int`

Both copy the text into a small buffer and want `strtol` to go through all of it.  That leaves what
`strtol` does by itself: it passes over white space, stops at a NUL, and a number that is too large
becomes the largest one.  The second is then cut to an `int`.
-/
import Waybeam.Ground.Query
import Waybeam.Tokens

namespace Waybeam

open Text Tokens

namespace Text

/-! ## Decimal texts -/

/-- The number that a text of digits is. -/
def digitsValue (s : Bytes) : Option ℤ :=
  if s ≠ [] ∧ ∀ c ∈ s, c.isDigit = true then some (Nat.ofDigitChars 10 s 0 : ℕ) else none

/-- The number that a text is: digits, with a sign or without. -/
def numeral : Bytes → Option ℤ
  | '-' :: s => (digitsValue s).map fun l => -l
  | '+' :: s => digitsValue s
  | s => digitsValue s

/-- It fits in a type of so many bits. -/
def InLong (bits : ℕ) (l : ℤ) : Prop := -2 ^ (bits - 1) ≤ l ∧ l < 2 ^ (bits - 1)

instance (bits : ℕ) (l : ℤ) : Decidable (InLong bits l) := inferInstanceAs (Decidable (_ ∧ _))

theorem magnitude_eq_digits (s : Bytes) :
    (∃ n : ℕ, magnitude s = some (n, []) ∧ digitsValue s = some n) ∨
      digitsValue s = none ∧ ∀ n, magnitude s ≠ some (n, []) := by
  by_cases hall : ∀ c ∈ s, c.isDigit = true
  · have htake : s.takeWhile Char.isDigit = s := List.takeWhile_eq_self_iff.mpr hall
    have hdrop : s.dropWhile Char.isDigit = [] := List.dropWhile_eq_nil_iff.mpr hall
    cases s with
    | nil => exact .inr ⟨rfl, fun n h => by cases h⟩
    | cons d ds =>
        refine .inl ⟨Nat.ofDigitChars 10 (d :: ds) 0, ?_, if_pos ⟨List.cons_ne_nil _ _, hall⟩⟩
        rw [magnitude, htake, hdrop]
  · refine .inr ⟨if_neg fun h => hall h.2, fun n h => ?_⟩
    rw [magnitude] at h
    split at h
    · cases h
    · exact hall (List.dropWhile_eq_nil_iff.mp (congrArg Prod.snd (Option.some.inj h)))

theorem numeral_unsigned {s : Bytes} (hminus : ∀ t, s = '-' :: t → False)
    (hplus : ∀ t, s = '+' :: t → False) : numeral s = digitsValue s := by
  unfold numeral
  split
  · exact (hminus _ rfl).elim
  · exact (hplus _ rfl).elim
  · rfl

/-- A digit of a numeral, or its sign. -/
theorem numeral_chars {s : Bytes} {l : ℤ} (h : numeral s = some l) :
    ∀ c ∈ s, c.isDigit ∨ c = '-' ∨ c = '+' := by
  have hdigits : ∀ {s : Bytes} {l : ℤ}, digitsValue s = some l → ∀ c ∈ s, c.isDigit := by
    intro s l h c hc
    rw [digitsValue] at h
    split at h
    · next hs => exact hs.2 c hc
    · cases h
  unfold numeral at h
  split at h
  · obtain ⟨n, hn, -⟩ := Option.map_eq_some_iff.mp h
    exact List.forall_mem_cons.mpr ⟨.inr (.inl rfl), fun c hc => .inl (hdigits hn c hc)⟩
  · exact List.forall_mem_cons.mpr ⟨.inr (.inr rfl), fun c hc => .inl (hdigits h c hc)⟩
  · exact fun c hc => .inl (hdigits h c hc)

/-- Neither white space nor a NUL is in a numeral. -/
theorem numeral_clean {s : Bytes} {l : ℤ} (h : numeral s = some l) :
    cstr s = s ∧ s.dropWhile isSpace = s := by
  have hchars := numeral_chars h
  constructor
  · refine cstr_of_free fun h0 => ?_
    rcases hchars _ h0 with h | h | h <;> exact absurd h (by decide)
  · cases s with
    | nil => rfl
    | cons c s =>
        refine List.dropWhile_cons_of_neg (Bool.eq_false_iff.mp ?_)
        rcases hchars c List.mem_cons_self with h | rfl | rfl
        · exact isSpace_of_isDigit h
        · rfl
        · rfl

/-- What is read to its end is a decimal text, white space in front of it apart. -/
theorem readInt_whole (s : Bytes) (l : ℤ) :
    readInt s = some (l, []) ↔ numeral (s.dropWhile isSpace) = some l := by
  have hread : ∀ (s : Bytes) (f : ℤ → ℤ),
      ((magnitude s).map fun r => (f r.1, r.2)) = some (l, []) ↔ (digitsValue s).map f = some l := by
    intro s f
    rcases magnitude_eq_digits s with ⟨n, hm, hd⟩ | ⟨hd, hm⟩
    · rw [hm, hd]
      simp
    · rw [hd, Option.map_none, Option.map_eq_some_iff]
      constructor
      · rintro ⟨⟨n, rest⟩, h, hout⟩
        cases hout
        exact absurd h (hm n)
      · intro h
        cases h
  have hplain : ∀ s : Bytes,
      ((magnitude s).map fun r => ((r.1 : ℤ), r.2)) = some (l, []) ↔ digitsValue s = some l := by
    intro s
    simpa using hread s id
  unfold readInt
  generalize s.dropWhile isSpace = t
  split
  · exact hread _ fun l => -l
  · exact hplain _
  · next hminus hplus =>
      rw [numeral_unsigned hminus hplus]
      exact hplain _

theorem clampLong_mem (bits : ℕ) (l : ℤ) : InLong bits (clampLong bits l) := by
  have hpos : (0 : ℤ) < 2 ^ (bits - 1) := by positivity
  rw [InLong, clampLong]
  generalize (2 : ℤ) ^ (bits - 1) = room at hpos
  omega

/-- What fits is kept, and nothing else is. -/
theorem clampLong_eq_self {bits : ℕ} {l : ℤ} : clampLong bits l = l ↔ InLong bits l :=
  ⟨fun h => h ▸ clampLong_mem bits l, fun h => clampLong_of_lt h.1 h.2⟩

end Text

namespace Tokens

/-! ## A primitive -/

/-- What is stored is the number that the text is. -/
def JintExact (long : ℕ) (t : Tok) : Prop := ∀ l, jint long [t] = some l → numeral t.text = some l

/-- `strtol` goes through a text, up to a NUL in it. -/
def GoneThrough (s : Bytes) : Prop := cstr s = [] ∨ (numeral ((cstr s).dropWhile isSpace)).isSome

/-- A short primitive that `strtol` goes through is a number that fits. -/
def PlainToken (long : ℕ) (t : Tok) : Prop :=
  t.type = .prim → t.text ≠ [] → t.text.length < 32 → GoneThrough t.text →
    ∃ l, numeral t.text = some l ∧ InLong long l

theorem jint_eq_some {long : ℕ} {t : Tok} {l : ℤ} : jint long [t] = some l ↔
    (t.type = .prim ∧ t.text ≠ [] ∧ t.text.length < 32) ∧
      (cstr t.text = [] ∧ l = 0 ∨
        ∃ v, numeral ((cstr t.text).dropWhile isSpace) = some v ∧ l = clampLong long v) := by
  rw [jint]
  by_cases hroom : t.type = .prim ∧ t.text ≠ [] ∧ t.text.length < 32
  · rw [if_pos hroom, and_iff_right hroom]
    cases hread : readInt (cstr t.text) with
    | none =>
        have hno : numeral ((cstr t.text).dropWhile isSpace) = none := by
          rw [Option.eq_none_iff_forall_ne_some]
          intro v hv
          cases hread.symm.trans ((readInt_whole _ _).mpr hv)
        rw [hno]
        by_cases hnil : cstr t.text = []
        · simp [hnil, eq_comm]
        · simp [hnil]
    | some r =>
        obtain ⟨v, rest⟩ := r
        have hne : cstr t.text ≠ [] := by
          intro hnil
          rw [hnil] at hread
          cases hread
        cases rest with
        | nil =>
            rw [(readInt_whole _ _).mp hread]
            simp [hne, eq_comm]
        | cons c rest =>
            have hno : numeral ((cstr t.text).dropWhile isSpace) = none := by
              rw [Option.eq_none_iff_forall_ne_some]
              intro v hv
              cases hread.symm.trans ((readInt_whole _ _).mpr hv)
            rw [hno]
            simp [hne]
  · rw [if_neg hroom]
    simp [hroom]

theorem jintExact_iff (long : ℕ) (t : Tok) : JintExact long t ↔ PlainToken long t := by
  constructor
  · intro h htype hne hlt hgone
    rcases hgone with hnil | hsome
    · have hzero := h 0 (jint_eq_some.mpr ⟨⟨htype, hne, hlt⟩, .inl ⟨hnil, rfl⟩⟩)
      exact absurd ((numeral_clean hzero).1.symm.trans hnil) hne
    · obtain ⟨v, hv⟩ := Option.isSome_iff_exists.mp hsome
      have hexact := h _ (jint_eq_some.mpr ⟨⟨htype, hne, hlt⟩, .inr ⟨v, hv, rfl⟩⟩)
      exact ⟨_, hexact, clampLong_mem long v⟩
  · intro h l hl
    obtain ⟨⟨htype, hne, hlt⟩, hread⟩ := jint_eq_some.mp hl
    have hgone : GoneThrough t.text := hread.imp (·.1) fun ⟨v, hv, _⟩ => Option.isSome_of_mem hv
    obtain ⟨v, hv, hfits⟩ := h htype hne hlt hgone
    obtain ⟨hcstr, hspace⟩ := numeral_clean hv
    rw [hcstr, hspace, hv] at hread
    rcases hread with ⟨hnil, -⟩ | ⟨v', hv', rfl⟩
    · exact absurd hnil hne
    · cases hv'
      rw [hv, clampLong_eq_self.mpr hfits]

end Tokens

namespace Ground

/-! ## A value of a query -/

/-- `qs_get_int` where a `long` has so many bits; `none` where it returns -1. -/
def qsGetIntOn (long : ℕ) (qs key : Bytes) : Option ℤ :=
  match qsGet qs key with
  | none => none
  | some v =>
      if v = [] ∨ 10 < v.length then none
      else
        match readInt v with
        | some (iv, []) => some (i32 (clampLong long iv))
        | _ => none

/-- What is stored is the number that the value is. -/
def QsExact (long : ℕ) (qs key : Bytes) : Prop :=
  ∀ iv, qsGetIntOn long qs key = some iv → ∃ v, qsGet qs key = some v ∧ numeral v = some iv

/-- A short value that `strtol` goes through is a number that fits an `int`. -/
def PlainValue (qs key : Bytes) : Prop :=
  ∀ v ∈ qsGet qs key, v ≠ [] → v.length ≤ 10 → (numeral (v.dropWhile isSpace)).isSome →
    ∃ l, numeral v = some l ∧ InLong 32 l

/-- Where a `long` has 64 bits, this is the reader of the other modules. -/
theorem qsGetInt_eq_on (qs key : Bytes) : qsGetInt qs key = qsGetIntOn 64 qs key := by
  have hread : ∀ v : Bytes, strtoll v = (readInt v).map fun r => (clampLong 64 r.1, r.2) := by
    intro v
    unfold strtoll readInt
    generalize v.dropWhile isSpace = t
    split
    · show _ = Option.map _ ((magnitude _).map fun r => (-(r.1 : ℤ), r.2))
      rw [Option.map_map]
      rfl
    · show _ = Option.map _ ((magnitude _).map fun r => ((r.1 : ℤ), r.2))
      rw [Option.map_map]
      rfl
    · next hminus hplus =>
        -- without a sign the other reader sees none either
        try split
        all_goals first
          | exact (hminus _ rfl).elim
          | exact (hplus _ rfl).elim
          | rw [Option.map_map]; rfl
  unfold qsGetInt qsGetIntOn
  cases qsGet qs key with
  | none => rfl
  | some v =>
      dsimp only
      rw [hread]
      cases readInt v with
      | none => rfl
      | some r =>
          obtain ⟨l, rest⟩ := r
          cases rest <;> rfl

theorem qsGetIntOn_eq_some {long : ℕ} {qs key : Bytes} {iv : ℤ} : qsGetIntOn long qs key = some iv ↔
    ∃ v, qsGet qs key = some v ∧ v ≠ [] ∧ v.length ≤ 10 ∧
      ∃ l, numeral (v.dropWhile isSpace) = some l ∧ iv = i32 (clampLong long l) := by
  unfold qsGetIntOn
  cases qsGet qs key with
  | none => simp
  | some v =>
      dsimp only
      simp only [Option.some_inj, exists_eq_left']
      by_cases hroom : v = [] ∨ 10 < v.length
      · rw [if_pos hroom]
        constructor
        · intro h
          cases h
        · rintro ⟨hne, hlen, -⟩
          exact absurd hlen (not_le.mpr (hroom.resolve_left hne))
      · rw [if_neg hroom]
        rw [not_or, not_lt] at hroom
        rw [and_iff_right hroom.1, and_iff_right hroom.2]
        simp only [← readInt_whole]
        cases hread : readInt v with
        | none => simp
        | some r =>
            obtain ⟨l, rest⟩ := r
            cases rest with
            | nil => simp [eq_comm]
            | cons c rest => simp

theorem qsExact_iff {long : ℕ} (hlong : 32 ≤ long) (qs key : Bytes) :
    QsExact long qs key ↔ PlainValue qs key := by
  constructor
  · intro h v hv hne hlen hgone
    obtain ⟨l, hl⟩ := Option.isSome_iff_exists.mp hgone
    obtain ⟨v', hv', hexact⟩ := h _ (qsGetIntOn_eq_some.mpr ⟨v, hv, hne, hlen, l, hl, rfl⟩)
    cases hv.symm.trans hv'
    exact ⟨_, hexact, i32_range _⟩
  · intro h iv hiv
    obtain ⟨v, hv, hne, hlen, l, hl, rfl⟩ := qsGetIntOn_eq_some.mp hiv
    obtain ⟨l', hl', hfits⟩ := h v hv hne hlen (Option.isSome_of_mem hl)
    rw [(numeral_clean hl').2, hl'] at hl
    cases hl
    have hwide : InLong long l := by
      have hpow : (2 : ℤ) ^ 31 ≤ 2 ^ (long - 1) := pow_le_pow_right₀ (by norm_num) (by omega)
      exact ⟨(neg_le_neg hpow).trans hfits.1, hfits.2.trans_le hpow⟩
    refine ⟨v, hv, ?_⟩
    rw [clampLong_eq_self.mpr hwide, i32_of_range hfits, hl']

/-- Either reader gives exact numbers, or none, where the text that `strtol` goes through is a number
that fits, and only there. -/
theorem integers_exact_iff {long : ℕ} (hlong : 32 ≤ long) :
    (∀ t : Tok, JintExact long t ↔ PlainToken long t) ∧
      ∀ qs key : Bytes, QsExact long qs key ↔ PlainValue qs key :=
  ⟨jintExact_iff long, qsExact_iff hlong⟩

theorem integers_exact_channel : QsExact 64 "chan=36".toList "chan".toList :=
  ((integers_exact_iff (by decide)).2 _ _).mpr fun v hv _ _ _ => by
    cases hv
    exact ⟨36, by decide, by decide⟩

/-- The largest `long`, the part before a NUL, and the low 32 bits. -/
theorem not_integers_exact :
    ¬JintExact 64 { type := .prim, text := "99999999999999999999".toList } ∧
      ¬JintExact 64 { type := .prim, text := "12\x00x".toList } ∧
      ¬QsExact 64 "link_id=9999999999".toList "link_id".toList := by
  refine ⟨fun h => ?_, fun h => ?_, fun h => ?_⟩
  · have hread : jint 64 [{ type := .prim, text := "99999999999999999999".toList }] = some (2 ^ 63 - 1) := by
      decide +kernel
    exact absurd (h _ hread) (by decide +kernel)
  · have hread : jint 64 [{ type := .prim, text := "12\x00x".toList }] = some 12 := by decide +kernel
    exact absurd (h _ hread) (by decide +kernel)
  · have hread : qsGetIntOn 64 "link_id=9999999999".toList "link_id".toList = some 1410065407 := by
      decide +kernel
    obtain ⟨v, hv, hexact⟩ := h _ hread
    cases hv
    exact absurd hexact (by decide +kernel)

end Ground

end Waybeam
