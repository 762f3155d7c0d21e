/-
# `Waybeam.Vehicle.QParam` — the vehicle reads a query as the ground does

The vehicle looks for the name anywhere in the query and then checks that it stands at the start of
a pair; the ground takes the query apart pair by pair (`qsGet`).  A name that ends another one, or
stands in a value, does not mislead the vehicle (`qparamFrom_eq`), so that the two agree:

    qparam_long    the number at the start of the value     `strtol`
    qparam_str     the value, decoded                       `url_decode` of the ground

and what the WebUI encodes, the vehicle reads (`qparamStr_encoded`).
-/
import Waybeam.Ground.Decode
import Waybeam.Vehicle.Api

namespace Waybeam.Vehicle.Api

open Text

/-- The loop of `qparam_str`, with room for that many bytes. -/
def decodeValue : ℕ → Bytes → Bytes
  | 0, _ => []
  | _, [] => []
  | _, '&' :: _ => []
  | room + 1, '+' :: s => ' ' :: decodeValue room s
  | room + 1, '%' :: h :: l :: s =>
      match Ground.pctByte h l with
      | some c => c :: decodeValue room s
      | none => '%' :: decodeValue room (h :: l :: s)
  | room + 1, c :: s => c :: decodeValue room s

/-- `qparam_str`: the C string it leaves in `out`, of `cap` bytes. -/
def qparamStr (qs : Option Bytes) (name : String) (cap : ℕ) : Option Bytes :=
  qs.bind (qparamFrom (fun v => some (cstr (decodeValue (cap - 1) v))) name.toList none 0)

section Search

variable {α : Type} {read : Bytes → Option α} {name : Bytes}

/-- What stands behind the next `&`, searched from the start of a pair. -/
def nextPair (read : Bytes → Option α) (name s : Bytes) : Option α :=
  match s.dropWhile (· ≠ '&') with
  | _ :: p => qparamFrom read name (some '&') 0 p
  | [] => none

theorem nextPair_cons {c : Char} (hc : c ≠ '&') (s : Bytes) :
    nextPair read name (c :: s) = nextPair read name s := by
  rw [nextPair, List.dropWhile_cons_of_pos (by simpa using hc), ← nextPair]

/-- Inside a pair the search finds nothing before the next one begins. -/
theorem qparamFrom_inside (hkey : Ground.IsKey name) (hne : name ≠ []) {s : Bytes} {before : Char}
    {skip : ℕ} (hin : skip ≠ 0 ∨ before ≠ '&') (hskip : ∀ c ∈ s.take skip, c ≠ '&') :
    qparamFrom read name (some before) skip s = nextPair read name s := by
  induction s generalizing before skip with
  | nil => cases skip <;> rfl
  | cons c p ih =>
      cases skip with
      | succ skip =>
          obtain ⟨hc, hp⟩ := List.forall_mem_cons.mp hskip
          rw [qparamFrom, nextPair_cons hc]
          exact ih (.inr hc) hp
      | zero =>
          have hbefore : before ≠ '&' := hin.resolve_left fun h => h rfl
          have hno : ¬(some before = none ∨ some before = some '&') := by simpa using hbefore
          rw [qparamFrom]
          by_cases hpre : name.isPrefixOf (c :: p)
          · -- the rest of a name that is passed over has no `&`
            obtain ⟨rest, hrest⟩ := List.isPrefixOf_iff_prefix.mp hpre
            obtain ⟨k, ks, rfl⟩ := List.exists_cons_of_ne_nil hne
            rw [List.cons_append] at hrest
            obtain ⟨rfl, rfl⟩ := List.cons.inj hrest
            have hc : k ≠ '&' := (hkey k List.mem_cons_self).2.1
            have hrec : qparamFrom read (k :: ks) (some k) ks.length (ks ++ rest) =
                nextPair read (k :: ks) (k :: (ks ++ rest)) := by
              rw [nextPair_cons hc]
              refine ih (.inr hc) ?_
              rw [List.take_left]
              exact fun c hc => (hkey c (List.mem_cons_of_mem _ hc)).2.1
            rw [if_pos hpre]
            split
            · rw [if_neg hno]
              exact hrec
            · exact hrec
          · rw [if_neg hpre]
            by_cases hc : c = '&'
            · rw [hc]
              rfl
            · rw [nextPair_cons hc]
              exact ih (.inr hc) (by simp)

/-- At the start of a pair it takes the value, or goes on with the next pair. -/
theorem qparamFrom_start (hkey : Ground.IsKey name) (hne : name ≠ []) {before : Option Char}
    (hstart : before = none ∨ before = some '&') (s : Bytes) :
    qparamFrom read name before 0 s =
      if name ++ ['='] <+: s then read (s.drop (name.length + 1)) else nextPair read name s := by
  cases s with
  | nil =>
      rw [qparamFrom, if_neg]
      · rfl
      · intro h
        exact absurd (List.prefix_nil.mp h) (by simp)
  | cons c p =>
      rw [qparamFrom]
      by_cases hpre : name.isPrefixOf (c :: p)
      · rw [if_pos hpre]
        obtain ⟨rest, hrest⟩ := List.isPrefixOf_iff_prefix.mp hpre
        obtain ⟨k, ks, rfl⟩ := List.exists_cons_of_ne_nil hne
        rw [List.cons_append] at hrest
        obtain ⟨rfl, rfl⟩ := List.cons.inj hrest
        have hc : k ≠ '&' := (hkey k List.mem_cons_self).2.1
        have hdrop : (k :: (ks ++ rest)).drop (k :: ks).length = rest := by
          rw [← List.cons_append, List.drop_left]
        have hpass : qparamFrom read (k :: ks) (some k) ks.length (ks ++ rest) =
            nextPair read (k :: ks) (k :: (ks ++ rest)) := by
          rw [nextPair_cons hc]
          refine qparamFrom_inside hkey hne (.inr hc) ?_
          rw [List.take_left]
          exact fun c hc => (hkey c (List.mem_cons_of_mem _ hc)).2.1
        have hiff : (k :: ks) ++ ['='] <+: k :: (ks ++ rest) ↔ ['='] <+: rest :=
          List.prefix_append_right_inj (k :: ks)
        rw [hdrop]
        split
        · next value =>
            rw [if_pos hstart, if_pos (hiff.mpr ⟨value, rfl⟩), ← List.drop_drop, hdrop, List.drop_one,
              List.tail_cons]
        · next hother =>
            rw [if_neg fun h => (hiff.mp h).elim fun value hvalue => hother value hvalue.symm]
            exact hpass
      · have hno : ¬name ++ ['='] <+: c :: p := fun h =>
          hpre (List.isPrefixOf_iff_prefix.mpr ((List.prefix_append name ['=']).trans h))
        rw [if_neg hpre, if_neg hno]
        by_cases hc : c = '&'
        · rw [hc]
          rfl
        · rw [nextPair_cons hc]
          exact qparamFrom_inside hkey hne (.inr hc) (by simp)

theorem nextPair_amp {seg : Bytes} (hseg : '&' ∉ seg) (p : Bytes) :
    nextPair read name (seg ++ '&' :: p) = qparamFrom read name (some '&') 0 p := by
  have hdrop : (seg ++ '&' :: p).dropWhile (· ≠ '&') = '&' :: p :=
    dropWhile_run (fun c hc => decide_eq_true fun h => hseg (h ▸ hc)) (by simp)
  rw [nextPair, hdrop]

theorem nextPair_last {seg : Bytes} (hseg : '&' ∉ seg) : nextPair read name seg = none := by
  have hdrop : seg.dropWhile (· ≠ '&') = [] :=
    List.dropWhile_eq_nil_iff.mpr fun c hc => decide_eq_true fun h => hseg (h ▸ hc)
  rw [nextPair, hdrop]

/-- The search is the one that takes the query apart, for a reader that stops at `&`. -/
theorem qparamFrom_eq (hkey : Ground.IsKey name) (hne : name ≠ [])
    (hread : ∀ v rest, '&' ∉ v → read (v ++ '&' :: rest) = read v) {before : Option Char}
    (hstart : before = none ∨ before = some '&') (qs : Bytes) :
    qparamFrom read name before 0 qs = (Ground.qsGet qs name).bind read := by
  induction hlen : qs.length using Nat.strong_induction_on generalizing qs before with
  | _ n ih =>
      rw [qparamFrom_start hkey hne hstart]
      by_cases hamp : '&' ∈ qs
      · obtain ⟨seg, p, rfl, hseg⟩ := List.eq_append_cons_of_mem hamp
        have hp : p.length < n := by
          rw [← hlen, List.length_append, List.length_cons]
          omega
        have hiff : name ++ ['='] <+: seg ++ '&' :: p ↔ name ++ ['='] <+: seg :=
          Ground.prefix_seg_iff hkey ('&' :: p) fun c hc => (Option.some.inj hc).symm
        rw [Ground.qsGet_amp hseg, nextPair_amp hseg, ih p.length hp (.inr rfl) p rfl]
        by_cases hpre : name ++ ['='] <+: seg
        · have hroom : name.length + 1 ≤ seg.length := by
            have hle := hpre.length_le
            rwa [List.length_append, List.length_singleton] at hle
          rw [if_pos (hiff.mpr hpre), if_pos hpre, Option.bind_some, List.drop_append_of_le_length hroom]
          exact hread _ _ fun h => hseg (List.mem_of_mem_drop h)
        · rw [if_neg (hiff.not.mpr hpre), if_neg hpre]
      · rw [Ground.qsGet_last hamp, nextPair_last hamp]
        by_cases hpre : name ++ ['='] <+: qs
        · rw [if_pos hpre, if_pos hpre, Option.bind_some]
        · rw [if_neg hpre, if_neg hpre, Option.bind_none]

end Search

/-! ## The two readers -/

theorem magnitude_amp (v rest : Bytes) :
    (magnitude (v ++ '&' :: rest)).map Prod.fst = (magnitude v).map Prod.fst := by
  rw [magnitude, magnitude, takeWhile_stop (by decide)]
  cases v.takeWhile Char.isDigit <;> rfl

theorem dropSpaces_amp (v rest : Bytes) :
    (v ++ '&' :: rest).dropWhile isSpace = v.dropWhile isSpace ++ '&' :: rest := by
  induction v with
  | nil => rfl
  | cons c v ih =>
      rw [List.cons_append, List.dropWhile_cons, List.dropWhile_cons]
      split
      · exact ih
      · rfl

theorem readInt_amp (v rest : Bytes) :
    (readInt (v ++ '&' :: rest)).map Prod.fst = (readInt v).map Prod.fst := by
  have hmag : ∀ (f : ℕ → ℤ) (s : Bytes), ((magnitude (s ++ '&' :: rest)).map fun r => (f r.1, r.2)).map Prod.fst =
      ((magnitude s).map fun r => (f r.1, r.2)).map Prod.fst := by
    intro f s
    have hfst := congrArg (Option.map f) (magnitude_amp s rest)
    rw [Option.map_map, Option.map_map] at hfst ⊢
    exact hfst
  rw [readInt, readInt, dropSpaces_amp]
  cases v.dropWhile isSpace with
  | nil => rfl
  | cons c t =>
      rw [List.cons_append]
      split
      · next heq =>
          obtain ⟨rfl, rfl⟩ := List.cons.inj heq
          exact hmag (fun n => -(n : ℤ)) t
      · next heq =>
          obtain ⟨rfl, rfl⟩ := List.cons.inj heq
          exact hmag (fun n => (n : ℤ)) t
      · next hminus hplus =>
          split
          · next heq => exact absurd (congrArg (· ++ '&' :: rest) heq) (hminus _)
          · next heq => exact absurd (congrArg (· ++ '&' :: rest) heq) (hplus _)
          · exact hmag (fun n => (n : ℤ)) (c :: t)

theorem strtol_amp (long : ℕ) (v rest : Bytes) : strtol long (v ++ '&' :: rest) = strtol long v := by
  have hread := congrArg (Option.map (clampLong long)) (readInt_amp v rest)
  rw [Option.map_map, Option.map_map] at hread
  exact hread

theorem decodeValue_amp (room : ℕ) (rest : Bytes) : decodeValue room ('&' :: rest) = [] := by
  cases room <;> rfl

theorem pctByte_amp (h l : Char) (hamp : h = '&' ∨ l = '&') : Ground.pctByte h l = none := by
  have hnib : Ground.hexnib '&' = none := by decide
  rcases hamp with rfl | rfl
  · rw [Ground.pctByte, hnib]
  · rw [Ground.pctByte, hnib]
    cases Ground.hexnib h <;> rfl

/-- A `%` that begins no escape stands for itself. -/
theorem decodeValue_percent {room : ℕ} {w : Bytes}
    (h : ∀ a b s, w = a :: b :: s → Ground.pctByte a b = none) :
    decodeValue (room + 1) ('%' :: w) = '%' :: decodeValue room w := by
  rcases w with - | ⟨a, - | ⟨b, s⟩⟩
  · rfl
  · rfl
  · rw [decodeValue, h a b s rfl]

/-- Up to the `&` it is the decoder of the ground. -/
theorem decodeValue_seg {v : Bytes} (hv : '&' ∉ v) (room : ℕ) (tail : Bytes)
    (htail : ∀ c ∈ tail.head?, c = '&') : decodeValue room (v ++ tail) = Ground.urlDecode room v := by
  have hend : ∀ room, decodeValue room tail = [] := by
    intro room
    cases tail with
    | nil => cases room <;> rfl
    | cons c tail =>
        rw [htail c rfl]
        exact decodeValue_amp room tail
  fun_induction Ground.urlDecode room v with
  | case1 => rw [decodeValue]
  | case2 => exact hend _
  | case3 room s ih =>
      show ' ' :: decodeValue room (s ++ tail) = _
      rw [ih fun h => hv (List.mem_cons_of_mem _ h)]
  | case4 room h l s c hc ih =>
      rw [List.cons_append, List.cons_append, List.cons_append, decodeValue, hc]
      dsimp only
      rw [ih fun h => hv (List.mem_cons_of_mem _ (List.mem_cons_of_mem _ (List.mem_cons_of_mem _ h)))]
  | case5 room h l s hc ih =>
      rw [List.cons_append, List.cons_append, List.cons_append, decodeValue, hc]
      dsimp only
      rw [← ih fun h => hv (List.mem_cons_of_mem _ h)]
      rfl
  | case6 room c s hplus hesc ih =>
      have hrest := ih fun h => hv (List.mem_cons_of_mem _ h)
      have hc : c ≠ '&' := fun h => hv (h ▸ List.mem_cons_self)
      rw [List.cons_append]
      by_cases hpct : c = '%'
      · -- what follows it is too short to be an escape
        rw [hpct, decodeValue_percent, hrest]
        intro h l s' heq
        rcases s with - | ⟨a, - | ⟨b, s⟩⟩
        · exact pctByte_amp h l (.inl (htail h (by rw [show tail = h :: l :: s' from heq]; rfl)))
        · obtain ⟨-, heq⟩ := List.cons.inj heq
          exact pctByte_amp h l (.inr (htail l (by rw [show tail = l :: s' from heq]; rfl)))
        · exact absurd rfl (hesc a b s hpct)
      · rw [decodeValue, hrest]
        · exact hc
        · exact hplus
        · intro h l s' heq
          exact absurd heq hpct

/-! ## The two daemons -/

/-- `qparam_long` reads the number at the start of the value the ground finds. -/
theorem qparamLong_eq (long : ℕ) (qs : Bytes) {name : String} (hkey : Ground.IsKey name.toList)
    (hne : name.toList ≠ []) :
    qparamLong long (some qs) name = (Ground.qsGet qs name.toList).bind (strtol long) :=
  qparamFrom_eq hkey hne (fun v rest _ => strtol_amp long v rest) (.inl rfl) qs

/-- `qparam_str` decodes that value as the ground does. -/
theorem qparamStr_eq (cap : ℕ) (qs : Bytes) {name : String} (hkey : Ground.IsKey name.toList)
    (hne : name.toList ≠ []) : qparamStr (some qs) name cap =
      (Ground.qsGet qs name.toList).map fun v => cstr (Ground.urlDecode (cap - 1) v) := by
  have hread : ∀ v rest, '&' ∉ v → decodeValue (cap - 1) (v ++ '&' :: rest) = decodeValue (cap - 1) v := by
    intro v rest hv
    rw [decodeValue_seg hv _ ('&' :: rest) fun c hc => (Option.some.inj hc).symm,
      ← decodeValue_seg hv _ [] (by simp), List.append_nil]
  refine (qparamFrom_eq hkey hne (fun v rest hv => by rw [hread v rest hv]) (.inl rfl) qs).trans ?_
  cases hv : Ground.qsGet qs name.toList with
  | none => rfl
  | some v =>
      have hamp : '&' ∉ v := fun h => (Ground.qsGet_chars hv '&' h).2 rfl
      rw [Option.bind_some, Option.map_some, ← decodeValue_seg hamp _ [] (by simp), List.append_nil]

/-- Both daemons find the same value under a key, wherever the key's text stands besides, and read
the same in it. -/
theorem qparam_eq (long cap : ℕ) (qs : Bytes) {name : String} (hkey : Ground.IsKey name.toList)
    (hne : name.toList ≠ []) :
    qparamLong long (some qs) name = (Ground.qsGet qs name.toList).bind (strtol long) ∧
      qparamStr (some qs) name cap =
        (Ground.qsGet qs name.toList).map fun v => cstr (Ground.urlDecode (cap - 1) v) :=
  ⟨qparamLong_eq long qs hkey hne, qparamStr_eq cap qs hkey hne⟩

/-- With a name that ends another one, and one that stands in a value. -/
theorem qparam_eq_key :
    qparamLong 64 (some "fec_key=1&x=key=2&key=17&key=3".toList) "key" =
        (Ground.qsGet "fec_key=1&x=key=2&key=17&key=3".toList "key".toList).bind (strtol 64) ∧
      qparamStr (some "fec_key=1&x=key=2&key=17&key=3".toList) "key" 32 =
        (Ground.qsGet "fec_key=1&x=key=2&key=17&key=3".toList "key".toList).map
          fun v => cstr (Ground.urlDecode 31 v) :=
  qparam_eq 64 32 _ (show ∀ c ∈ "key".toList, _ by decide) (by decide)

example : qparamLong 64 (some "fec_key=1&x=key=2&key=17&key=3".toList) "key" = some 17 := by decide +kernel

/-- What the WebUI encodes, the vehicle reads. -/
theorem qparamStr_encoded {qs : List Ground.QPair} {q : Ground.QPair} {name : String} {s : Bytes} {cap : ℕ}
    (hkey : Ground.IsKey name.toList) (hne : name.toList ≠ [])
    (hfirst : qs.find? (fun q => decide (q.key = name.toList)) = some q)
    (hvalue : q.value = Ground.encodeURIComponent s) (hs : ∀ c ∈ s, c.toNat < 256) (hfree : '\x00' ∉ s)
    (hroom : s.length ≤ cap - 1) : qparamStr (some (Ground.queryText qs)) name cap = some s := by
  have hget : Ground.qsGet (Ground.queryText qs) name.toList = some q.value := by
    have hwalk := Ground.qsGetC_query hkey qs
    rwa [Ground.qsGetC, cstr_of_free (Ground.queryText_nul qs), Ground.qsWalk_eq hkey, hfirst] at hwalk
  rw [qparamStr_eq cap _ hkey hne, hget, Option.map_some, hvalue, Ground.urlDecode_encode hs hroom,
    cstr_of_free hfree]

end Waybeam.Vehicle.Api
