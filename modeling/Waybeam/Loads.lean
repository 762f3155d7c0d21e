/-
# `Waybeam.Loads` — printed documents, as Python reads them

A document whose numbers are whole is the same tree to `json.loads` that the token reader of C
finds (`loads_print`, beside `Doc.jsonParse_print`).  A whole number has no leading zero and what
stands behind it is no part of a number, so there is one way to read it (`number_signed`).
-/
import Waybeam.Doc
import Waybeam.Json

namespace Waybeam

open Text Tokens

namespace Json

/-! ## Numbers -/

/-- No leading zeros. -/
theorem decimal_no_zero {n : ℕ} (hn : n ≠ 0) {c : Char} {s : Bytes} (h : decimal n = c :: s) : c ≠ '0' := by
  induction n using Nat.strongRecOn generalizing s with
  | ind n ih =>
      have hdigit : ∀ d < 10, d ≠ 0 → Nat.digitChar d ≠ '0' := by decide
      rw [decimal, Nat.toDigits_eq_if (by decide)] at h
      split at h
      · next hlt =>
          obtain ⟨rfl, -⟩ := List.cons.inj h
          exact hdigit n hlt hn
      · next hge =>
          cases hd : decimal (n / 10) with
          | nil => exact absurd hd (decimal_ne_nil _)
          | cons d ds =>
              rw [show Nat.toDigits 10 (n / 10) = d :: ds from hd] at h
              obtain ⟨rfl, -⟩ := List.cons.inj h
              exact ih (n / 10) (by omega) (by omega) hd

variable {rest : Bytes}

/-- What ends a number for the token reader ends it here as well. -/
theorem not_stops {c : Char} (hc : Parser.endsPrim c = false) (s : Bytes) : ¬Doc.Stops (c :: s) := by
  intro h
  exact Bool.false_ne_true (hc.symm.trans h)

theorem ends_of_stops (h : Doc.Stops rest) : Ends rest := by
  intro c hc
  have hplain := Doc.head_of_stops h c hc
  rw [Bool.eq_false_iff]
  intro hdig
  simp [Doc.plainChar, Char.isAlphanum, hdig] at hplain

theorem integer_decimal (n : ℕ) (h : Ends rest) : integer (decimal n ++ rest) = some (decimal n, rest) := by
  have hall : ∀ c ∈ decimal n, c.isDigit = true := fun c hc => isDigit_of_mem_decimal hc
  unfold integer
  split
  · next s heq =>
      -- a zero stands alone
      by_cases hn : n = 0
      · subst hn
        cases heq
        rfl
      · cases hd : decimal n with
        | nil => exact absurd hd (decimal_ne_nil n)
        | cons c ds =>
            rw [hd] at heq
            exact absurd (List.cons.inj heq).1 (decimal_no_zero hn hd)
  · have hdigits : digits (decimal n ++ rest) = decimal n := takeWhile_run hall h
    rw [hdigits, if_neg (decimal_ne_nil n), dropWhile_run hall h]

theorem fraction_stops (h : Doc.Stops rest) : fraction rest = ([], rest) := by
  unfold fraction
  split
  · exact absurd h (not_stops rfl _)
  · rfl

theorem exponent_stops (h : Doc.Stops rest) : exponent rest = (none, rest) := by
  cases rest with
  | nil => rfl
  | cons c s =>
      have hc : ¬(c = 'e' ∨ c = 'E') := by
        rintro (rfl | rfl)
        · exact not_stops rfl _ h
        · exact not_stops rfl _ h
      rw [exponent, if_neg fun hexp => hc hexp.1]

theorem unsigned_decimal (negative : Bool) (n : ℕ) (h : Doc.Stops rest) :
    unsigned negative (decimal n ++ rest) = some (.int ((if negative then -1 else 1) * n), rest) := by
  have hval : Nat.ofDigitChars 10 (decimal n) 0 = n := Nat.ofDigitChars_ten_toDigits
  rw [unsigned, integer_decimal n (ends_of_stops h), Option.map_some]
  simp only [fraction_stops h, exponent_stops h, and_self, if_true, hval]

theorem number_digit {c : Char} (hc : c.isDigit) (s : Bytes) : number (c :: s) = unsigned false (c :: s) := by
  unfold number
  split
  · next h => cases h; exact absurd hc (by decide)
  · next h => cases h; exact absurd hc (by decide)
  · next h => cases h; exact absurd hc (by decide)
  · rfl

/-- A whole number is read back as it was printed. -/
theorem number_signed (l : ℤ) (h : Doc.Stops rest) : number (signed l ++ rest) = some (.int l, rest) := by
  cases l with
  | ofNat n =>
      have hread := unsigned_decimal false n h
      show number (decimal n ++ rest) = _
      cases hd : decimal n with
      | nil => exact absurd hd (decimal_ne_nil n)
      | cons c s =>
          have hdig : c.isDigit := isDigit_of_mem_decimal (hd ▸ List.mem_cons_self)
          rw [hd, List.cons_append] at hread
          rw [List.cons_append, number_digit hdig, hread]
          simp
  | negSucc n =>
      have hinf : "Infinity".toList.isPrefixOf (decimal (n + 1) ++ rest) = false := by
        cases hd : decimal (n + 1) with
        | nil => exact absurd hd (decimal_ne_nil _)
        | cons c s =>
            have hdig : c.isDigit := isDigit_of_mem_decimal (hd ▸ List.mem_cons_self)
            have hne : ('I' == c) = false := by
              rw [beq_eq_false_iff_ne]
              rintro rfl
              exact absurd hdig (by decide)
            have hinf : "Infinity".toList = 'I' :: "nfinity".toList := rfl
            rw [hinf, List.cons_append, List.isPrefixOf_cons_cons, hne, Bool.false_and]
      have hneg : number ('-' :: (decimal (n + 1) ++ rest)) = unsigned true (decimal (n + 1) ++ rest) := by
        simp only [number, hinf]
      have hval : (if true = true then (-1 : ℤ) else 1) * (n + 1 : ℕ) = Int.negSucc n := by
        rw [if_pos rfl, neg_one_mul]
        rfl
      show number ('-' :: (decimal (n + 1) ++ rest)) = _
      rw [hneg, unsigned_decimal true (n + 1) h, hval]

/-! ## Strings -/

theorem plain_ascii {c : Char} (h : Doc.plainChar c = true) : 0x20 ≤ c.toNat ∧ c.toNat < 0x80 := by
  simp only [Doc.plainChar, Bool.or_eq_true, decide_eq_true_eq] at h
  have hletter : c.isAlphanum = true →
      ((65 ≤ c.toNat ∧ c.toNat ≤ 90) ∨ (97 ≤ c.toNat ∧ c.toNat ≤ 122)) ∨ 48 ≤ c.toNat ∧ c.toNat ≤ 57 := by
    intro h
    change ((decide (65 ≤ c.val ∧ c.val ≤ 90) || decide (97 ≤ c.val) && decide (c.val ≤ 122)) ||
      decide (48 ≤ c.val) && decide (c.val ≤ 57)) = true at h
    simp only [Bool.or_eq_true, Bool.and_eq_true, decide_eq_true_eq, UInt32.le_iff_toNat_le] at h
    exact h
  rcases h with ((h | rfl) | rfl) | rfl
  · have hrange := hletter h
    omega
  all_goals decide

theorem plain_not_ws {c : Char} (h : Doc.plainChar c = true) : isWs c = false := by
  rw [Bool.eq_false_iff]
  intro hws
  simp only [isWs, Bool.or_eq_true, decide_eq_true_eq] at hws
  rcases hws with ((rfl | rfl) | rfl) | rfl <;> exact absurd h (by decide)

theorem string_plain {s : Bytes} (h : Doc.PlainText s) (rest : Bytes) :
    string (s ++ '"' :: rest) = some (points s, rest) := by
  induction s with
  | nil =>
      rw [List.nil_append, string]
      rfl
  | cons c s ih =>
      obtain ⟨hc, hs⟩ := List.forall_mem_cons.mp h
      have hquote : c ≠ '"' := by rintro rfl; exact absurd hc (by decide)
      have hslash : c ≠ '\\' := by rintro rfl; exact absurd hc (by decide)
      have hctl : ¬c.toNat < 0x20 := Nat.not_lt.mpr (plain_ascii hc).1
      rw [List.cons_append, string, if_neg hctl, ih hs]
      · rfl
      · exact hquote
      · intro _ _ _ _ _ heq
        exact absurd heq hslash
      · intro _ _ heq
        exact absurd heq hslash

theorem joinSurrogates_plain {s : Bytes} (h : Doc.PlainText s) : joinSurrogates (points s) = points s := by
  induction s with
  | nil => rfl
  | cons c s ih =>
      obtain ⟨hc, hs⟩ := List.forall_mem_cons.mp h
      have hlow := (plain_ascii hc).2
      cases s with
      | nil => rfl
      | cons d s =>
          have hpair : ¬(0xD800 ≤ c.toNat ∧ c.toNat < 0xDC00 ∧ 0xDC00 ≤ d.toNat ∧ d.toNat < 0xE000) := by
            omega
          show joinSurrogates (c.toNat :: d.toNat :: points s) = _
          rw [joinSurrogates, if_neg hpair]
          exact congrArg (c.toNat :: ·) (ih hs)

theorem utf8_ascii {s : Bytes} (h : ∀ c ∈ s, c.toNat < 0x80) : utf8 s = some s := by
  induction s with
  | nil => rfl
  | cons c s ih =>
      obtain ⟨hc, hs⟩ := List.forall_mem_cons.mp h
      unfold utf8
      simp only [hc, if_true]
      rw [ih hs, Option.map_some]

end Json

/-! ## Trees -/

namespace Doc

mutual

/-- All numbers are whole. -/
def Integral : Doc → Prop
  | .prim s => ∃ l, s = signed l
  | .str _ => True
  | .arr ds => IntegralItems ds
  | .obj ms => IntegralMembers ms

def IntegralItems : List Doc → Prop
  | [] => True
  | d :: ds => Integral d ∧ IntegralItems ds

def IntegralMembers : List (Bytes × Doc) → Prop
  | [] => True
  | (_, d) :: ms => Integral d ∧ IntegralMembers ms

end

mutual

/-- The document as a value. -/
def json : Doc → Json
  | .prim s => .int (((readInt s).map Prod.fst).getD 0)
  | .str s => .str (Json.points s)
  | .arr ds => .arr (jsonItems ds)
  | .obj ms => .obj (jsonMembers ms)

def jsonItems : List Doc → List Json
  | [] => []
  | d :: ds => json d :: jsonItems ds

def jsonMembers : List (Bytes × Doc) → List (List ℕ × Json)
  | [] => []
  | (k, d) :: ms => (Json.points k, json d) :: jsonMembers ms

end

theorem jsonMembers_eq_map (ms : List (Bytes × Doc)) :
    jsonMembers ms = ms.map fun m => (Json.points m.1, json m.2) := by
  induction ms with
  | nil => rfl
  | cons m ms ih => exact congrArg ((Json.points m.1, json m.2) :: ·) ih

theorem jsonItems_eq_map (ds : List Doc) : jsonItems ds = ds.map json := by
  induction ds with
  | nil => rfl
  | cons d ds ih => exact congrArg (json d :: ·) ih

theorem points_inj {s t : List Char} (h : Json.points s = Json.points t) : s = t :=
  (List.map_inj_right fun _ _ hc => Char.toNat_inj.mp hc).mp h

/-- The value of any name, where no name is there twice. -/
theorem member_json {ms : List (Bytes × Doc)} (hnodup : (ms.map Prod.fst).Nodup) {key : Bytes} {d : Doc}
    (h : (key, d) ∈ ms) : Json.member (jsonMembers ms) key = some (json d) := by
  obtain ⟨before, after, rfl⟩ := List.append_of_mem h
  have hother : ∀ m ∈ after, m.1 ≠ key := by
    intro m hm heq
    rw [List.map_append, List.nodup_append] at hnodup
    exact (List.nodup_cons.mp hnodup.2.1).1 (List.mem_map.mpr ⟨m, hm, heq⟩)
  have hlast : (after.map fun m => (Json.points m.1, json m.2)).reverse.find?
      (fun m => decide (m.1 = Json.points key)) = none := by
    rw [List.find?_eq_none]
    intro m hm
    obtain ⟨n, hn, rfl⟩ := List.mem_map.mp (List.mem_reverse.mp hm)
    exact fun heq => hother n hn (points_inj (of_decide_eq_true heq))
  rw [Json.member, jsonMembers_eq_map, List.map_append, List.map_cons, List.reverse_append,
    List.reverse_cons, List.append_assoc, List.find?_append, hlast, Option.none_or,
    List.singleton_append, List.find?_cons_of_pos (by simp)]
  rfl

/-- A name that is not there. -/
theorem member_json_none {ms : List (Bytes × Doc)} {key : Bytes} (h : ∀ m ∈ ms, m.1 ≠ key) :
    Json.member (jsonMembers ms) key = none := by
  have hnone : (jsonMembers ms).reverse.find? (fun m => decide (m.1 = Json.points key)) = none := by
    rw [List.find?_eq_none, jsonMembers_eq_map]
    intro m hm
    obtain ⟨n, hn, rfl⟩ := List.mem_map.mp (List.mem_reverse.mp hm)
    exact fun heq => h n hn (points_inj (of_decide_eq_true heq))
  rw [Json.member, hnone]
  rfl

theorem json_signed (l : ℤ) : json (.prim (signed l)) = .int l := by
  have hread : readInt (signed l ++ []) = some (l, []) := readInt_signed l (by intro c hc; cases hc)
  rw [List.append_nil] at hread
  rw [json, hread]
  rfl

/-- A document starts with no white space. -/
theorem skipWs_print {d : Doc} (hp : Plain d) (rest : Bytes) : Json.skipWs (print d ++ rest) = print d ++ rest := by
  have hstart : ∀ {c : Char} (s : Bytes), Json.isWs c = false → Json.skipWs (c :: s) = c :: s := by
    intro c s hc
    rw [Json.skipWs, List.dropWhile_cons, hc]
    rfl
  cases d with
  | prim s =>
      obtain ⟨hne, hs⟩ := hp
      cases s with
      | nil => exact absurd rfl hne
      | cons c s =>
          have hc := Json.plain_not_ws (hs c List.mem_cons_self)
          exact hstart _ hc
  | str s => exact hstart _ rfl
  | arr ds =>
      cases ds with
      | nil => exact hstart _ rfl
      | cons d ds => exact hstart _ rfl
  | obj ms =>
      cases ms with
      | nil => exact hstart _ rfl
      | cons m ms => exact hstart _ rfl

theorem value_prim {l : ℤ} {n : ℕ} {rest : Bytes} (hn : 0 < n) (hstop : Stops rest) :
    Json.value n (signed l ++ rest) = some (.int l, rest) := by
  obtain ⟨n, rfl⟩ := Nat.exists_eq_succ_of_ne_zero hn.ne'
  have hnumber := Json.number_signed l hstop
  have hfirst : ∃ c s, signed l ++ rest = c :: s ∧ (c.isDigit = true ∨ c = '-') := by
    cases l with
    | ofNat n =>
        cases hd : decimal n with
        | nil => exact absurd hd (decimal_ne_nil n)
        | cons c s =>
            have hdig : c.isDigit := isDigit_of_mem_decimal (hd ▸ List.mem_cons_self)
            exact ⟨c, s ++ rest, congrArg (· ++ rest) hd, .inl hdig⟩
    | negSucc n => exact ⟨'-', decimal (n + 1) ++ rest, rfl, .inr rfl⟩
  obtain ⟨c, s, hcons, hc⟩ := hfirst
  have hne : ∀ {d : Char}, d.isDigit = false → d ≠ '-' → c ≠ d := by
    rintro d hdig hdash rfl
    rcases hc with hc | hc
    · exact Bool.false_ne_true (hdig.symm.trans hc)
    · exact hdash hc
  rw [hcons] at hnumber ⊢
  unfold Json.value
  split
  · next h => exact absurd (List.cons.inj h).1 (hne rfl (by decide))
  · next h => exact absurd (List.cons.inj h).1 (hne rfl (by decide))
  · next h => exact absurd (List.cons.inj h).1 (hne rfl (by decide))
  · next h => exact absurd (List.cons.inj h).1 (hne rfl (by decide))
  · next h => exact absurd (List.cons.inj h).1 (hne rfl (by decide))
  · next h => exact absurd (List.cons.inj h).1 (hne rfl (by decide))
  · exact hnumber

theorem value_str {s : Bytes} (h : PlainText s) {n : ℕ} (hn : 0 < n) (rest : Bytes) :
    Json.value n (quoted s ++ rest) = some (.str (Json.points s), rest) := by
  obtain ⟨n, rfl⟩ := Nat.exists_eq_succ_of_ne_zero hn.ne'
  have hshape : quoted s ++ rest = '"' :: (s ++ '"' :: rest) := by
    rw [quoted, List.cons_append, List.append_assoc, List.singleton_append]
  rw [hshape, Json.value, Json.string_plain h, Option.map_some, Json.joinSurrogates_plain h]

/-- A separator or a bracket is no white space. -/
theorem skipWs_cons {c : Char} (hc : Json.isWs c = false) (s : List Char) :
    Json.skipWs (c :: s) = c :: s := by
  rw [Json.skipWs, List.dropWhile_cons, hc]
  rfl

theorem print_pos {d : Doc} (h : Plain d) : 0 < (print d).length := by
  cases d with
  | prim s => exact List.length_pos_iff.mpr h.1
  | str s => exact Nat.succ_pos _
  | arr ds =>
      cases ds with
      | nil => exact Nat.succ_pos _
      | cons d ds => exact Nat.succ_pos _
  | obj ms =>
      cases ms with
      | nil => exact Nat.succ_pos _
      | cons m ms => exact Nat.succ_pos _

/-- No value starts with a closing bracket. -/
theorem print_ne {d : Doc} (h : Plain d) (rest s : Bytes) : print d ++ rest ≠ ']' :: s := by
  intro heq
  cases d with
  | prim t =>
      cases t with
      | nil => exact h.1 rfl
      | cons c t =>
          obtain ⟨rfl, -⟩ := List.cons.inj heq
          exact absurd (h.2 _ List.mem_cons_self) (by decide)
  | str t => exact absurd (List.cons.inj heq).1 (by decide)
  | arr ds =>
      cases ds with
      | nil => exact absurd (List.cons.inj heq).1 (by decide)
      | cons d ds => exact absurd (List.cons.inj heq).1 (by decide)
  | obj ms =>
      cases ms with
      | nil => exact absurd (List.cons.inj heq).1 (by decide)
      | cons m ms => exact absurd (List.cons.inj heq).1 (by decide)

theorem printItems_pos (ds : List Doc) : 0 < (printItems ds).length := by
  cases ds with
  | nil => exact Nat.one_pos
  | cons d ds => exact Nat.succ_pos _

theorem printMembers_pos (ms : List (Bytes × Doc)) : 0 < (printMembers ms).length := by
  cases ms with
  | nil => exact Nat.one_pos
  | cons m ms => exact Nat.succ_pos _

mutual

/-- The reader makes a document's value of its text. -/
theorem value_print : ∀ (d : Doc), Plain d → Integral d → ∀ (n : ℕ) (rest : Bytes),
    (print d).length ≤ n → Stops rest → Json.value n (print d ++ rest) = some (json d, rest)
  | .prim s, hp, hi, n, rest, hn, hstop => by
      obtain ⟨l, rfl⟩ := hi
      rw [json_signed]
      exact value_prim ((print_pos hp).trans_le hn) hstop
  | .str s, hp, _, n, rest, hn, _ => value_str hp ((Nat.succ_pos _).trans_le hn) rest
  | .arr [], _, _, n, rest, hn, _ => by
      obtain ⟨n, rfl⟩ := Nat.exists_eq_succ_of_ne_zero ((Nat.succ_pos _).trans_le hn).ne'
      rfl
  | .arr (d :: ds), hp, hi, n, rest, hn, _ => by
      obtain ⟨n, rfl⟩ := Nat.exists_eq_succ_of_ne_zero ((Nat.succ_pos _).trans_le hn).ne'
      have hitems : Json.items n (print d ++ (printItems ds ++ rest)) = some (jsonItems (d :: ds), rest) := by
        rw [← List.append_assoc]
        exact items_print (d :: ds) (List.cons_ne_nil _ _) hp hi n rest (Nat.le_of_succ_le_succ hn)
      rw [print, List.cons_append, List.append_assoc, Json.value, skipWs_print hp.1]
      split
      · next h => exact absurd h (print_ne hp.1 _ _)
      · rw [hitems]
        rfl
  | .obj [], _, _, n, rest, hn, _ => by
      obtain ⟨n, rfl⟩ := Nat.exists_eq_succ_of_ne_zero ((Nat.succ_pos _).trans_le hn).ne'
      rfl
  | .obj ((k, d) :: ms), hp, hi, n, rest, hn, _ => by
      obtain ⟨n, rfl⟩ := Nat.exists_eq_succ_of_ne_zero ((Nat.succ_pos _).trans_le hn).ne'
      have hmembers := members_print ((k, d) :: ms) (List.cons_ne_nil _ _) hp hi n rest
        (Nat.le_of_succ_le_succ hn)
      exact congrArg (Option.map fun r => (Json.obj r.1, r.2)) hmembers

theorem items_print : ∀ (ds : List Doc), ds ≠ [] → PlainItems ds → IntegralItems ds →
    ∀ (n : ℕ) (rest : Bytes), (printItems ds).tail.length ≤ n →
    Json.items n ((printItems ds).tail ++ rest) = some (jsonItems ds, rest)
  | [], hne, _, _, _, _, _ => absurd rfl hne
  | d :: ds, _, hp, hi, n, rest, hn => by
      have hlen : (print d).length + (printItems ds).length ≤ n := by
        rwa [printItems, List.tail_cons, List.length_append] at hn
      have hpos := printItems_pos ds
      obtain ⟨n, rfl⟩ := Nat.exists_eq_succ_of_ne_zero (show n ≠ 0 by omega)
      have hvalue := value_print d hp.1 hi.1 n (printItems ds ++ rest) (by omega) (stops_items ds rest)
      rw [printItems, List.tail_cons, List.append_assoc, Json.items, hvalue, Option.bind_some]
      cases ds with
      | nil => rfl
      | cons e ds =>
          have hitems := items_print (e :: ds) (List.cons_ne_nil _ _) hp.2 hi.2 n rest (by
            rw [printItems, List.length_cons] at hlen
            rw [printItems, List.tail_cons]
            omega)
          have hskip : Json.skipWs ((printItems (e :: ds)).tail ++ rest) = (printItems (e :: ds)).tail ++ rest := by
            rw [printItems, List.tail_cons, List.append_assoc]
            exact skipWs_print hp.2.1 _
          have hcomma : printItems (e :: ds) ++ rest = ',' :: ((printItems (e :: ds)).tail ++ rest) := rfl
          rw [hcomma, skipWs_cons rfl]
          show (Json.items n (Json.skipWs _)).map _ = _
          rw [hskip, hitems]
          rfl

theorem members_print : ∀ (ms : List (Bytes × Doc)), ms ≠ [] → PlainMembers ms → IntegralMembers ms →
    ∀ (n : ℕ) (rest : Bytes), (printMembers ms).tail.length ≤ n →
    Json.members n ((printMembers ms).tail ++ rest) = some (jsonMembers ms, rest)
  | [], hne, _, _, _, _, _ => absurd rfl hne
  | (k, d) :: ms, _, hp, hi, n, rest, hn => by
      have hlen : (quoted k).length + ((print d).length + (printMembers ms).length) + 1 ≤ n := by
        rw [printMembers, List.tail_cons, List.length_append, List.length_cons, List.length_append] at hn
        omega
      have hpos := printMembers_pos ms
      obtain ⟨n, rfl⟩ := Nat.exists_eq_succ_of_ne_zero (show n ≠ 0 by omega)
      have hvalue := value_print d hp.2.1 hi.1 n (printMembers ms ++ rest) (by omega) (stops_members ms rest)
      have hshape : (printMembers ((k, d) :: ms)).tail ++ rest =
          '"' :: (k ++ '"' :: (':' :: (print d ++ (printMembers ms ++ rest)))) := by
        simp [printMembers, quoted]
      rw [hshape, Json.members, Json.string_plain hp.1, Option.bind_some]
      dsimp only
      rw [skipWs_cons rfl]
      show (Json.value n (Json.skipWs (print d ++ _))).bind _ = _
      rw [skipWs_print hp.2.1, hvalue, Option.bind_some, Json.joinSurrogates_plain hp.1]
      cases ms with
      | nil => rfl
      | cons m ms =>
          obtain ⟨k', e⟩ := m
          have hmembers := members_print ((k', e) :: ms) (List.cons_ne_nil _ _) hp.2.2 hi.2 n rest (by
            rw [printMembers, List.length_cons] at hlen
            rw [printMembers, List.tail_cons]
            omega)
          have hcomma : printMembers ((k', e) :: ms) ++ rest =
              ',' :: ((printMembers ((k', e) :: ms)).tail ++ rest) := rfl
          have hskip : Json.skipWs ((printMembers ((k', e) :: ms)).tail ++ rest) =
              (printMembers ((k', e) :: ms)).tail ++ rest := skipWs_cons rfl _
          rw [hcomma, skipWs_cons rfl]
          show (Json.members n (Json.skipWs _)).map _ = _
          rw [hskip, hmembers]
          rfl

end

/-! ## Documents -/

theorem ascii_quoted {s : Bytes} (h : PlainText s) : ∀ c ∈ quoted s, c.toNat < 0x80 := by
  intro c hc
  rcases List.mem_cons.mp hc with rfl | hc
  · decide
  · rcases List.mem_append.mp hc with hc | hc
    · exact (Json.plain_ascii (h c hc)).2
    · obtain rfl := List.mem_singleton.mp hc
      decide

mutual

theorem ascii_print : ∀ (d : Doc), Plain d → ∀ c ∈ print d, c.toNat < 0x80
  | .prim _, h, c, hc => (Json.plain_ascii (h.2 c hc)).2
  | .str _, h, c, hc => ascii_quoted h c hc
  | .arr [], _, c, hc => by
      have hall : ∀ c ∈ print (.arr []), c.toNat < 0x80 := by decide
      exact hall c hc
  | .arr (d :: ds), h, c, hc => by
      rcases List.mem_cons.mp hc with rfl | hc
      · decide
      · rcases List.mem_append.mp hc with hc | hc
        · exact ascii_print d h.1 c hc
        · exact ascii_items ds h.2 c hc
  | .obj [], _, c, hc => by
      have hall : ∀ c ∈ print (.obj []), c.toNat < 0x80 := by decide
      exact hall c hc
  | .obj ((k, d) :: ms), h, c, hc => by
      rcases List.mem_cons.mp hc with rfl | hc
      · decide
      · rcases List.mem_append.mp hc with hc | hc
        · exact ascii_quoted h.1 c hc
        · rcases List.mem_cons.mp hc with rfl | hc
          · decide
          · rcases List.mem_append.mp hc with hc | hc
            · exact ascii_print d h.2.1 c hc
            · exact ascii_members ms h.2.2 c hc

theorem ascii_items : ∀ (ds : List Doc), PlainItems ds → ∀ c ∈ printItems ds, c.toNat < 0x80
  | [], _, c, hc => by
      obtain rfl := List.mem_singleton.mp hc
      decide
  | d :: ds, h, c, hc => by
      rcases List.mem_cons.mp hc with rfl | hc
      · decide
      · rcases List.mem_append.mp hc with hc | hc
        · exact ascii_print d h.1 c hc
        · exact ascii_items ds h.2 c hc

theorem ascii_members : ∀ (ms : List (Bytes × Doc)), PlainMembers ms →
    ∀ c ∈ printMembers ms, c.toNat < 0x80
  | [], _, c, hc => by
      obtain rfl := List.mem_singleton.mp hc
      decide
  | (k, d) :: ms, h, c, hc => by
      rcases List.mem_cons.mp hc with rfl | hc
      · decide
      · rcases List.mem_append.mp hc with hc | hc
        · exact ascii_quoted h.1 c hc
        · rcases List.mem_cons.mp hc with rfl | hc
          · decide
          · rcases List.mem_append.mp hc with hc | hc
            · exact ascii_print d h.2.1 c hc
            · exact ascii_members ms h.2.2 c hc

end

/-- A line with a printed document is read back as the document. -/
theorem loads_print {d : Doc} (hp : Plain d) (hi : Integral d) :
    Json.loads (print d ++ ['\n']) = some (json d) := by
  have hascii : ∀ c ∈ print d ++ ['\n'], c.toNat < 0x80 := by
    intro c hc
    rcases List.mem_append.mp hc with hc | hc
    · exact ascii_print d hp c hc
    · obtain rfl := List.mem_singleton.mp hc
      decide
  have hdecode : Json.decode (print d ++ ['\n']) = some (json d) := by
    have hfuel : (print d).length ≤ 2 * (print d ++ ['\n']).length + 2 := by
      rw [List.length_append]
      omega
    rw [Json.decode, skipWs_print hp, value_print d hp hi _ ['\n'] hfuel rfl]
    rfl
  rw [Json.loads, Json.utf8_ascii hascii, Option.bind_some]
  split
  · next s heq =>
      -- no byte order mark
      have hmark : '\ufeff' ∈ print d ++ ['\n'] := heq ▸ List.mem_cons_self
      exact absurd (hascii _ hmark) (by decide)
  · exact hdecode

end Doc

end Waybeam
