/-
# `Waybeam.Vehicle.Subscribe` — what a subscriber of the log reads

An event is one message of one line, since `json_escape` leaves no line end in it; so the reader
of an event stream makes of what a subscriber got the messages that were logged since it attached,
each of which is a JSON object with the time, the subsystem and the line:

    Line --eventOf--> data: {"t_s":12.345,"subsys":"fec","msg":"…"}
    Line <----------- EventStream.messages, Json.loads
-/
import Waybeam.EventStream
import Waybeam.Loads
import Waybeam.Vehicle.Peers

namespace Waybeam.Vehicle.Api

open Text EventStream

/-! ## Escapes -/

theorem jsonEscape_some {cap pos : ℕ} {s m : Bytes} (h : jsonEscape cap pos s = some m) :
    m = s.flatMap escapeChar := by
  induction s generalizing pos m with
  | nil =>
      cases h
      rfl
  | cons c s ih =>
      rw [jsonEscape] at h
      split at h
      · cases h
      · obtain ⟨m', hm', rfl⟩ := Option.map_eq_some_iff.mp h
        rw [ih hm', List.flatMap_cons]

/-- A character of a text, as it is escaped. -/
theorem escapeChar_cases (c : Char) :
    (c.toNat < 0x20 ∧ ¬(c = '\n' ∨ c = '\r' ∨ c = '\t') ∧ escapeChar c = '\\' :: 'u' :: hex4 c.toNat) ∨
      (∃ e, escapeChar c = ['\\', e] ∧ e ≠ 'u' ∧ Json.escape e = some c.toNat ∧ c.toNat < 0x80 ∧
        0x20 ≤ e.toNat ∧ e.toNat < 0x80) ∨
      (0x20 ≤ c.toNat ∧ c ≠ '"' ∧ c ≠ '\\' ∧ escapeChar c = [c]) := by
  unfold escapeChar
  split_ifs with h1 h2 h3 h4 h5
  · rcases h1 with rfl | rfl
    · exact .inr (.inl ⟨_, rfl, by decide⟩)
    · exact .inr (.inl ⟨_, rfl, by decide⟩)
  · exact .inr (.inl ⟨_, rfl, by rw [h2]; decide⟩)
  · exact .inr (.inl ⟨_, rfl, by rw [h3]; decide⟩)
  · exact .inr (.inl ⟨_, rfl, by rw [h4]; decide⟩)
  · exact .inl ⟨h5, by tauto, rfl⟩
  · exact .inr (.inr ⟨by omega, by tauto, by tauto, rfl⟩)

theorem hex4_digits : ∀ n < 0x20, ∃ a b c d, hex4 n = [a, b, c, d] ∧ Json.hex4 a b c d = some n ∧
    ∀ x ∈ [a, b, c, d], 0x20 ≤ x.toNat ∧ x.toNat < 0x80 := by
  intro n hn
  refine ⟨_, _, _, _, rfl, ?_⟩
  revert n
  decide

/-- A reader of JSON strings takes it back. -/
theorem string_escapeChar (c : Char) (t : Bytes) :
    Json.string (escapeChar c ++ t) = (Json.string t).map fun r => (c.toNat :: r.1, r.2) := by
  rcases escapeChar_cases c with ⟨hctl, -, heq⟩ | ⟨e, heq, hu, he, -⟩ | ⟨hplain, hquote, hback, heq⟩
  · obtain ⟨w, x, y, z, hhex, hread, -⟩ := hex4_digits c.toNat hctl
    rw [heq, hhex]
    show (Json.hex4 w x y z).bind _ = _
    rw [hread]
    rfl
  · rw [heq]
    show Json.string ('\\' :: e :: t) = _
    rw [Json.string, he, Option.bind_some]
    intro _ _ _ _ _ h
    cases h
    exact fun _ => hu rfl
  · rw [heq]
    show Json.string (c :: t) = _
    rw [Json.string, if_neg (Nat.not_lt.mpr hplain)]
    · exact fun h => hquote h
    · intro _ _ _ _ _ h
      cases h
      exact fun _ => hback rfl
    · intro _ _ h
      exact fun _ => hback h

theorem string_escape (s t : Bytes) :
    Json.string (s.flatMap escapeChar ++ '"' :: t) = some (Json.points s, t) := by
  induction s with
  | nil =>
      rw [List.flatMap_nil, List.nil_append, Json.string]
      rfl
  | cons c s ih =>
      rw [List.flatMap_cons, List.append_assoc, string_escapeChar, ih]
      rfl

/-- Nothing that ends a line. -/
theorem escapeChar_printable (c : Char) : ∀ d ∈ escapeChar c, 0x20 ≤ d.toNat := by
  intro d hd
  rcases escapeChar_cases c with ⟨hctl, -, heq⟩ | ⟨e, heq, -, -, -, he, -⟩ | ⟨hplain, -, -, heq⟩
  · obtain ⟨w, x, y, z, hhex, -, hall⟩ := hex4_digits c.toNat hctl
    rw [heq, hhex] at hd
    rcases List.mem_cons.mp hd with rfl | hd
    · decide
    · rcases List.mem_cons.mp hd with rfl | hd
      · decide
      · exact (hall d hd).1
  · rw [heq] at hd
    rcases List.mem_cons.mp hd with rfl | hd
    · decide
    · rw [List.mem_singleton.mp hd]
      exact he
  · rw [heq] at hd
    rw [List.mem_singleton.mp hd]
    exact hplain

theorem escapeChar_ascii {c : Char} (h : c.toNat < 0x80) : ∀ d ∈ escapeChar c, d.toNat < 0x80 := by
  intro d hd
  rcases escapeChar_cases c with ⟨hctl, -, heq⟩ | ⟨e, heq, -, -, -, -, he⟩ | ⟨-, -, -, heq⟩
  · obtain ⟨w, x, y, z, hhex, -, hall⟩ := hex4_digits c.toNat hctl
    rw [heq, hhex] at hd
    rcases List.mem_cons.mp hd with rfl | hd
    · decide
    · rcases List.mem_cons.mp hd with rfl | hd
      · decide
      · exact (hall d hd).2
  · rw [heq] at hd
    rcases List.mem_cons.mp hd with rfl | hd
    · decide
    · rw [List.mem_singleton.mp hd]
      exact he
  · rw [heq] at hd
    rw [List.mem_singleton.mp hd]
    exact h

/-- The bytes of a character that is no ASCII are left alone. -/
theorem escapeChar_high {c : Char} (h : 0x80 ≤ c.toNat) : escapeChar c = [c] := by
  rcases escapeChar_cases c with ⟨hctl, -⟩ | ⟨e, -, -, -, hlow, -⟩ | ⟨-, -, -, heq⟩
  · omega
  · omega
  · exact heq

theorem utf8_cons_ascii {c : Char} (h : c.toNat < 0x80) (s : Bytes) :
    Json.utf8 (c :: s) = (Json.utf8 s).map (c :: ·) := by
  rw [Json.utf8.eq_def]
  exact if_pos h

theorem utf8_append_ascii {s : Bytes} (h : ∀ c ∈ s, c.toNat < 0x80) (t : Bytes) :
    Json.utf8 (s ++ t) = (Json.utf8 t).map (s ++ ·) := by
  induction s with
  | nil => simp
  | cons c s ih =>
      obtain ⟨hc, hs⟩ := List.forall_mem_cons.mp h
      rw [List.cons_append, utf8_cons_ascii hc, ih hs, Option.map_map]
      rfl

/-- What stands behind a text does not continue a character. -/
def Leads (t : Bytes) : Prop := ∀ c ∈ t.head?, c.toNat < 0x80

theorem tailBits_ascii {c : Char} (h : c.toNat < 0x80) : Json.tailBits c = none :=
  if_neg fun hc => by omega

theorem escapeChar_tail {c : Char} {b : ℕ} (h : Json.tailBits c = some b) : escapeChar c = [c] := by
  refine escapeChar_high (Nat.not_lt.mp fun hlow => ?_)
  rw [tailBits_ascii hlow] at h
  cases h

/-- One byte more of a character. -/
def more {α : Type} (k : ℕ → Bytes → Option α) : Bytes → Option α
  | [] => none
  | c :: s => (Json.tailBits c).bind fun b => k b s

theorem more_escape {α : Type} (k : ℕ → Bytes → Option α) (s : Bytes) {t : Bytes} (ht : Leads t) :
    more k (s.flatMap escapeChar ++ t) = more (fun b s => k b (s.flatMap escapeChar ++ t)) s := by
  cases s with
  | nil =>
      cases t with
      | nil => rfl
      | cons c t =>
          show (Json.tailBits c).bind _ = none
          rw [tailBits_ascii (ht c rfl)]
          rfl
  | cons c s =>
      cases hc : Json.tailBits c with
      | some b => rw [List.flatMap_cons, escapeChar_tail hc]; rfl
      | none =>
          have hnone : more (fun b s => k b (s.flatMap escapeChar ++ t)) (c :: s) = none := by
            rw [more, hc]
            rfl
          rw [hnone, List.flatMap_cons]
          rcases Nat.lt_or_ge c.toNat 0x80 with hlow | hhigh
          · cases hesc : escapeChar c with
            | nil =>
                rcases escapeChar_cases c with ⟨-, -, h⟩ | ⟨e, h, -⟩ | ⟨-, -, -, h⟩ <;>
                  exact absurd (hesc.symm.trans h) (by simp)
            | cons d r =>
                show (Json.tailBits d).bind _ = none
                rw [tailBits_ascii (escapeChar_ascii hlow d (hesc ▸ List.mem_cons_self))]
                rfl
          · rw [escapeChar_high hhigh]
            show (Json.tailBits c).bind _ = none
            rw [hc]
            rfl

theorem utf8_high {a : Char} (h : ¬a.toNat < 0x80) (s : Bytes) :
    Json.utf8 (a :: s) = more (fun b s =>
      if 0xC2 ≤ a.toNat ∧ a.toNat < 0xE0 then
        (Json.utf8 s).map (Char.ofNat ((a.toNat - 0xC0) * 64 + b) :: ·)
      else more (fun c s =>
        let v := (a.toNat - 0xE0) * 4096 + b * 64 + c
        if 0xE0 ≤ a.toNat ∧ a.toNat < 0xF0 then
          if 0x800 ≤ v ∧ ¬(0xD800 ≤ v ∧ v < 0xE000) then (Json.utf8 s).map (Char.ofNat v :: ·) else none
        else more (fun d s =>
          let v := (a.toNat - 0xF0) * 262144 + b * 4096 + c * 64 + d
          if 0xF0 ≤ a.toNat ∧ 0x10000 ≤ v ∧ v < 0x110000 then (Json.utf8 s).map (Char.ofNat v :: ·)
          else none) s) s) s := by
  rw [Json.utf8.eq_def]
  refine (if_neg h).trans ?_
  cases s with
  | nil => rfl
  | cons b s =>
      show (Json.tailBits b).bind _ = (Json.tailBits b).bind _
      congr 1

theorem more_congr {α : Type} {k k' : ℕ → Bytes → Option α} {s : Bytes}
    (h : ∀ b s', b < 0x40 → s'.length < s.length → k b s' = k' b s') : more k s = more k' s := by
  cases s with
  | nil => rfl
  | cons c s =>
      rw [more, more]
      cases hc : Json.tailBits c with
      | none => rfl
      | some b =>
          have hbits : b < 0x40 := by
            rw [Json.tailBits] at hc
            split at hc
            · have hval := Option.some.inj hc
              omega
            · cases hc
          exact h b s hbits (Nat.lt_succ_self _)

theorem more_bind {α β : Type} (k : ℕ → Bytes → Option α) (f : α → Option β) (s : Bytes) :
    (more k s).bind f = more (fun b s => (k b s).bind f) s := by
  cases s with
  | nil => rfl
  | cons c s => exact Option.bind_assoc ..

/-- A character above ASCII stands as it is in what is escaped. -/
theorem escape_char_high {n : ℕ} (hn : 0x80 ≤ n) (hvalid : n.isValidChar) (cs rest : Option (List Char)) :
    ((cs.map (Char.ofNat n :: ·)).bind fun cs => rest.map (cs.flatMap escapeChar ++ ·)) =
      (cs.bind fun cs => rest.map (cs.flatMap escapeChar ++ ·)).map (Char.ofNat n :: ·) := by
  cases cs with
  | none => rfl
  | some cs =>
      have hnat : (Char.ofNat n).toNat = n := by
        rw [Char.ofNat, dif_pos hvalid]
        rfl
      rw [Option.map_some, Option.bind_some, Option.bind_some, Option.map_map, List.flatMap_cons,
        escapeChar_high (by rw [hnat]; exact hn)]
      rfl

/-- Escaping and decoding can be done in either order. -/
theorem utf8_escape (s : Bytes) {t : Bytes} (ht : Leads t) :
    Json.utf8 (s.flatMap escapeChar ++ t) =
      (Json.utf8 s).bind fun cs => (Json.utf8 t).map (cs.flatMap escapeChar ++ ·) := by
  induction hlen : s.length using Nat.strongRecOn generalizing s with
  | ind n ih =>
      cases s with
      | nil => simp [Json.utf8]
      | cons a s =>
          have hrest : ∀ s', s'.length ≤ s.length → Json.utf8 (s'.flatMap escapeChar ++ t) =
              (Json.utf8 s').bind fun cs => (Json.utf8 t).map (cs.flatMap escapeChar ++ ·) :=
            fun s' hs' => ih s'.length (by rw [← hlen]; exact Nat.lt_succ_of_le hs') s' rfl
          rw [List.flatMap_cons, List.append_assoc]
          by_cases hlow : a.toNat < 0x80
          · rw [utf8_append_ascii (escapeChar_ascii hlow), hrest s (Nat.le_refl _), utf8_cons_ascii hlow]
            cases Json.utf8 s with
            | none => rfl
            | some cs =>
                rw [Option.bind_some, Option.map_some, Option.bind_some, Option.map_map]
                congr 1
                funext r
                simp
          · rw [escapeChar_high (Nat.not_lt.mp hlow), List.singleton_append, utf8_high hlow, utf8_high hlow,
              more_escape _ _ ht, more_bind]
            refine more_congr fun b s₁ hb hs₁ => ?_
            by_cases htwo : 0xC2 ≤ a.toNat ∧ a.toNat < 0xE0
            · rw [if_pos htwo, if_pos htwo, hrest s₁ hs₁.le, escape_char_high (by omega) (by left; omega)]
            rw [if_neg htwo, if_neg htwo, more_escape _ _ ht, more_bind]
            refine more_congr fun c s₂ hc hs₂ => ?_
            by_cases hthree : 0xE0 ≤ a.toNat ∧ a.toNat < 0xF0
            · rw [if_pos hthree, if_pos hthree]
              split_ifs with hv
              · rw [hrest s₂ (by omega), escape_char_high (by omega) (by
                  show _ ∨ _
                  omega)]
              · rfl
            rw [if_neg hthree, if_neg hthree, more_escape _ _ ht, more_bind]
            refine more_congr fun d s₃ hd hs₃ => ?_
            dsimp only
            split_ifs with hv
            · rw [hrest s₃ (by omega), escape_char_high (by omega) (by
                show _ ∨ _
                omega)]
            · rfl

/-! ## A line as JSON -/

/-- The message of an event. -/
def Line.payload (l : Line) : Bytes :=
  printf [("\x7b\"t_s\":".toList, l.tS), (",\"subsys\":\"".toList, l.subsys.name.toList),
      ("\",\"msg\":\"".toList, (cstr l.body).flatMap escapeChar)] "\"\x7d".toList

/-- What it says of a line of these characters. -/
def Line.fields (l : Line) (cs : List Char) : List (List ℕ × Json) :=
  [(Json.points "t_s".toList, .float (some ((l.ms : ℚ) / 1000))),
    (Json.points "subsys".toList, .str (Json.points l.subsys.name.toList)),
    (Json.points "msg".toList, .str (Json.points cs))]

/-- The JSON document of a line; `none` where the line is not UTF-8. -/
def Line.doc (l : Line) : Option Json := (Json.utf8 (cstr l.body)).map fun cs => .obj (l.fields cs)

theorem eventOf_some {l : Line} {b : Bytes} (h : eventOf l = some b) :
    b = (Block.message l.payload).text := by
  unfold eventOf at h
  split at h
  · cases h
  · obtain ⟨msg, hmsg, hfit⟩ := Option.bind_eq_some_iff.mp h
    dsimp only at hfit
    split at hfit
    · cases hfit
    · cases hfit
      rw [jsonEscape_some hmsg]
      simp [Block.text, Block.line, Line.payload, Line.head, eventTail, printf]

theorem joinSurrogates_points (cs : List Char) : Json.joinSurrogates (Json.points cs) = Json.points cs := by
  induction cs with
  | nil => rfl
  | cons a cs ih =>
      cases cs with
      | nil => rfl
      | cons b cs =>
          have hvalid := a.valid
          have hno : ¬(0xD800 ≤ a.toNat ∧ a.toNat < 0xDC00 ∧ 0xDC00 ≤ b.toNat ∧ b.toNat < 0xE000) := by
            rintro ⟨hlo, hhi, -⟩
            rcases hvalid with h | h
            · exact absurd h (Nat.not_lt.mpr hlo)
            · have hgt : 0xDFFF < a.toNat := h.1
              omega
          show Json.joinSurrogates (a.toNat :: b.toNat :: Json.points cs) = _
          rw [Json.joinSurrogates, if_neg hno]
          exact congrArg (a.toNat :: ·) ih

theorem value_string (s t : Bytes) (n : ℕ) :
    Json.value (n + 1) ('"' :: (s.flatMap escapeChar ++ '"' :: t)) = some (.str (Json.points s), t) := by
  rw [Json.value, string_escape, Option.map_some, joinSurrogates_points]

/-- The three digits behind the point. -/
def millis (n : ℕ) : Bytes := [n / 100 % 10, n / 10 % 10, n % 10].map Nat.digitChar

theorem tS_value (l : Line) :
    Nat.ofDigitChars 10 (decimal (l.ms / 1000) ++ millis l.ms) 0 = l.ms := by
  have hwhole : Nat.ofDigitChars 10 (decimal (l.ms / 1000)) 0 = l.ms / 1000 := Nat.ofDigitChars_ten_toDigits
  rw [Nat.ofDigitChars_append, hwhole, millis, List.map_cons, List.map_cons, List.map_cons, List.map_nil,
    Nat.ofDigitChars_cons_digitChar_of_lt_ten (Nat.mod_lt _ (by decide)),
    Nat.ofDigitChars_cons_digitChar_of_lt_ten (Nat.mod_lt _ (by decide)),
    Nat.ofDigitChars_cons_digitChar_of_lt_ten (Nat.mod_lt _ (by decide)), Nat.ofDigitChars_nil]
  omega

theorem isDigit_millis (n : ℕ) : ∀ c ∈ millis n, c.isDigit := by
  have hdigit : ∀ d < 10, (Nat.digitChar d).isDigit = true := by decide
  intro c hc
  obtain ⟨d, hd, rfl⟩ := List.mem_map.mp hc
  have hlt : d < 10 := by
    simp only [List.mem_cons, List.not_mem_nil, or_false] at hd
    rcases hd with rfl | rfl | rfl <;> exact Nat.mod_lt _ (by decide)
  exact hdigit d hlt

theorem value_digit {c : Char} (hc : c.isDigit) (s : Bytes) (n : ℕ) :
    Json.value (n + 1) (c :: s) = Json.number (c :: s) := by
  have hne : ∀ {d : Char}, d.isDigit = false → c ≠ d := by
    rintro d hd rfl
    exact Bool.false_ne_true (hd.symm.trans hc)
  unfold Json.value
  split
  · next h => exact absurd (List.cons.inj h).1 (hne rfl)
  · next h => exact absurd (List.cons.inj h).1 (hne rfl)
  · next h => exact absurd (List.cons.inj h).1 (hne rfl)
  · next h => exact absurd (List.cons.inj h).1 (hne rfl)
  · next h => exact absurd (List.cons.inj h).1 (hne rfl)
  · next h => exact absurd (List.cons.inj h).1 (hne rfl)
  · rfl

/-- The time, read as a number. -/
theorem value_stamp (l : Line) (n : ℕ) (t : Bytes) :
    Json.value (n + 1) (l.tS ++ ',' :: t) = some (.float (some ((l.ms : ℚ) / 1000)), ',' :: t) := by
  have hshape : l.tS ++ ',' :: t = decimal (l.ms / 1000) ++ '.' :: (millis l.ms ++ ',' :: t) := by
    simp [Line.tS, millis]
  have hends : Ends (',' :: t) := ends_cons rfl
  have hdigits : Json.digits (millis l.ms ++ ',' :: t) = millis l.ms :=
    takeWhile_run (isDigit_millis l.ms) hends
  have hdrop : (millis l.ms ++ ',' :: t).dropWhile Char.isDigit = ',' :: t :=
    dropWhile_run (isDigit_millis l.ms) hends
  have hne : millis l.ms ≠ [] := by simp [millis]
  have hfraction : Json.fraction ('.' :: (millis l.ms ++ ',' :: t)) = (millis l.ms, ',' :: t) := by
    rw [Json.fraction, hdigits, if_neg hne, hdrop]
  have hread : Json.unsigned false (decimal (l.ms / 1000) ++ '.' :: (millis l.ms ++ ',' :: t)) =
      some (.float (some ((l.ms : ℚ) / 1000)), ',' :: t) := by
    rw [Json.unsigned, Json.integer_decimal _ (ends_cons rfl), Option.map_some]
    dsimp only
    rw [hfraction, Json.exponent_stops (show Doc.Stops (',' :: t) from rfl)]
    dsimp only
    rw [if_neg fun h => hne h.1, tS_value]
    have hlen : (millis l.ms).length = 3 := rfl
    rw [hlen]
    norm_num
    exact mul_one_div _ _
  rw [hshape]
  cases hd : decimal (l.ms / 1000) with
  | nil => exact absurd hd (decimal_ne_nil _)
  | cons c s =>
      have hdig : c.isDigit := isDigit_of_mem_decimal (hd ▸ List.mem_cons_self)
      rw [hd] at hread
      rw [List.cons_append] at hread ⊢
      rw [← Json.number_digit hdig] at hread
      rw [value_digit hdig, hread]

section Members

variable {k : Bytes} (hk : Doc.PlainText k) {n : ℕ} {v s : Bytes} {x : Json}
  (hskip : Json.skipWs v = v)

include hk hskip

theorem members_last (hv : Json.value n v = some (x, '\x7d' :: s)) :
    Json.members (n + 1) ('"' :: (k ++ '"' :: ':' :: v)) = some ([(Json.points k, x)], s) := by
  rw [Json.members, Json.string_plain hk, Option.bind_some]
  dsimp only
  rw [Doc.skipWs_cons rfl]
  show (Json.value n (Json.skipWs v)).bind _ = _
  rw [hskip, hv, Option.bind_some, Json.joinSurrogates_plain hk]
  rfl

theorem members_cons {ms : List (List ℕ × Json)} {rest : Bytes}
    (hv : Json.value n v = some (x, ',' :: '"' :: s)) (hms : Json.members n ('"' :: s) = some (ms, rest)) :
    Json.members (n + 1) ('"' :: (k ++ '"' :: ':' :: v)) = some ((Json.points k, x) :: ms, rest) := by
  rw [Json.members, Json.string_plain hk, Option.bind_some]
  dsimp only
  rw [Doc.skipWs_cons rfl]
  show (Json.value n (Json.skipWs v)).bind _ = _
  rw [hskip, hv, Option.bind_some, Json.joinSurrogates_plain hk]
  dsimp only
  rw [Doc.skipWs_cons rfl]
  show (Json.members n (Json.skipWs ('"' :: s))).map _ = _
  rw [Doc.skipWs_cons rfl, hms]
  rfl

end Members

/-- What stands behind the opening brace. -/
def Line.members (l : Line) (cs : List Char) : Bytes :=
  '"' :: ("t_s".toList ++ '"' :: ':' :: (l.tS ++ ',' :: '"' :: ("subsys".toList ++ '"' :: ':' ::
    '"' :: (l.subsys.name.toList ++ '"' :: ',' :: '"' :: ("msg".toList ++ '"' :: ':' ::
      '"' :: (cs.flatMap escapeChar ++ '"' :: '\x7d' :: []))))))

theorem plain_subsys (x : Subsys) : Doc.PlainText x.name.toList := by
  cases x <;> decide

theorem members_line (l : Line) (cs : List Char) (n : ℕ) :
    Json.members (n + 4) (l.members cs) = some (l.fields cs, []) := by
  have hstamp : ∀ t, Json.skipWs (l.tS ++ t) = l.tS ++ t := by
    intro t
    cases hd : decimal (l.ms / 1000) with
    | nil => exact absurd hd (decimal_ne_nil _)
    | cons c s =>
        have hdig : c.isDigit := isDigit_of_mem_decimal (hd ▸ List.mem_cons_self)
        have hws : Json.isWs c = false := Json.plain_not_ws (by simp [Doc.plainChar, Char.isAlphanum, hdig])
        rw [Line.tS, hd, List.cons_append, List.cons_append, Doc.skipWs_cons hws]
  have hname : ∀ t, Json.value (n + 2) ('"' :: (l.subsys.name.toList ++ '"' :: t)) =
      some (.str (Json.points l.subsys.name.toList), t) := by
    intro t
    have hread := Doc.value_str (plain_subsys l.subsys) (Nat.succ_pos (n + 1)) t
    rwa [Doc.quoted, List.cons_append, List.append_assoc, List.singleton_append] at hread
  refine members_cons (by decide) (hstamp _) (value_stamp l (n + 2) _) ?_
  refine members_cons (by decide) (Doc.skipWs_cons rfl _) (hname _) ?_
  exact members_last (by decide) (Doc.skipWs_cons rfl _) (value_string cs _ n)

theorem loads_payload (l : Line) : Json.loads l.payload = l.doc := by
  have hsplit : ∀ t, printf [("\x7b\"t_s\":".toList, l.tS), (",\"subsys\":\"".toList, l.subsys.name.toList),
      ("\",\"msg\":\"".toList, t)] "\"\x7d".toList =
        ("\x7b\"t_s\":".toList ++ (l.tS ++ (",\"subsys\":\"".toList ++ (l.subsys.name.toList ++
          "\",\"msg\":\"".toList)))) ++ (t ++ "\"\x7d".toList) := by
    intro t
    simp [printf]
  have hascii : ∀ c ∈ "\x7b\"t_s\":".toList ++ (l.tS ++ (",\"subsys\":\"".toList ++
      (l.subsys.name.toList ++ "\",\"msg\":\"".toList))), c.toNat < 0x80 := by
    have hstamp : ∀ c ∈ l.tS, c.toNat < 0x80 := by
      intro c hc
      rcases List.mem_append.mp hc with hc | hc
      · exact (Json.plain_ascii (by simp [Doc.plainChar, Char.isAlphanum, isDigit_of_mem_decimal hc])).2
      · rcases List.mem_cons.mp hc with rfl | hc
        · decide
        · exact (Json.plain_ascii (by simp [Doc.plainChar, Char.isAlphanum, isDigit_millis l.ms c hc])).2
    simp only [List.forall_mem_append]
    exact ⟨by decide, hstamp, by decide, fun c hc => (Json.plain_ascii (plain_subsys l.subsys c hc)).2, by decide⟩
  have hbytes : Json.utf8 l.payload = (Json.utf8 (cstr l.body)).map fun cs => '\x7b' :: l.members cs := by
    rw [Line.payload, hsplit, utf8_append_ascii hascii, utf8_escape _ (by intro c hc; cases hc; decide)]
    cases Json.utf8 (cstr l.body) with
    | none => rfl
    | some cs =>
        have htail : Json.utf8 "\"\x7d".toList = some "\"\x7d".toList := by decide +kernel
        rw [Option.bind_some, Option.map_some, htail, Option.map_some, Option.map_some, ← hsplit]
        simp [printf, Line.members]
  rw [Json.loads, hbytes, Line.doc]
  cases Json.utf8 (cstr l.body) with
  | none => rfl
  | some cs =>
      rw [Option.map_some, Option.bind_some, Option.map_some]
      show Json.decode ('\x7b' :: l.members cs) = _
      have hquote : Json.skipWs (l.members cs) = l.members cs := Doc.skipWs_cons rfl _
      have hlen : 5 ≤ 2 * ('\x7b' :: l.members cs).length + 2 := by
        rw [Line.members, List.length_cons, List.length_cons]
        omega
      obtain ⟨n, hn⟩ := Nat.exists_eq_add_of_le' hlen
      have hvalue : Json.value (2 * ('\x7b' :: l.members cs).length + 2) ('\x7b' :: l.members cs) =
          some (.obj (l.fields cs), []) := by
        rw [hn]
        show Json.value (n + 4 + 1) _ = _
        rw [Json.value]
        rw [hquote]
        show (Json.members (n + 4) (l.members cs)).map _ = _
        rw [members_line]
        rfl
      rw [Json.decode, Doc.skipWs_cons rfl, hvalue]
      rfl

/-! ## What a subscriber reads -/

/-- The lines among the events that fit into one. -/
def linesOf (events : List SseEvent) : List Line :=
  events.filterMap fun e =>
    match e with
    | .line l => if (eventOf l).isSome then some l else none
    | .ping => none

/-- The blocks of a stream of events. -/
def blocksOf (events : List SseEvent) : List Block :=
  events.filterMap fun e =>
    match e with
    | .line l => if (eventOf l).isSome then some (.message l.payload) else none
    | .ping => some (.comment "ping".toList)

theorem streamOf_eq (events : List SseEvent) : streamOf events = (blocksOf events).flatMap Block.text := by
  induction events with
  | nil => rfl
  | cons e events ih =>
      rw [streamOf, List.flatMap_cons, ← streamOf, ih, blocksOf, blocksOf, List.filterMap_cons]
      cases e with
      | ping => rfl
      | line l =>
          dsimp only [SseEvent.bytes]
          cases hl : eventOf l with
          | none => rfl
          | some b =>
              rw [eventOf_some hl]
              rfl

theorem toMessage_blocksOf (events : List SseEvent) :
    (blocksOf events).filterMap Block.toMessage = (linesOf events).map Line.payload := by
  induction events with
  | nil => rfl
  | cons e events ih =>
      rw [blocksOf, linesOf, List.filterMap_cons, List.filterMap_cons]
      cases e with
      | ping => exact ih
      | line l =>
          dsimp only
          split
          · next heq =>
              split at heq
              · cases heq
              · next hno =>
                  rw [if_neg hno]
                  exact ih
          · next b heq =>
              split at heq
              · next hyes =>
                  cases heq
                  rw [if_pos hyes, List.map_cons, List.filterMap_cons]
                  exact congrArg (l.payload :: ·) ih
              · cases heq

/-- A payload is printed on one line. -/
theorem payload_plain (l : Line) : (Block.message l.payload).Plain := by
  have hprint : ∀ {s : Bytes}, (∀ c ∈ s, 0x20 ≤ c.toNat) → ∀ c ∈ s, c ≠ '\n' ∧ c ≠ '\r' := by
    intro s hs c hc
    have hge := hs c hc
    constructor <;> rintro rfl <;> exact absurd hge (by decide)
  have hdigit : ∀ {c : Char}, c.isDigit = true → 0x20 ≤ c.toNat := fun hc =>
    (Json.plain_ascii (by simp [Doc.plainChar, Char.isAlphanum, hc])).1
  have hstamp : ∀ c ∈ l.tS, 0x20 ≤ c.toNat := by
    intro c hc
    rcases List.mem_append.mp hc with hc | hc
    · exact hdigit (isDigit_of_mem_decimal hc)
    · rcases List.mem_cons.mp hc with rfl | hc
      · decide
      · exact hdigit (isDigit_millis l.ms c hc)
  have hname : ∀ c ∈ l.subsys.name.toList, 0x20 ≤ c.toNat := fun c hc =>
    (Json.plain_ascii (plain_subsys l.subsys c hc)).1
  have hmsg : ∀ c ∈ (cstr l.body).flatMap escapeChar, 0x20 ≤ c.toNat := by
    intro c hc
    obtain ⟨d, -, hd⟩ := List.mem_flatMap.mp hc
    exact escapeChar_printable d c hd
  refine hprint ?_
  simp only [Block.line, Line.payload, printf, List.forall_mem_append]
  exact ⟨by decide, by decide, hstamp, by decide, hname, by decide, hmsg, by decide⟩

theorem blocks_plain (events : List SseEvent) : ∀ b ∈ blocksOf events, b.Plain := by
  intro b hb
  obtain ⟨e, -, he⟩ := List.mem_filterMap.mp hb
  cases e with
  | ping =>
      cases he
      show ∀ c ∈ ":ping".toList, _
      decide
  | line l =>
      dsimp only at he
      split at he
      · cases he
        exact payload_plain l
      · cases he

theorem messages_stream (events : List SseEvent) :
    messages (streamOf events) = (linesOf events).map Line.payload := by
  have hall := messages_blocks (blocks_plain events) (show messages [] = [] from rfl)
  rwa [List.append_nil, ← streamOf_eq, toMessage_blocksOf] at hall

/-- A part of an event dispatches nothing. -/
theorem messages_torn {e : SseEvent} {part : Bytes} (h : part <+: e.bytes) (hne : part ≠ e.bytes) :
    messages part = [] := by
  have hblock : ∀ b, b ∈ blocksOf [e] → e.bytes = b.text → messages part = [] := fun b hb heq =>
    messages_part (blocks_plain [e] b hb) (heq ▸ h) (heq ▸ hne)
  cases e with
  | ping => exact hblock (.comment "ping".toList) List.mem_cons_self rfl
  | line l =>
      cases hl : eventOf l with
      | none =>
          have hempty : (SseEvent.line l).bytes = [] := by rw [SseEvent.bytes, hl]; rfl
          rw [hempty] at h hne
          exact absurd (List.prefix_nil.mp h) hne
      | some b =>
          refine hblock (.message l.payload) ?_ ?_
          · exact List.mem_filterMap.mpr ⟨_, List.mem_cons_self, if_pos (by rw [hl]; rfl)⟩
          · rw [SseEvent.bytes, hl]
            exact eventOf_some hl

/-- Of what was delivered the reader makes the lines, but perhaps for the last. -/
theorem messages_delivered {events : List SseEvent} {got : Bytes} (h : Delivered events got) :
    ∃ n, n ≤ events.length ∧ events.length ≤ n + 1 ∧ (got = streamOf events → n = events.length) ∧
      messages got = (linesOf (events.take n)).map Line.payload := by
  rcases h with rfl | ⟨before, last, part, rfl, hpart, hne, rfl⟩
  · refine ⟨events.length, Nat.le_refl _, Nat.le_succ _, fun _ => rfl, ?_⟩
    rw [List.take_length]
    exact messages_stream events
  · refine ⟨before.length, by simp, by simp, ?_, ?_⟩
    · intro heq
      rw [streamOf, streamOf, List.flatMap_append, List.flatMap_singleton] at heq
      exact absurd (List.append_cancel_left heq) hne
    · rw [List.take_left, streamOf_eq, messages_blocks (blocks_plain before) (messages_torn hpart hne),
        toMessage_blocksOf]

/-- Two lines; the second has a quote and a line end in it. -/
def logged : List Line := [⟨12345, .fec, "k 8 -> 10".toList⟩, ⟨13005, .common, ['"', '\n']⟩]

/-- A subscriber attaches, and takes the first line whole and of the second a part. -/
def watched : List Event :=
  [.turn { waiting := [⟨5, []⟩] },
    .turn { visits := fun _ =>
      { readable := true
        recvs := [.data "GET /events HTTP/1.1\r\n\r\n".toList]
        writes := [.wrote 400] } },
    .log ⟨⟨12345, .fec, "k 8 -> 10".toList⟩, fun _ => 1000⟩,
    .log ⟨⟨13005, .common, ['"', '\n']⟩, fun _ => 20⟩]

end Waybeam.Vehicle.Api
