/-
# `Waybeam.Ground.Width` — the channel width in a command line

A line of `system.up` is split at blanks and run.  The overlay sets the width of its `set channel`:
it keeps the line up to the channel, and puts the width behind.

    iw dev wlx0 set channel 161 HT20           … set channel 161 HT40+
    iw dev wlx0 set channel 161                … set channel 161 HT40+
    tune set channel 161 HT20 dev wlx0         tune set channel 161 HT40+

What stands behind the channel is not looked at.  In the last line it is more than a width.
-/
import Waybeam.Scrape

namespace Waybeam.Ground.Cfg

open Text

/-! ## The rewrite -/

def setChannel : Bytes := "set channel ".toList

/-- The line through its first channel token, and what follows; the token has less than eight
characters. -/
def channelEnd (cmd : Bytes) : Option (Bytes × Bytes) :=
  (behind setChannel cmd).bind fun rest =>
    let chan := rest.takeWhile (· ≠ ' ')
    if chan = [] ∨ 8 ≤ chan.length then none
    else some (cmd.take (cmd.length - rest.length) ++ chan, rest.drop chan.length)

/-- The width behind the channel, where the line still fits its 256 bytes. -/
def rewriteWidth (ht cmd : Bytes) : Bytes :=
  match channelEnd cmd with
  | some (head, _) => if (head ++ ' ' :: ht).length < 256 then head ++ ' ' :: ht else cmd
  | none => cmd

/-! ### Twice -/

/-- A token ends at a blank, or with the line. -/
def EndsToken (x : Bytes) : Prop := x = [] ∨ ∃ t, x = ' ' :: t

theorem takeWhile_token {chan x : Bytes} (hchan : ∀ c ∈ chan, c ≠ ' ') (hx : EndsToken x) :
    (chan ++ x).takeWhile (· ≠ ' ') = chan := by
  rw [List.takeWhile_append_of_pos fun c hc => decide_eq_true (hchan c hc)]
  obtain rfl | ⟨t, rfl⟩ := hx
  · simp
  · simp

theorem exists_token (s : Bytes) : ∃ x, s = s.takeWhile (· ≠ ' ') ++ x ∧ EndsToken x := by
  refine ⟨s.dropWhile (· ≠ ' '), List.takeWhile_append_dropWhile.symm, ?_⟩
  induction s with
  | nil => exact Or.inl rfl
  | cons c s ih =>
    by_cases hc : c = ' '
    · exact Or.inr ⟨s, by simp [hc]⟩
    · rwa [List.dropWhile_cons_of_pos (by simpa using hc)]

/-- The parts of a line with a channel token. -/
theorem channelEnd_eq {cmd head tail : Bytes} (h : channelEnd cmd = some (head, tail)) :
    cmd = head ++ tail ∧ EndsToken tail ∧
      ∀ x, EndsToken x → channelEnd (head ++ x) = some (head, x) := by
  obtain ⟨rest, hrest, h⟩ := Option.bind_eq_some_iff.mp h
  obtain ⟨before, rfl, hbefore⟩ := behind_append hrest
  obtain ⟨t, ht, htoken⟩ := exists_token rest
  have hmem : ∀ c ∈ rest.takeWhile (· ≠ ' '), c ≠ ' ' :=
    fun c hc => by simpa using List.mem_takeWhile_imp hc
  generalize rest.takeWhile (· ≠ ' ') = chan at h ht hmem
  subst ht
  have htake : ∀ x : Bytes, (before ++ setChannel ++ x).take
      ((before ++ setChannel ++ x).length - x.length) = before ++ setChannel := by
    intro x
    rw [List.length_append, Nat.add_sub_cancel, List.take_left]
  dsimp only at h
  split at h
  · cases h
  · rename_i hchan
    rw [htake, List.drop_left] at h
    cases h
    refine ⟨by simp only [List.append_assoc], htoken, fun x hx => ?_⟩
    have hsplit : before ++ setChannel ++ chan ++ x = before ++ setChannel ++ (chan ++ x) := by
      simp only [List.append_assoc]
    rw [hsplit, channelEnd, hbefore, Option.bind_some]
    dsimp only
    rw [takeWhile_token hmem hx, if_neg hchan, htake, List.drop_left]

/-- What was written is kept by a second rewrite. -/
theorem rewriteWidth_idem (ht cmd : Bytes) :
    rewriteWidth ht (rewriteWidth ht cmd) = rewriteWidth ht cmd := by
  cases hend : channelEnd cmd with
  | none =>
    have hkeep : rewriteWidth ht cmd = cmd := by rw [rewriteWidth, hend]
    rw [hkeep, hkeep]
  | some p =>
    obtain ⟨head, tail⟩ := p
    by_cases hfits : (head ++ ' ' :: ht).length < 256
    · have hnew : rewriteWidth ht cmd = head ++ ' ' :: ht := by
        rw [rewriteWidth, hend]; exact if_pos hfits
      rw [hnew, rewriteWidth, (channelEnd_eq hend).2.2 _ (Or.inr ⟨ht, rfl⟩)]
      exact if_pos hfits
    · have hkeep : rewriteWidth ht cmd = cmd := by
        rw [rewriteWidth, hend]; exact if_neg hfits
      rw [hkeep, hkeep]

/-! ## The words -/

/-- `strtok_r(.., " \t")` -/
def words (s : Bytes) : List Bytes := (s.splitOnP fun c => c = ' ' || c = '\t').filter (· ≠ [])

/-- The widths of `iw .. set channel`. -/
def widths : List Bytes :=
  ["NOHT".toList, "HT20".toList, "HT40+".toList, "HT40-".toList, "5MHz".toList, "10MHz".toList,
    "80MHz".toList, "160MHz".toList]

/-- What has been read ends in `set channel` and a channel; the last word comes first. -/
def afterChannel : List Bytes → Bool
  | c :: channel :: set :: _ => c ∉ widths && channel = "channel".toList && set = "set".toList
  | _ => false

/-- The words without the width of any `set channel`. -/
def dropWidths (before : List Bytes) : List Bytes → List Bytes
  | [] => []
  | w :: ws =>
      if w ∈ widths ∧ afterChannel before then dropWidths (w :: before) ws
      else w :: dropWidths (w :: before) ws

/-- Apart from the widths of its `set channel`, a line is as another one. -/
def SameButWidths (old new : Bytes) : Prop := dropWidths [] (words new) = dropWidths [] (words old)

example : dropWidths [] (words "iw dev wlx0 set channel 161 HT20".toList) =
    words "iw dev wlx0 set channel 161".toList := by decide

theorem words_append (a b : Bytes) : words (a ++ ' ' :: b) = words a ++ words b := by
  rw [words, List.splitOnP_append_cons a b rfl, List.filter_append]
  rfl

theorem words_token {a x : Bytes} (hx : EndsToken x) : words (a ++ x) = words a ++ words x := by
  obtain rfl | ⟨t, rfl⟩ := hx
  · rw [List.append_nil]
    exact (List.append_nil _).symm
  · rw [words_append]
    exact congrArg (words a ++ ·) (words_append [] t).symm

theorem dropWidths_append (before P R : List Bytes) :
    dropWidths before (P ++ R) = dropWidths before P ++ dropWidths (P.reverse ++ before) R := by
  induction P generalizing before with
  | nil => rfl
  | cons w P ih =>
    have hrest : P.reverse ++ w :: before = (w :: P).reverse ++ before := by
      rw [List.reverse_cons, List.append_assoc]; rfl
    rw [List.cons_append, dropWidths, dropWidths]
    split
    · rw [ih, hrest]
    · rw [ih, hrest, List.cons_append]

/-- Behind a width there is no other width of the same command. -/
theorem afterChannel_width {w : Bytes} (hw : w ∈ widths) (before : List Bytes) :
    afterChannel (w :: before) = false := by
  match before with
  | [] => rfl
  | [_] => rfl
  | _ :: _ :: _ => simp [afterChannel, hw]

theorem dropWidths_eq_nil {before R : List Bytes} (h : afterChannel before = false) :
    dropWidths before R = [] ↔ R = [] := by
  cases R with
  | nil => exact iff_of_true rfl rfl
  | cons w R =>
    rw [dropWidths, if_neg (by simp [h])]
    exact iff_of_false (List.cons_ne_nil _ _) (List.cons_ne_nil _ _)

/-- What may stand where one width will: a width or nothing, behind a channel; elsewhere that same
word. -/
theorem dropWidths_eq_iff {ht : Bytes} (hht : ht ∈ widths) (before R : List Bytes) :
    dropWidths before [ht] = dropWidths before R ↔
      R = [ht] ∨ afterChannel before = true ∧ (R = [] ∨ ∃ w ∈ widths, R = [w]) := by
  by_cases hafter : afterChannel before = true
  · have hnil : dropWidths before [ht] = [] := by rw [dropWidths, if_pos ⟨hht, hafter⟩]; rfl
    rw [hnil]
    cases R with
    | nil => exact iff_of_true rfl (Or.inr ⟨hafter, Or.inl rfl⟩)
    | cons w R =>
      rw [dropWidths]
      by_cases hw : w ∈ widths
      · rw [if_pos ⟨hw, hafter⟩, eq_comm, dropWidths_eq_nil (afterChannel_width hw before)]
        constructor
        · rintro rfl
          exact Or.inr ⟨hafter, Or.inr ⟨w, hw, rfl⟩⟩
        · rintro (h | ⟨-, h | ⟨v, -, h⟩⟩)
          · exact (List.cons.inj h).2
          · cases h
          · exact (List.cons.inj h).2
      · rw [if_neg fun h => hw h.1]
        refine iff_of_false (List.cons_ne_nil _ _).symm ?_
        rintro (h | ⟨-, h | ⟨v, hv, h⟩⟩)
        · exact hw ((List.cons.inj h).1 ▸ hht)
        · cases h
        · exact hw ((List.cons.inj h).1 ▸ hv)
  · have hkeep : ∀ w ws, dropWidths before (w :: ws) = w :: dropWidths (w :: before) ws :=
      fun w ws => by rw [dropWidths, if_neg fun h => hafter h.2]
    rw [hkeep]
    cases R with
    | nil =>
      refine iff_of_false (List.cons_ne_nil _ _) ?_
      rintro (h | ⟨h, -⟩)
      · cases h
      · exact hafter h
    | cons w R =>
      rw [hkeep, List.cons.injEq]
      constructor
      · rintro ⟨rfl, h⟩
        have hR := (dropWidths_eq_nil (afterChannel_width hht before)).mp h.symm
        exact Or.inl (by rw [hR])
      · rintro (h | ⟨h, -⟩)
        · cases h
          exact ⟨rfl, rfl⟩
        · exact absurd h hafter

/-! ## What a line may hold -/

/-- If the line is rewritten, its words are: `set channel`, a channel and, behind it, a width or
nothing; or the line ends in the new width as it is. -/
def WidthLast (ht line : Bytes) : Prop :=
  ∀ head tail, channelEnd line = some (head, tail) → (head ++ ' ' :: ht).length < 256 →
    words tail = [ht] ∨
      afterChannel (words head).reverse = true ∧ (words tail = [] ∨ ∃ w ∈ widths, words tail = [w])

/-- Such a line, and no other, keeps all its words but the width. -/
theorem sameButWidths_iff {ht : Bytes} (hht : ht ∈ widths) (hword : words ht = [ht]) (line : Bytes) :
    SameButWidths line (rewriteWidth ht line) ↔ WidthLast ht line := by
  unfold WidthLast rewriteWidth
  cases hend : channelEnd line with
  | none => exact iff_of_true rfl fun head tail h => nomatch h
  | some p =>
    obtain ⟨head, tail⟩ := p
    obtain ⟨hline, htail, -⟩ := channelEnd_eq hend
    by_cases hfits : (head ++ ' ' :: ht).length < 256
    · dsimp only
      rw [if_pos hfits, SameButWidths, hline, words_token htail, words_append, hword,
        dropWidths_append, dropWidths_append, List.append_right_inj, List.append_nil,
        dropWidths_eq_iff hht]
      constructor
      · rintro h head' tail' heq -
        cases heq
        exact h
      · intro h
        exact h head tail rfl hfits
    · dsimp only
      rw [if_neg hfits]
      refine iff_of_true rfl fun head' tail' heq hfits' => ?_
      cases heq
      exact absurd hfits' hfits

end Waybeam.Ground.Cfg
