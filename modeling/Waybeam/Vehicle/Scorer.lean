/-
# `Waybeam.Vehicle.Scorer` — what a score says of its record

    antennas   the first eight ids, each with the best of its averages     `antSlots_lists`
    raw RSSI   by default the best average of all                          `rawRssi_bestAvg`
    loss       smoothed between ratios, so inside [0, 1]                   `scorerUpdate_lost`
    slope      kept within 10 ms, zero after 2 s, else smoothed            `slopeUpdate_paced`
-/
import Mathlib.Data.List.Induction
import Mathlib.Order.Bounds.Basic
import Waybeam.Vehicle.Selector

namespace Waybeam.Vehicle

/-! ## Antennas -/

section Slots

variable {es slots : List (String × ℤ)} {id : String} {avg : ℤ}

/-- The slots after these entries. -/
def antSlots (es : List (String × ℤ)) : List (String × ℤ) :=
  es.foldl (fun slots a => antSlot slots a.1 a.2) []

/-- The slots list the first ids, each with the best of its averages. -/
structure Lists (es slots : List (String × ℤ)) : Prop where
  ids : slots.map Prod.fst = (es.map Prod.fst).eraseDups.take antMax
  top : ∀ x ∈ slots, IsGreatest {v | (x.1, v) ∈ es} x.2

theorem any_id_iff : slots.any (·.1 = id) = true ↔ id ∈ slots.map Prod.fst := by
  rw [List.any_eq_true, List.mem_map]
  simp only [decide_eq_true_eq]

theorem eraseDups_snoc {α : Type} [DecidableEq α] (l : List α) (a : α) :
    (l ++ [a]).eraseDups = if a ∈ l then l.eraseDups else l.eraseDups ++ [a] := by
  rw [List.eraseDups_append]
  by_cases h : a ∈ l
  · simp [List.removeAll, h]
  · simp [List.removeAll, h, List.eraseDups_cons]

theorem nodup_eraseDups {α : Type} [DecidableEq α] (l : List α) : l.eraseDups.Nodup := by
  induction l using List.reverseRecOn with
  | nil => exact List.nodup_nil
  | append_singleton l a ih =>
      rw [eraseDups_snoc]
      split
      · exact ih
      · next h =>
          refine List.nodup_append.mpr ⟨ih, List.pairwise_singleton _ a, ?_⟩
          intro b hb c hc heq
          rw [List.mem_singleton.mp hc] at heq
          exact h (heq ▸ List.mem_eraseDups.mp hb)

theorem eraseDups_map {α β : Type} [DecidableEq α] [DecidableEq β] {f : α → β}
    (hf : Function.Injective f) (l : List α) : (l.map f).eraseDups = l.eraseDups.map f := by
  induction l using List.reverseRecOn with
  | nil => rfl
  | append_singleton l a ih =>
      have hmem : f a ∈ l.map f ↔ a ∈ l := List.mem_map_of_injective hf
      rw [List.map_append, List.map_singleton, eraseDups_snoc, eraseDups_snoc, ih]
      by_cases ha : a ∈ l
      · rw [if_pos ha, if_pos (hmem.mpr ha)]
      · rw [if_neg ha, if_neg (fun h => ha (hmem.mp h)), List.map_append, List.map_singleton]

/-- An entry of another antenna changes nothing for the others. -/
theorem greatest_other {x : String × ℤ} (hx : x.1 ≠ id) (h : IsGreatest {v | (x.1, v) ∈ es} x.2) :
    IsGreatest {v | (x.1, v) ∈ es ++ [(id, avg)]} x.2 := by
  have hset : {v | (x.1, v) ∈ es ++ [(id, avg)]} = {v | (x.1, v) ∈ es} := by
    ext v
    simp [hx]
  rw [hset]
  exact h

/-- An entry whose antenna has a slot. -/
theorem Lists.slot (h : Lists es slots) (hid : id ≠ "") (hmem : id ∈ slots.map Prod.fst) :
    Lists (es ++ [(id, avg)]) (antSlot slots id avg) := by
  have hslot : antSlot slots id avg = slots.map fun x => if x.1 = id then (x.1, max x.2 avg) else x := by
    rw [antSlot, if_pos ⟨hid, any_id_iff.mpr hmem⟩]
  have hseen : id ∈ es.map Prod.fst := by
    rw [h.ids] at hmem
    exact List.mem_eraseDups.mp (List.mem_of_mem_take hmem)
  constructor
  · have hfst : ((fun x : String × ℤ => x.1) ∘ fun x => if x.1 = id then (x.1, max x.2 avg) else x) =
        Prod.fst := by
      funext x
      simp only [Function.comp]
      split <;> rfl
    rw [hslot, List.map_map, hfst, h.ids, List.map_append, List.map_singleton, eraseDups_snoc, if_pos hseen]
  · rw [hslot]
    intro y hy
    obtain ⟨x, hx, rfl⟩ := List.mem_map.mp hy
    have htop := h.top x hx
    by_cases hxid : x.1 = id
    · rw [if_pos hxid]
      subst hxid
      have hset : {v | (x.1, v) ∈ es ++ [(x.1, avg)]} = insert avg {v | (x.1, v) ∈ es} := by
        ext v
        simp [or_comm]
      rw [hset, max_comm]
      exact htop.insert avg
    · rw [if_neg hxid]
      exact greatest_other hxid htop

/-- An entry of an antenna without one. -/
theorem Lists.fresh (h : Lists es slots) (hmem : id ∉ slots.map Prod.fst) :
    Lists (es ++ [(id, avg)]) (antSlot slots id avg) := by
  have hno : ¬(id ≠ "" ∧ slots.any (·.1 = id) = true) := fun hany => hmem (any_id_iff.mp hany.2)
  have hlen : slots.length = min antMax (es.map Prod.fst).eraseDups.length := by
    rw [← List.length_take, ← h.ids, List.length_map]
  have hold : ∀ x ∈ slots, IsGreatest {v | (x.1, v) ∈ es ++ [(id, avg)]} x.2 := by
    intro x hx
    exact greatest_other (fun heq => hmem (heq ▸ List.mem_map_of_mem hx)) (h.top x hx)
  rw [antSlot, if_neg hno]
  by_cases hroom : slots.length < antMax
  · have hall : slots.map Prod.fst = (es.map Prod.fst).eraseDups := by
      rw [h.ids, List.take_of_length_le (by omega)]
    have hunseen : id ∉ es.map Prod.fst := fun hseen => hmem (hall ▸ List.mem_eraseDups.mpr hseen)
    rw [if_pos hroom]
    constructor
    · rw [List.map_append, List.map_append, List.map_singleton, eraseDups_snoc,
        if_neg hunseen, ← hall, List.take_of_length_le]
      rw [List.length_append, List.length_map]
      exact hroom
    · intro x hx
      rcases List.mem_append.mp hx with hx | hx
      · exact hold x hx
      · rw [List.mem_singleton.mp hx]
        have hset : {v | (id, v) ∈ es ++ [(id, avg)]} = {avg} := by
          ext v
          have hes : (id, v) ∉ es := fun hv => hunseen (List.mem_map_of_mem hv)
          simp [hes]
        rw [hset]
        exact isGreatest_singleton
  · rw [if_neg hroom]
    refine ⟨?_, hold⟩
    rw [h.ids, List.map_append, List.map_singleton, eraseDups_snoc]
    split
    · rfl
    · rw [List.take_append_of_le_length (by omega)]

/-- The slots list the antennas of the entries, whatever their order. -/
theorem antSlots_lists (hes : ∀ e ∈ es, e.1 ≠ "") : Lists es (antSlots es) := by
  induction es using List.reverseRecOn with
  | nil => exact ⟨rfl, fun x hx => absurd hx List.not_mem_nil⟩
  | append_singleton es e ih =>
      have hbefore := ih fun x hx => hes x (List.mem_append_left _ hx)
      have hid : e.1 ≠ "" := hes e (List.mem_append_right _ List.mem_cons_self)
      have hsnoc : antSlots (es ++ [e]) = antSlot (antSlots es) e.1 e.2 := by
        rw [antSlots, List.foldl_append]
        rfl
      rw [hsnoc]
      by_cases hmem : e.1 ∈ (antSlots es).map Prod.fst
      · exact hbefore.slot hid hmem
      · exact hbefore.fresh hmem

end Slots

/-! ## Raw RSSI -/

theorem best_greatest {l : List ℤ} (h : l ≠ []) : IsGreatest {v | v ∈ l} (best l) := by
  cases l with
  | nil => exact absurd rfl h
  | cons x xs =>
      obtain ⟨hmem, hle⟩ := foldl_max_spec x xs
      exact ⟨hmem, fun v hv => hle v hv⟩

/-! ## Means -/

/-- A mean of two values lies between their bounds. -/
theorem ewma_mem {a x y lo hi : ℚ} (ha0 : 0 ≤ a) (ha1 : a ≤ 1) (hx : x ∈ Set.Icc lo hi)
    (hy : y ∈ Set.Icc lo hi) : ewma a x y ∈ Set.Icc lo hi := by
  have hb : 0 ≤ 1 - a := sub_nonneg.mpr ha1
  constructor
  · calc lo = a * lo + (1 - a) * lo := by ring
      _ ≤ ewma a x y := add_le_add (mul_le_mul_of_nonneg_left hx.1 ha0) (mul_le_mul_of_nonneg_left hy.1 hb)
  · calc ewma a x y
        ≤ a * hi + (1 - a) * hi :=
          add_le_add (mul_le_mul_of_nonneg_left hx.2 ha0) (mul_le_mul_of_nonneg_left hy.2 hb)
      _ = hi := by ring

theorem pktRatio_nonneg (count uniq : ℤ) : 0 ≤ pktRatio count uniq := by
  rw [pktRatio]
  split
  · next hcount =>
      have hnum : (0 : ℚ) ≤ count := by exact_mod_cast hcount.le
      have hden : (0 : ℚ) ≤ (if 0 < uniq then uniq else 1 : ℤ) := by
        split
        · next huniq => exact_mod_cast huniq.le
        · norm_num
      exact div_nonneg hnum hden
  · exact le_refl 0

/-- A capped ratio of packet counts. -/
theorem capped_mem (count uniq : ℤ) : min (pktRatio count uniq) 1 ∈ Set.Icc (0 : ℚ) 1 :=
  ⟨le_min (pktRatio_nonneg count uniq) zero_le_one, min_le_right _ _⟩

/-! ## The slope -/

section Slope

variable (s : Scorer) (now : ℕ)

@[simp] theorem slopeUpdate_haveLoss : (slopeUpdate s now).haveLoss = s.haveLoss := by
  rw [slopeUpdate]
  dsimp only
  split_ifs <;> rfl

@[simp] theorem slopeUpdate_smoothedLost : (slopeUpdate s now).smoothedLost = s.smoothedLost := by
  rw [slopeUpdate]
  dsimp only
  split_ifs <;> rfl

@[simp] theorem slopeUpdate_smoothedRssi : (slopeUpdate s now).smoothedRssi = s.smoothedRssi := by
  rw [slopeUpdate]
  dsimp only
  split_ifs <;> rfl

/-- What a record does to the slope, by the gap since the last one that counted. -/
structure Paced (s s' : Scorer) (now : ℕ) : Prop where
  /-- no baseline yet -/
  first : s.slopePrevUs = 0 → s'.slopeDbS = s.slopeDbS
  /-- a burst -/
  burst : now < s.slopePrevUs + 10000 → s'.slopeDbS = s.slopeDbS
  /-- of which the first record stays the baseline -/
  baseline : s.slopePrevUs ≠ 0 → s.slopePrevUs < now → now < s.slopePrevUs + 10000 →
    s'.slopePrevRssi = s.slopePrevRssi ∧ s'.slopePrevUs = s.slopePrevUs
  /-- an outage -/
  outage : s.slopePrevUs ≠ 0 → s.slopePrevUs + 2000000 < now → s'.slopeDbS = 0
  derivative : s.slopePrevUs ≠ 0 → s.slopePrevUs + 10000 ≤ now → now ≤ s.slopePrevUs + 2000000 →
    s'.slopeDbS =
      ewma (3 / 10) ((s'.smoothedRssi - s.slopePrevRssi) / secsOf (now - s.slopePrevUs)) s.slopeDbS
  /-- every other record is the next baseline -/
  rebased : s.slopePrevUs = 0 ∨ s.slopePrevUs + 10000 ≤ now →
    s'.slopePrevRssi = s'.smoothedRssi ∧ s'.slopePrevUs = now

theorem slopeUpdate_paced : Paced s (slopeUpdate s now) now := by
  have hms : (1 / 100 : ℚ) = secsOf 10000 := by norm_num [secsOf]
  have hsecs : (2 : ℚ) = secsOf 2000000 := by norm_num [secsOf]
  by_cases hgap : s.slopePrevUs ≠ 0 ∧ s.slopePrevUs < now
  · obtain ⟨hprev, hlt⟩ := hgap
    by_cases hburst : now < s.slopePrevUs + 10000
    · have hshort : secsOf (now - s.slopePrevUs) < 1 / 100 := by
        rw [hms, secsOf_lt_secsOf]
        omega
      rw [slopeUpdate, if_pos ⟨hprev, hlt⟩, if_pos hshort]
      constructor <;> intros <;> first | rfl | exact ⟨rfl, rfl⟩ | omega
    · have hlong : ¬secsOf (now - s.slopePrevUs) < 1 / 100 := by
        rw [hms, secsOf_lt_secsOf]
        omega
      by_cases hout : now ≤ s.slopePrevUs + 2000000
      · have htwo : secsOf (now - s.slopePrevUs) ≤ 2 := by
          rw [hsecs, ← not_lt, secsOf_lt_secsOf]
          omega
        rw [slopeUpdate, if_pos ⟨hprev, hlt⟩, if_neg hlong, if_pos htwo]
        constructor <;> intros <;> first | rfl | exact ⟨rfl, rfl⟩ | omega
      · have htwo : ¬secsOf (now - s.slopePrevUs) ≤ 2 := by
          rw [hsecs, not_le, secsOf_lt_secsOf]
          omega
        rw [slopeUpdate, if_pos ⟨hprev, hlt⟩, if_neg hlong, if_neg htwo]
        constructor <;> intros <;> first | rfl | exact ⟨rfl, rfl⟩ | omega
  · rw [slopeUpdate, if_neg hgap]
    constructor <;> intros <;> first | rfl | exact ⟨rfl, rfl⟩ | omega

end Slope

/-! ## The update -/

section Update

variable (s : Scorer) (cfg : McsConfig) {ants : List AntEntry}
  (uniq lost fecRecovered diversity adapters : ℤ) (now : ℕ)

theorem scorerUpdate_none (h : antsRead ants = []) :
    scorerUpdate s cfg ants uniq lost fecRecovered diversity adapters now = (s, none) := by
  rw [scorerUpdate, h]
  rfl

/-- The loss part of a scorer that may be shown. -/
def LossInv (s : Scorer) : Prop := s.haveLoss → s.smoothedLost ∈ Set.Icc (0 : ℚ) 1

/-- Where an antenna is named, there is a score, and it shows what the scorer keeps. -/
theorem scorerUpdate_some (h : antsRead ants ≠ []) :
    ∃ s' score, scorerUpdate s cfg ants uniq lost fecRecovered diversity adapters now = (s', some score) ∧
      score.rawRssi = rawRssi cfg.rssiAggregator (antsRead ants) ∧
      score.ants = antSlots ((antsRead ants).map fun a => (a.1, a.2.1)) ∧
      score.smoothedLostRatio = s'.smoothedLost ∧ score.rssiSlopeDbS = s'.slopeDbS ∧
      (0 ≤ cfg.lossEwmaAlpha → cfg.lossEwmaAlpha ≤ 1 → LossInv s →
        s'.smoothedLost ∈ Set.Icc (0 : ℚ) 1) ∧
      Paced s s' now := by
  have hempty : (antsRead ants).isEmpty = false := by
    rw [List.isEmpty_eq_false_iff]
    exact h
  rw [scorerUpdate, hempty]
  refine ⟨_, _, rfl, rfl, ?_, rfl, rfl, ?_, ?_⟩
  · rw [antSlots, List.foldl_map]
  · intro ha0 ha1 hinv
    show (if _ then _ else _) ∈ _
    simp only [slopeUpdate_haveLoss, slopeUpdate_smoothedLost]
    split
    · next hhave => exact ewma_mem ha0 ha1 (capped_mem lost uniq) (hinv hhave)
    · exact capped_mem lost uniq
  · obtain ⟨hfirst, hburst, hbaseline, houtage, hderivative, hrebased⟩ := slopeUpdate_paced
      { s with
        smoothedRssi :=
          if s.haveRssi then ewma cfg.rssiEwmaAlpha (rawRssi cfg.rssiAggregator (antsRead ants)) s.smoothedRssi
          else rawRssi cfg.rssiAggregator (antsRead ants)
        haveRssi := true } now
    exact ⟨hfirst, hburst, hbaseline, houtage, hderivative, hrebased⟩

/-- A record as the scorer gets it. -/
structure Heard where
  ants : List AntEntry
  uniq : ℤ
  lost : ℤ
  fecRecovered : ℤ
  diversity : ℤ
  adapters : ℤ
  now : ℕ

/-- The scorer after one more record. -/
def Scorer.hear (cfg : McsConfig) (s : Scorer) (h : Heard) : Scorer :=
  (scorerUpdate s cfg h.ants h.uniq h.lost h.fecRecovered h.diversity h.adapters h.now).1

variable {s cfg} in
theorem hear_lossInv (ha0 : 0 ≤ cfg.lossEwmaAlpha) (ha1 : cfg.lossEwmaAlpha ≤ 1) (hinv : LossInv s)
    (h : Heard) : LossInv (s.hear cfg h) := by
  by_cases hread : antsRead h.ants = []
  · rw [Scorer.hear, scorerUpdate_none s cfg _ _ _ _ _ _ hread]
    exact hinv
  · obtain ⟨s', score, heq, -, -, -, -, hlost, -⟩ :=
      scorerUpdate_some s cfg h.uniq h.lost h.fecRecovered h.diversity h.adapters h.now hread
    rw [Scorer.hear, heq]
    exact fun _ => hlost ha0 ha1 hinv

/-- From the reset on the smoothed loss is a ratio. -/
theorem run_lossInv (ha0 : 0 ≤ cfg.lossEwmaAlpha) (ha1 : cfg.lossEwmaAlpha ≤ 1) (hs : List Heard) :
    LossInv (hs.foldl (Scorer.hear cfg) {}) := by
  have hrun : ∀ s, LossInv s → LossInv (hs.foldl (Scorer.hear cfg) s) := by
    induction hs with
    | nil => exact fun s hinv => hinv
    | cons h hs ih => exact fun s hinv => ih _ (hear_lossInv ha0 ha1 hinv h)
  exact hrun {} fun h => absurd h Bool.false_ne_true

end Update

end Waybeam.Vehicle
