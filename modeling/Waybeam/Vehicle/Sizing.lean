/-
# `Waybeam.Vehicle.Sizing` — what a block size may be

A frame of `target` bytes is cut into packets of `mtu`, and a block of `k` and `n` is made of them:

    packets    rounded up; held at the current count near the edges of its bucket
    k          between its limits, and below `max_n`
    n          what the curve makes of `k`, between its limits, and above `k`

The limits hold whatever the frame is, and without a count to hold to a larger frame gets no smaller
block (`fec_bounds`).  The count is held up to the upper edge of the *next* bucket, though, and so
over a whole packet too long (`deadband_iff`).
-/
import Waybeam.Vehicle.SetFec

namespace Waybeam.Vehicle

/-! ## The curve -/

/-- One packet more costs less redundancy than it adds. -/
theorem redundancy_step {k : ℤ} (hk : 1 ≤ k) :
    k * (interpolateRedundancy k - interpolateRedundancy (k + 1)) ≤ 1 - interpolateRedundancy k := by
  have hnodes : ∀ j : Fin 48, ((j : ℕ) : ℤ) *
      (interpolateRedundancy (j : ℕ) - interpolateRedundancy ((j : ℕ) + 1))
        ≤ 1 - interpolateRedundancy (j : ℕ) := by decide +kernel
  by_cases hflat : 48 ≤ k
  · rw [interpolateRedundancy_of_le hflat, interpolateRedundancy_of_le (by omega)]
    norm_num
  · obtain ⟨j, rfl⟩ := Int.eq_ofNat_of_zero_le (show 0 ≤ k by omega)
    exact hnodes ⟨j, by omega⟩

theorem curveN_succ {k : ℤ} (hk : 1 ≤ k) : curveN k ≤ curveN (k + 1) := by
  have hhere := (interpolateRedundancy_mem k).2
  have hnext := (interpolateRedundancy_mem (k + 1)).2
  have hstep := redundancy_step hk
  refine Int.ceil_mono ?_
  rw [div_le_div_iff₀ (by linarith) (by linarith)]
  push_cast
  linarith

theorem curveN_mono {k l : ℤ} (hk : 1 ≤ k) (h : k ≤ l) : curveN k ≤ curveN l := by
  induction l, h using Int.leInduction with
  | base => exact le_refl _
  | succ l hkl ih => exact ih.trans (curveN_succ (hk.trans hkl))

/-! ## Limits -/

/-- Limits of a block that leave room for one. -/
structure FecConfig.Limits (cfg : FecConfig) : Prop where
  one_le_minK : 1 ≤ cfg.minK
  minK_le_maxK : cfg.minK ≤ cfg.maxK
  minN_le_maxN : cfg.minN ≤ cfg.maxN
  minK_lt_maxN : cfg.minK < cfg.maxN

variable {cfg : FecConfig}

theorem clampInt_mono (lo hi : ℤ) {x y : ℤ} (h : x ≤ y) : clampInt lo hi x ≤ clampInt lo hi y := by
  simp only [clampInt]
  split_ifs <;> omega

theorem blockK_mem (h : cfg.Limits) (ppf : ℤ) :
    cfg.minK ≤ blockK cfg ppf ∧ blockK cfg ppf ≤ cfg.maxK ∧ blockK cfg ppf < cfg.maxN := by
  obtain ⟨hone, hk, hn, hkn⟩ := h
  obtain ⟨hlo, hhi⟩ := clampInt_mem hk ppf
  simp only [blockK]
  split_ifs with hcut <;> omega

theorem blockK_mono {p q : ℤ} (h : p ≤ q) : blockK cfg p ≤ blockK cfg q := by
  have hclamp := clampInt_mono cfg.minK cfg.maxK h
  simp only [blockK]
  split_ifs <;> omega

theorem blockN_mem (h : cfg.Limits) {k : ℤ} (hk : k < cfg.maxN) :
    cfg.minN ≤ blockN cfg k ∧ blockN cfg k ≤ cfg.maxN := by
  obtain ⟨hlo, hhi⟩ := clampInt_mem h.minN_le_maxN (curveN k)
  simp only [blockN]
  split_ifs with hfloor <;> omega

theorem blockN_mono {k l : ℤ} (hk : 1 ≤ k) (h : k ≤ l) : blockN cfg k ≤ blockN cfg l := by
  have hclamp := clampInt_mono cfg.minN cfg.maxN (curveN_mono hk h)
  simp only [blockN]
  split_ifs <;> omega

/-- Without a count to hold to, a larger target takes no fewer packets. -/
theorem fecPacketsPerFrame_mono (hmtu : 0 < cfg.mtu) {s t : ℚ} (h : s ≤ t) :
    fecPacketsPerFrame s cfg 0 ≤ fecPacketsPerFrame t cfg 0 := by
  have hpos : (0 : ℚ) < cfg.mtu := by exact_mod_cast hmtu
  have hceil : ⌈s / cfg.mtu⌉ ≤ ⌈t / cfg.mtu⌉ := Int.ceil_mono (div_le_div_of_nonneg_right h hpos.le)
  simp only [fecPacketsPerFrame, lt_irrefl, false_and, if_false]
  split_ifs <;> omega

/-- The block of any frame keeps the limits; a larger frame, at the same headroom and without a
count to hold to, gets no smaller a block. -/
theorem fec_bounds (h : cfg.Limits) (hmtu : 0 < cfg.mtu) :
    (∀ (avgSize headroom : ℚ) (currentPpf : ℤ),
      let p := fecCompute avgSize headroom cfg currentPpf
      cfg.minK ≤ p.k ∧ p.k ≤ cfg.maxK ∧ cfg.minN ≤ p.n ∧ p.n ≤ cfg.maxN ∧ p.k < p.n) ∧
    ∀ (headroom a b : ℚ), 0 ≤ headroom → a ≤ b →
      (fecCompute a headroom cfg 0).k ≤ (fecCompute b headroom cfg 0).k ∧
        (fecCompute a headroom cfg 0).n ≤ (fecCompute b headroom cfg 0).n := by
  constructor
  · intro avgSize headroom currentPpf
    obtain ⟨hlo, hhi, hroom⟩ := blockK_mem h (fecPacketsPerFrame (avgSize * headroom) cfg currentPpf)
    obtain ⟨hnlo, hnhi⟩ := blockN_mem h hroom
    dsimp only
    rw [fecCompute_n]
    exact ⟨hlo, hhi, hnlo, hnhi, lt_blockN cfg _⟩
  · intro headroom a b hheadroom hab
    have htarget : a * headroom ≤ b * headroom := mul_le_mul_of_nonneg_right hab hheadroom
    have hk : (fecCompute a headroom cfg 0).k ≤ (fecCompute b headroom cfg 0).k :=
      blockK_mono (fecPacketsPerFrame_mono hmtu htarget)
    have hone := h.one_le_minK.trans (blockK_mem h (fecPacketsPerFrame (a * headroom) cfg 0)).1
    rw [fecCompute_n, fecCompute_n]
    exact ⟨hk, blockN_mono hone hk⟩

/-- The limits a controller starts with, and two frame sizes. -/
theorem fec_bounds_default :
    ((fecCompute 12000 (105 / 100) {} 9).k < (fecCompute 12000 (105 / 100) {} 9).n) ∧
      (fecCompute 12000 (105 / 100) {} 0).n ≤ (fecCompute 30000 (105 / 100) {} 0).n := by
  have hlimits : FecConfig.Limits {} := ⟨by decide, by decide, by decide, by decide⟩
  obtain ⟨hbounds, hmono⟩ := fec_bounds hlimits (by decide)
  obtain ⟨-, -, -, -, hlt⟩ := hbounds 12000 (105 / 100) 9
  exact ⟨hlt, (hmono (105 / 100) 12000 30000 (by norm_num) (by norm_num)).2⟩

/-- The headroom of a window is no less than one, where its limits are not. -/
theorem one_le_computeHeadroom (r : HeadroomRing) (margin : ℚ) {lo hi : ℚ} (hlo : 1 ≤ lo)
    (hhi : 1 ≤ hi) : 1 ≤ computeHeadroom r margin lo hi := by
  simp only [computeHeadroom]
  split_ifs <;> linarith

/-! ## The dead band -/

/-- Packets without a count to hold to. -/
def freshPpf (cfg : FecConfig) (target : ℚ) : ℤ := max 1 ⌈target / cfg.mtu⌉

/-- The count is held only near its own bucket, and the frame fits but for the dead band. -/
structure HeldNear (cfg : FecConfig) (target : ℚ) (p r : ℤ) : Prop where
  /-- held, where it is not the new count anyway -/
  near : r = p → r = freshPpf cfg target ∨
    (p - 1) * cfg.mtu - cfg.ppfDeadbandFrac * cfg.mtu ≤ target ∧
      target ≤ p * cfg.mtu + cfg.ppfDeadbandFrac * cfg.mtu
  moves : r ≠ p → r = freshPpf cfg target
  fits : target ≤ r * cfg.mtu + cfg.ppfDeadbandFrac * cfg.mtu

variable {target : ℚ} {p : ℤ}

theorem fecPacketsPerFrame_eq (hp : 0 < p) :
    fecPacketsPerFrame target cfg p =
      if 0 < cfg.ppfDeadbandFrac ∧
          (p < freshPpf cfg target ∧ target < (p + 1) * cfg.mtu + cfg.mtu * cfg.ppfDeadbandFrac ∨
            freshPpf cfg target < p ∧ (p - 1) * cfg.mtu - cfg.mtu * cfg.ppfDeadbandFrac < target)
        then p else freshPpf cfg target := by
  have hfresh : (if ⌈target / cfg.mtu⌉ < 1 then 1 else ⌈target / cfg.mtu⌉) = freshPpf cfg target := by
    rw [freshPpf]
    split_ifs <;> omega
  simp only [fecPacketsPerFrame, hfresh, hp, true_and]
  push_cast
  split_ifs <;> tauto

theorem target_le_fresh (hmtu : 0 < cfg.mtu) : target ≤ freshPpf cfg target * cfg.mtu := by
  have hpos : (0 : ℚ) < cfg.mtu := by exact_mod_cast hmtu
  have hceil : target / cfg.mtu ≤ (⌈target / cfg.mtu⌉ : ℚ) := Int.le_ceil _
  have hmax : ((⌈target / cfg.mtu⌉ : ℤ) : ℚ) ≤ freshPpf cfg target := by exact_mod_cast le_max_right _ _
  exact (div_le_iff₀ hpos).mp (hceil.trans hmax)

theorem fresh_le_iff (hmtu : 0 < cfg.mtu) (hp : 0 < p) : freshPpf cfg target ≤ p ↔ target ≤ p * cfg.mtu := by
  have hpos : (0 : ℚ) < cfg.mtu := by exact_mod_cast hmtu
  rw [freshPpf, max_le_iff, Int.ceil_le, div_le_iff₀ hpos]
  exact and_iff_right hp

/-- The count is as it must be if and only if there is no dead band, or the frame does not lie
between the dead bands of its bucket and of the next. -/
theorem deadband_iff (hmtu : 0 < cfg.mtu) (hfrac : 0 ≤ cfg.ppfDeadbandFrac) (hp : 0 < p)
    (avgSize headroom : ℚ) :
    HeldNear cfg (avgSize * headroom) p (fecCompute avgSize headroom cfg p).packetsPerFrame ↔
      cfg.ppfDeadbandFrac = 0 ∨ ¬(p * cfg.mtu + cfg.ppfDeadbandFrac * cfg.mtu < avgSize * headroom ∧
        avgSize * headroom < (p + 1) * cfg.mtu + cfg.ppfDeadbandFrac * cfg.mtu) := by
  have hpos : (0 : ℚ) < cfg.mtu := by exact_mod_cast hmtu
  have hslack : 0 ≤ cfg.ppfDeadbandFrac * cfg.mtu := mul_nonneg hfrac hpos.le
  show HeldNear cfg (avgSize * headroom) p (fecPacketsPerFrame (avgSize * headroom) cfg p) ↔ _
  generalize avgSize * headroom = target
  have hfit : target ≤ freshPpf cfg target * cfg.mtu := target_le_fresh hmtu
  have hbelow : freshPpf cfg target ≤ p ↔ target ≤ p * cfg.mtu := fresh_le_iff hmtu hp
  rw [fecPacketsPerFrame_eq hp, mul_comm (cfg.mtu : ℚ)]
  constructor
  · intro hheld
    by_contra hbad
    obtain ⟨hband, hlo, hhi⟩ := not_or.mp hbad |>.imp_right not_not.mp
    have hup : p < freshPpf cfg target := by
      by_contra hle
      linarith [hbelow.mp (not_lt.mp hle)]
    have hheldUp := hheld.fits
    rw [if_pos ⟨lt_of_le_of_ne hfrac (Ne.symm hband), .inl ⟨hup, hhi⟩⟩] at hheldUp
    exact absurd hheldUp (not_le.mpr hlo)
  · intro hgood
    split
    · next hkept =>
        obtain ⟨hband, ⟨hup, hhi⟩ | ⟨hdown, hlo⟩⟩ := hkept
        · have hle : target ≤ p * cfg.mtu + cfg.ppfDeadbandFrac * cfg.mtu := by
            rcases hgood with hzero | hout
            · exact absurd hzero hband.ne'
            · exact not_lt.mp fun hlo => hout ⟨hlo, hhi⟩
          refine ⟨fun _ => .inr ⟨?_, hle⟩, fun hne => absurd rfl hne, hle⟩
          have hgt : p * cfg.mtu < target := by
            by_contra hno
            exact absurd (hbelow.mpr (not_lt.mp hno)) (not_le.mpr hup)
          linarith
        · have hle : target ≤ p * cfg.mtu := hbelow.mp hdown.le
          refine ⟨fun _ => .inr ⟨hlo.le, by linarith⟩, fun hne => absurd rfl hne, by linarith⟩
    · exact ⟨fun _ => .inl rfl, fun _ => rfl, by linarith⟩

/-- A little over four packets is held at four. -/
theorem deadband_default : HeldNear {} (6000 * 1) 4 (fecCompute 6000 1 {} 4).packetsPerFrame :=
  (deadband_iff (by decide) (by norm_num) (by decide) 6000 1).mpr (.inr (by norm_num))

/-- Nearly five packets are held at four, too. -/
theorem not_heldNear : ¬HeldNear {} 7000 4 (fecCompute 7000 1 {} 4).packetsPerFrame := by
  intro hheld
  have hppf : (fecCompute 7000 1 {} 4).packetsPerFrame = 4 := by decide +kernel
  have hfits := hheld.fits
  rw [hppf] at hfits
  norm_num at hfits

end Waybeam.Vehicle
