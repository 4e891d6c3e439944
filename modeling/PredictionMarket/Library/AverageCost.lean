/- PredictionMarket/Library/AverageCost
   digest: A cost whose average per unit stays between two prices while units come and go. -/

import Mathlib.Algebra.Order.Ring.Int
import Mathlib.Tactic.Linarith
import Mathlib.Tactic.Ring

set_option autoImplicit false
set_option relaxedAutoImplicit false

namespace PredictionMarket.Library

/-- Each of `volume` units cost between `lo` and `hi` on average. -/
structure Averaged (lo hi volume cost : Int) : Prop where
  least : lo * volume ≤ cost
  most : cost ≤ hi * volume

namespace Averaged

variable {lo hi volume volume' cost cost' qty : Int}

theorem zero (lo hi : Int) : Averaged lo hi 0 0 := ⟨(mul_zero lo).le, (mul_zero hi).ge⟩

theorem add (first : Averaged lo hi volume cost) (second : Averaged lo hi volume' cost') :
    Averaged lo hi (volume + volume') (cost + cost') := by
  constructor
  · rw [mul_add]
    exact add_le_add first.least second.least
  · rw [mul_add]
    exact add_le_add first.most second.most

theorem atPrice {price : Int} (least : lo ≤ price) (most : price ≤ hi) (nonneg : 0 ≤ qty) :
    Averaged lo hi qty (price * qty) :=
  ⟨mul_le_mul_of_nonneg_right least nonneg, mul_le_mul_of_nonneg_right most nonneg⟩

/-- Releasing units with their share of the cost, rounded down, leaves the average of the
others between the two prices: what rounding keeps back is less than one. -/
theorem release (averaged : Averaged lo hi volume cost) (positive : 0 < volume)
    (covered : qty ≤ volume) :
    Averaged lo hi (volume - qty) (cost - cost * qty / volume) := by
  have rest : 0 ≤ volume - qty := sub_nonneg.mpr covered
  have below : cost * qty / volume * volume ≤ cost * qty := Int.ediv_mul_le _ positive.ne'
  have above : cost * qty < (cost * qty / volume + 1) * volume :=
    Int.lt_ediv_add_one_mul_self _ positive
  have least := mul_le_mul_of_nonneg_right averaged.least rest
  have most := mul_le_mul_of_nonneg_right averaged.most rest
  constructor
  · refine le_of_mul_le_mul_right ?_ positive
    calc lo * (volume - qty) * volume
        = lo * volume * (volume - qty) := by ring
      _ ≤ cost * (volume - qty) := least
      _ = cost * volume - cost * qty := by ring
      _ ≤ cost * volume - cost * qty / volume * volume := by linarith
      _ = (cost - cost * qty / volume) * volume := by ring
  · refine Int.le_of_lt_add_one (lt_of_mul_lt_mul_right ?_ positive.le)
    calc (cost - cost * qty / volume) * volume
        = cost * volume - (cost * qty / volume + 1) * volume + volume := by ring
      _ < cost * volume - cost * qty + volume := by linarith
      _ = cost * (volume - qty) + volume := by ring
      _ ≤ hi * volume * (volume - qty) + volume := by linarith
      _ = (hi * (volume - qty) + 1) * volume := by ring

theorem nonneg (averaged : Averaged lo hi volume cost) (price : 0 ≤ lo) (held : 0 ≤ volume) :
    0 ≤ cost := le_trans (mul_nonneg price held) averaged.least

theorem eq_zero_iff (averaged : Averaged lo hi volume cost) (price : 0 < lo) (held : 0 ≤ volume) :
    cost = 0 ↔ volume = 0 := by
  constructor
  · rintro rfl
    by_contra some_
    exact absurd averaged.least (not_le.mpr (mul_pos price (lt_of_le_of_ne held (Ne.symm some_))))
  · rintro rfl
    have least := averaged.least
    have most := averaged.most
    rw [mul_zero] at least most
    exact le_antisymm most least

end Averaged

end PredictionMarket.Library
