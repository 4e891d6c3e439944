/- PredictionMarket/Clearing/CostConservation
   digest: Clearing keeps reserve plus pnl pool equal to the cost sums exactly when nobody realizes a profit. -/

import PredictionMarket.Clearing.Inversion
import PredictionMarket.Library.Run
import Mathlib.Data.Rat.Floor

set_option autoImplicit false
set_option relaxedAutoImplicit false

namespace PredictionMarket

open Library

/-- Average cost of `qty` of the shares, rounded down; a full close takes the
whole cost with it. -/
def Holding.costOf (c : Holding) (qty : Int) : Int :=
  if c.volume ≤ qty then c.costSum else ⌊(c.costSum * qty : ℚ) / c.volume⌋

theorem calcReleasedCost_eq (c : Holding) (qty : Int) (nonneg : 0 ≤ c.volume) :
    calcReleasedCost c.costSum c.volume qty = c.costOf qty := by
  obtain ⟨n, volume⟩ := Int.eq_ofNat_of_zero_le nonneg
  unfold calcReleasedCost Holding.costOf
  split
  · rfl
  · rw [Int.fdiv_eq_ediv_of_nonneg _ nonneg, volume]
    exact_mod_cast (Rat.floor_intCast_div_natCast (c.costSum * qty) n).symm

theorem PositionRow.Check.holding {r : PositionRow} (ok : r.Check) (side : OriginalSide) :
    (r.holding side).Check := by
  cases side
  · exact ok.1
  · exact ok.2

theorem PositionRow.Check.modify {r : PositionRow} (ok : r.Check) (side : OriginalSide)
    {f : Holding → Holding} (changed : (f (r.holding side)).Check) : (r.modify side f).Check := by
  cases side
  · exact ⟨changed, ok.2⟩
  · exact ⟨ok.1, changed⟩

/-- The shares that a transfer takes from `holder`: a party that trades with
itself has bought before it sells. -/
def Holdings.saleHolding (h : Holdings) (side : OriginalSide) (payer holder : UserId)
    (marketId : MarketId) (qty cost : Int) : Holding :=
  let held := ((h.positions.get? (holder, marketId)).getD .empty).holding side
  if payer = holder then held.bought qty cost else held

def TradeResult.SoldAtCost (trade : TradeResult) (h : Holdings) : Prop :=
  let held := fun user => (h.positions.get? (user, trade.marketId)).getD .empty
  match determineScenario trade.buyBookType trade.sellBookType with
  | .mint => True
  | .transferYes =>
    (h.saleHolding .yes trade.buyUserId trade.sellUserId trade.marketId trade.quantity
      (trade.price * trade.quantity)).costOf trade.quantity = trade.price * trade.quantity
  | .transferNo =>
    (h.saleHolding .no trade.sellUserId trade.buyUserId trade.marketId trade.quantity
      ((100 - trade.price) * trade.quantity)).costOf trade.quantity =
      (100 - trade.price) * trade.quantity
  | .burn =>
    (held trade.sellUserId).yes.costOf trade.quantity +
      (held trade.buyUserId).no.costOf trade.quantity = 100 * trade.quantity

def TradeResult.Covered (trade : TradeResult) (h : Holdings) : Prop :=
  let held := fun user => (h.positions.get? (user, trade.marketId)).getD .empty
  (trade.sellBookType = .nativeSell → trade.quantity ≤ (held trade.sellUserId).yes.volume) ∧
    (trade.buyBookType = .syntheticBuy → trade.quantity ≤ (held trade.buyUserId).no.volume)

def Holdings.NettedAtCost (h : Holdings) (userId : UserId) (marketId : MarketId) : Prop :=
  ∀ row, h.netting? userId marketId = some row →
    row.yes.costOf row.nettable + row.no.costOf row.nettable = 100 * row.nettable

abbrev ClearingState := MarketState × Holdings

inductive ClearingOp
  | fill (trade : TradeResult)
  | netting (userId : UserId)

def clearingStep : Steps ClearingState ClearingOp
  | (market, h), .fill trade, (market', h') =>
    trade.marketId = market.id ∧ ∃ pnl, settleTrade trade market h = .ok (pnl, market', h')
  | (market, h), .netting userId, (market', h') =>
    ∃ qty, executeNettingIfNeeded userId market.id market h = .ok (qty, market', h')

def AtCost : ClearingState → ClearingOp → Prop
  | (_, h), .fill trade => trade.SoldAtCost h
  | (market, h), .netting userId => h.NettedAtCost userId market.id

def imbalance (s : ClearingState) : Int :=
  s.1.reserveBalance + s.1.pnlPool - s.2.totalCost s.1.id

def Inv3 (s : ClearingState) : Prop :=
  s.1.reserveBalance + s.1.pnlPool = s.2.totalCost s.1.id

theorem inv3_iff (s : ClearingState) : Inv3 s ↔ imbalance s = 0 := by
  unfold Inv3 imbalance
  omega

section Imbalance

variable {trade : TradeResult} {market market' : MarketState} {h h' : Holdings}

private theorem costSum_bought (qty cost : Int) (c : Holding) :
    (c.bought qty cost).costSum = c.costSum + cost := rfl

private theorem costSum_sold (qty released : Int) (c : Holding) :
    (c.sold qty released).costSum = c.costSum + -released := by
  simp only [Holding.sold]
  omega

theorem clearMint_imbalance {pnl : RealizedPnl} (here : trade.marketId = market.id)
    (done : clearMint trade market h = .ok (pnl, market', h')) :
    imbalance (market', h') = imbalance (market, h) := by
  obtain ⟨⟨h₁, h₂, h₃, debit₁, buy₁, debit₂, buy₂⟩, _, rfl⟩ := clearMint_ok done
  have cost₁ := Holdings.columnSum_addVolume rfl (costSum_bought _ _) buy₁ market.id
  have cost₂ := Holdings.columnSum_addVolume rfl (costSum_bought _ _) buy₂ market.id
  rw [Holdings.columnSum_congr (Holdings.unfreezeDebit_positions debit₁)] at cost₁
  rw [Holdings.columnSum_congr (Holdings.unfreezeDebit_positions debit₂), cost₁] at cost₂
  have value : trade.price * trade.quantity + (100 - trade.price) * trade.quantity =
      trade.quantity * 100 := by ring
  simp only [here, if_true] at cost₂
  simp only [imbalance, Holdings.totalCost_eq, cost₂]
  omega

/-- A transfer moves the imbalance by twice the seller's profit: the cost sums
rise by it and the pool, which should follow, falls by it. -/
theorem clearTransfer_imbalance {side : OriginalSide} {payer holder : UserId}
    {unitPrice pnl : Int} {missing : String} (here : trade.marketId = market.id)
    (done : clearTransfer side payer holder unitPrice missing trade market h =
      .ok (pnl, market', h')) :
    imbalance (market', h') = imbalance (market, h) - 2 * pnl ∧
      pnl = unitPrice * trade.quantity - (h.saleHolding side payer holder trade.marketId
        trade.quantity (unitPrice * trade.quantity)).costOf trade.quantity := by
  obtain ⟨h₁, h₂, h₃, row, debit, buy, got, sell, credit, gain, rfl⟩ := clearTransfer_ok done
  constructor
  · have bought := Holdings.columnSum_addVolume rfl (costSum_bought _ _) buy market.id
    have sold := Holdings.columnSum_reduceVolume got (costSum_sold _ _) sell market.id
    rw [Holdings.columnSum_congr (Holdings.unfreezeDebit_positions debit)] at bought
    rw [bought] at sold
    have same := Holdings.columnSum_congr (Holdings.addBalance_positions credit) market.id
      Holding.costSum
    simp only [here, if_true] at sold
    simp only [imbalance, Holdings.totalCost_eq, same, sold]
    omega
  · have ok := (Table.check got).holding side
    have found : row.holding side = h.saleHolding side payer holder trade.marketId trade.quantity
        (unitPrice * trade.quantity) := by
      have lookup := Table.get?_upsert? (Holdings.addVolume_ok buy).2 (holder, trade.marketId)
      rw [got, Holdings.unfreezeDebit_positions debit] at lookup
      unfold Holdings.saleHolding
      by_cases self : payer = holder
      · subst self
        simp only [if_true, Option.some.injEq] at lookup ⊢
        cases held : h.positions.get? (payer, trade.marketId) with
        | none => simp [lookup, held]
        | some r => simp [lookup, held]
      · have other : ¬ (holder, trade.marketId) = (payer, trade.marketId) := fun same =>
          self (congrArg Prod.fst same).symm
        simp only [other, if_false] at lookup
        simp [self, ← lookup]
    rw [gain, calcReleasedCost_eq _ _ ok.1, found]

theorem clearBurn_imbalance {pnl : RealizedPnl} (here : trade.marketId = market.id)
    (done : clearBurn trade market h = .ok (pnl, market', h')) :
    ∃ yesRow noRow, h.positions.get? (trade.sellUserId, trade.marketId) = some yesRow ∧
      h.positions.get? (trade.buyUserId, trade.marketId) = some noRow ∧
      imbalance (market', h') = imbalance (market, h) -
        2 * (100 * trade.quantity - (yesRow.yes.costOf trade.quantity +
          noRow.no.costOf trade.quantity)) := by
  obtain ⟨yesRow, noRow, h₁, h₂, h₃, yesCostRel, noCostRel, gotYes, gotNo, yesRel, noRel, sellYes,
    creditYes, sellNo, creditNo, _, rfl⟩ := clearBurn_ok done
  refine ⟨yesRow, noRow, gotYes, gotNo, ?_⟩
  rw [calcReleasedCost_eq _ _ (Table.check gotYes).1.1] at yesRel
  rw [calcReleasedCost_eq _ _ (Table.check gotNo).2.1] at noRel
  have soldYes := Holdings.columnSum_reduceVolume gotYes (costSum_sold _ _) sellYes market.id
  obtain ⟨r, gotNo'⟩ : ∃ r, h₂.positions.get? (trade.buyUserId, trade.marketId) = some r := by
    rw [Holdings.addBalance_positions creditYes]
    exact Holdings.position_updatePosition sellYes gotNo
  have soldNo := Holdings.columnSum_reduceVolume gotNo' (costSum_sold _ _) sellNo market.id
  rw [Holdings.columnSum_congr (Holdings.addBalance_positions creditYes), soldYes] at soldNo
  have same := Holdings.columnSum_congr (Holdings.addBalance_positions creditNo) market.id
    Holding.costSum
  have value : trade.price * trade.quantity + (100 - trade.price) * trade.quantity =
      100 * trade.quantity := by ring
  simp only [here, if_true] at soldNo
  simp only [imbalance, Holdings.totalCost_eq, same, soldNo]
  omega

theorem executeNetting_imbalance {userId : UserId} {qty : Int}
    (done : executeNettingIfNeeded userId market.id market h = .ok (qty, market', h')) :
    (h.netting? userId market.id = none ∧ imbalance (market', h') = imbalance (market, h)) ∨
    ∃ row, h.netting? userId market.id = some row ∧
      imbalance (market', h') = imbalance (market, h) -
        2 * (100 * row.nettable - (row.yes.costOf row.nettable + row.no.costOf row.nettable)) := by
  rcases executeNettingIfNeeded_ok done with ⟨idle, _, rfl, rfl⟩ |
    ⟨row, h₁, yesCostRel, noCostRel, acts, got, rfl, _, yesRel, noRel, net, credit, rfl⟩
  · exact Or.inl ⟨idle, rfl⟩
  · refine Or.inr ⟨row, acts, ?_⟩
    rw [calcReleasedCost_eq _ _ (Table.check got).1.1] at yesRel
    rw [calcReleasedCost_eq _ _ (Table.check got).2.1] at noRel
    have shift : (row.netted row.nettable yesCostRel noCostRel).total Holding.costSum =
        row.total Holding.costSum + -(yesCostRel + noCostRel) := by
      simp only [PositionRow.netted, PositionRow.total]
      omega
    have netted := Holdings.columnSum_updatePosition got shift net market.id
    have same := Holdings.columnSum_congr (Holdings.addBalance_positions credit) market.id
      Holding.costSum
    simp only [if_true] at netted
    simp only [imbalance, Holdings.totalCost_eq, same, netted]
    omega

end Imbalance

private theorem clearingStep_inv3 {s s' : ClearingState} {op : ClearingOp}
    (step : clearingStep s op s')
    (balanced : Inv3 s) : Inv3 s' ↔ AtCost s op := by
  obtain ⟨market, h⟩ := s
  obtain ⟨market', h'⟩ := s'
  rw [inv3_iff] at balanced ⊢
  cases op with
  | netting userId =>
    obtain ⟨qty, done⟩ := step
    unfold AtCost Holdings.NettedAtCost
    rcases executeNetting_imbalance done with ⟨idle, same⟩ | ⟨row, acts, moved⟩
    · simp [idle, same, balanced]
    · simp only [acts, Option.some.injEq, forall_eq']
      omega
  | fill trade =>
    obtain ⟨here, pnl, done⟩ := step
    unfold AtCost TradeResult.SoldAtCost
    cases settleTrade_ok done with
    | mint scenario ran =>
      simp only [scenario]
      simp [clearMint_imbalance here ran, balanced]
    | transferYes scenario ran =>
      simp only [scenario]
      obtain ⟨shift, value⟩ := clearTransfer_imbalance here ran
      omega
    | transferNo scenario ran =>
      simp only [scenario]
      obtain ⟨shift, value⟩ := clearTransfer_imbalance here ran
      omega
    | burn scenario ran =>
      simp only [scenario]
      obtain ⟨yesRow, noRow, gotYes, gotNo, moved⟩ := clearBurn_imbalance here ran
      simp only [gotYes, gotNo, Option.getD_some]
      omega

private theorem verify_inv3 {s : ClearingState} (balanced : Inv3 s) (reserve pnl totalCost : Int) :
    verifyInvariantsAfterTrade s.1 s.2 ≠ .error (.assertion (.inv3 reserve pnl totalCost)) := by
  intro failed
  have equal : s.1.reserveBalance + s.1.pnlPool = s.2.totalCost s.1.id := balanced
  simp only [verifyInvariantsAfterTrade, ne_eq, equal, not_true_eq_false, if_false] at failed
  split at failed
  · simp at failed
  · split at failed
    · simp at failed
    · cases failed

/-- Clearing keeps INV-3 exactly on the steps that realize no profit or loss:
from a balanced market one step ends balanced if and only if it is at cost, and
after any run of such steps the check does not raise INV-3. -/
theorem cost_conserved_iff_at_cost {s : ClearingState} (balanced : Inv3 s) :
    (∀ op s', clearingStep s op s' → (Inv3 s' ↔ AtCost s op)) ∧
    (∀ ops s', Run (Guarded AtCost clearingStep) s ops s' →
      Inv3 s' ∧ ∀ reserve pnl totalCost, verifyInvariantsAfterTrade s'.1 s'.2 ≠
        .error (.assertion (.inv3 reserve pnl totalCost))) := by
  refine ⟨fun op s' step => clearingStep_inv3 step balanced, ?_⟩
  intro ops s' run
  have keep : ∀ t op t', Guarded AtCost clearingStep t op t' → Inv3 t → Inv3 t' :=
    fun t op t' step before => (clearingStep_inv3 step.2 before).mpr step.1
  have after := run.preserves keep balanced
  exact ⟨after, verify_inv3 after⟩

section Example

def tenPairs : Holdings where
  accounts := (Table.empty.add "buyer" ⟨0, 600, true⟩ rfl (by decide)).add "seller" ⟨0, 0, true⟩
    (by decide) (by decide)
  positions := (Table.empty.add ("seller", "m") ⟨⟨10, 500, 10⟩, .empty⟩ rfl (by decide)).add
    ("other", "m") ⟨.empty, ⟨10, 500, 0⟩⟩ (by decide) (by decide)

def tenPairsMarket : MarketState := ⟨"m", .active, 1000, 0, 10, 10, 20⟩

def saleAboveCost : TradeResult :=
  ⟨1, 2, "buyer", "seller", "m", 60, 10, .nativeBuy, .nativeSell, 60, 2, 1⟩

theorem sale_clears : ∃ r n, settleTrade saleAboveCost tenPairsMarket tenPairs = .ok r ∧
    executeNettingIfNeeded "buyer" r.2.1.id r.2.1 r.2.2 = .ok n := by
  have clears : ((settleTrade saleAboveCost tenPairsMarket tenPairs).bind (fun r =>
      executeNettingIfNeeded "buyer" r.2.1.id r.2.1 r.2.2)).isOk = true := by rfl
  obtain ⟨n, done⟩ := exists_of_isOk clears
  obtain ⟨r, cleared, netted⟩ := bind_eq_ok.mp done
  exact ⟨r, n, cleared, netted⟩

def saleAtCost : TradeResult := { saleAboveCost with price := 50 }

theorem sale_at_cost_keeps_inv3 :
    ∃ s', Run (Guarded AtCost clearingStep) (tenPairsMarket, tenPairs) [.fill saleAtCost] s' ∧
      Inv3 s' := by
  have clears : (settleTrade saleAtCost tenPairsMarket tenPairs).isOk = true := by rfl
  obtain ⟨r, cleared⟩ := exists_of_isOk clears
  have step : clearingStep (tenPairsMarket, tenPairs) (.fill saleAtCost) (r.2.1, r.2.2) :=
    ⟨rfl, r.1, cleared⟩
  have atCost : AtCost (tenPairsMarket, tenPairs) (.fill saleAtCost) := by rfl
  have run : Run (Guarded AtCost clearingStep) (tenPairsMarket, tenPairs) [.fill saleAtCost]
      (r.2.1, r.2.2) := Run.single ⟨atCost, step⟩
  have balanced : Inv3 (tenPairsMarket, tenPairs) := rfl
  exact ⟨_, run, ((cost_conserved_iff_at_cost balanced).2 _ _ run).1⟩

end Example

/-- A covered sale above cost leaves INV-3 broken: 900 against 1100. -/
theorem sale_above_cost_breaks_inv3 :
    ¬ ∀ s trade s', clearingStep s (.fill trade) s' → trade.Covered s.2 → Inv3 s → Inv3 s' := by
  intro claim
  have sums : (settleTrade saleAboveCost tenPairsMarket tenPairs).map (fun r =>
      (r.2.1.id, r.2.1.reserveBalance + r.2.1.pnlPool, r.2.2.totalCost "m")) =
        .ok ("m", 900, 1100) := by rfl
  cases cleared : settleTrade saleAboveCost tenPairsMarket tenPairs with
  | error e => simp [cleared, Except.map] at sums
  | ok r =>
    obtain ⟨pnl, market, h⟩ := r
    have balanced := claim (tenPairsMarket, tenPairs) saleAboveCost (market, h)
      ⟨rfl, pnl, cleared⟩ ⟨fun _ => by decide, fun none => by cases none⟩ rfl
    simp only [cleared, Except.map, Except.ok.injEq, Prod.mk.injEq] at sums
    have equal : market.reserveBalance + market.pnlPool = h.totalCost market.id := balanced
    rw [sums.1, sums.2.1, sums.2.2] at equal
    cases equal

end PredictionMarket
