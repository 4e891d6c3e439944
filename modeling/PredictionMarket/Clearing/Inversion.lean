/- PredictionMarket/Clearing/Inversion
   digest: A successful clearing step, read back as the statements it ran. -/

import PredictionMarket.Clearing.Statements

set_option autoImplicit false
set_option relaxedAutoImplicit false

namespace PredictionMarket

open Library

variable {trade : TradeResult} {market market' : MarketState} {h h' : Holdings}

theorem clearMint_ok {pnl : RealizedPnl} (done : clearMint trade market h = .ok (pnl, market', h')) :
    (∃ h₁ h₂ h₃,
      h.unfreezeDebit trade.buyUserId (trade.price * trade.quantity) 0 = .ok h₁ ∧
      h₁.addVolume .yes trade.buyUserId trade.marketId trade.quantity
        (trade.price * trade.quantity) = .ok h₂ ∧
      h₂.unfreezeDebit trade.sellUserId ((100 - trade.price) * trade.quantity) 0 = .ok h₃ ∧
      h₃.addVolume .no trade.sellUserId trade.marketId trade.quantity
        ((100 - trade.price) * trade.quantity) = .ok h') ∧
    pnl = (none, none) ∧
    market' = { market with
      reserveBalance := market.reserveBalance + trade.quantity * 100
      totalYesShares := market.totalYesShares + trade.quantity
      totalNoShares := market.totalNoShares + trade.quantity } := by
  simp only [clearMint, bind_eq_ok, pure_eq_ok, Prod.mk.injEq] at done
  obtain ⟨h₁, debit₁, h₂, buy₁, h₃, debit₂, h₄, buy₂, gains, moved, rfl⟩ := done
  exact ⟨⟨h₁, h₂, h₃, debit₁, buy₁, debit₂, buy₂⟩, gains.symm, moved.symm⟩

theorem clearTransfer_ok {side : OriginalSide} {payer holder : UserId} {unitPrice pnl : Int}
    {missing : String}
    (done : clearTransfer side payer holder unitPrice missing trade market h =
      .ok (pnl, market', h')) :
    ∃ h₁ h₂ h₃ row,
      h.unfreezeDebit payer (unitPrice * trade.quantity) 0 = .ok h₁ ∧
      h₁.addVolume side payer trade.marketId trade.quantity (unitPrice * trade.quantity) =
        .ok h₂ ∧
      h₂.positions.get? (holder, trade.marketId) = some row ∧
      h₂.reduceVolume side holder trade.marketId trade.quantity
        (calcReleasedCost (row.holding side).costSum (row.holding side).volume trade.quantity) =
        .ok h₃ ∧
      h₃.addBalance holder (unitPrice * trade.quantity) = .ok h' ∧
      pnl = unitPrice * trade.quantity -
        calcReleasedCost (row.holding side).costSum (row.holding side).volume trade.quantity ∧
      market' = { market with pnlPool := market.pnlPool - pnl } := by
  simp only [clearTransfer, bind_eq_ok] at done
  obtain ⟨h₁, debit, h₂, buy, done⟩ := done
  split at done
  · exact absurd done throw_ne_ok
  · next row got =>
    simp only [bind_eq_ok, pure_eq_ok, Prod.mk.injEq] at done
    obtain ⟨h₃, sell, h₄, credit, gain, moved, rfl⟩ := done
    exact ⟨h₁, h₂, h₃, row, debit, buy, got, sell, credit, gain.symm, by rw [← gain]; exact moved.symm⟩

theorem clearBurn_ok {pnl : RealizedPnl} (done : clearBurn trade market h = .ok (pnl, market', h')) :
    ∃ yesRow noRow h₁ h₂ h₃ yesCostRel noCostRel,
      h.positions.get? (trade.sellUserId, trade.marketId) = some yesRow ∧
      h.positions.get? (trade.buyUserId, trade.marketId) = some noRow ∧
      yesCostRel = calcReleasedCost yesRow.yes.costSum yesRow.yes.volume trade.quantity ∧
      noCostRel = calcReleasedCost noRow.no.costSum noRow.no.volume trade.quantity ∧
      h.reduceVolume .yes trade.sellUserId trade.marketId trade.quantity yesCostRel = .ok h₁ ∧
      h₁.addBalance trade.sellUserId (trade.price * trade.quantity) = .ok h₂ ∧
      h₂.reduceVolume .no trade.buyUserId trade.marketId trade.quantity noCostRel = .ok h₃ ∧
      h₃.addBalance trade.buyUserId ((100 - trade.price) * trade.quantity) = .ok h' ∧
      pnl = (some ((100 - trade.price) * trade.quantity - noCostRel),
        some (trade.price * trade.quantity - yesCostRel)) ∧
      market' = { market with
        reserveBalance := market.reserveBalance - 100 * trade.quantity
        totalYesShares := market.totalYesShares - trade.quantity
        totalNoShares := market.totalNoShares - trade.quantity
        pnlPool := market.pnlPool - (trade.price * trade.quantity - yesCostRel) -
          ((100 - trade.price) * trade.quantity - noCostRel) } := by
  simp only [clearBurn] at done
  split at done
  · exact absurd done throw_ne_ok
  · next yesRow gotYes =>
    split at done
    · exact absurd done throw_ne_ok
    · next noRow gotNo =>
      simp only [bind_eq_ok, pure_eq_ok, Prod.mk.injEq] at done
      obtain ⟨h₁, sellYes, h₂, creditYes, h₃, sellNo, h₄, creditNo, gains, moved, rfl⟩ := done
      exact ⟨yesRow, noRow, h₁, h₂, h₃, _, _, gotYes, gotNo, rfl, rfl, sellYes,
        (Holdings.addBalanceTo_ok creditYes).2, sellNo, (Holdings.addBalanceTo_ok creditNo).2,
        gains.symm, moved.symm⟩

inductive SettleRun (trade : TradeResult) (market : MarketState) (h : Holdings) :
    RealizedPnl → MarketState → Holdings → Prop
  | mint {pnl : RealizedPnl} {market' : MarketState} {h' : Holdings}
      (scenario : determineScenario trade.buyBookType trade.sellBookType = .mint)
      (ran : clearMint trade market h = .ok (pnl, market', h')) :
      SettleRun trade market h pnl market' h'
  | transferYes {gain : Int} {missing : String} {market' : MarketState} {h' : Holdings}
      (scenario : determineScenario trade.buyBookType trade.sellBookType = .transferYes)
      (ran : clearTransfer .yes trade.buyUserId trade.sellUserId trade.price missing trade market h =
        .ok (gain, market', h')) :
      SettleRun trade market h (none, some gain) market' h'
  | transferNo {gain : Int} {missing : String} {market' : MarketState} {h' : Holdings}
      (scenario : determineScenario trade.buyBookType trade.sellBookType = .transferNo)
      (ran : clearTransfer .no trade.sellUserId trade.buyUserId (100 - trade.price) missing trade
        market h = .ok (gain, market', h')) :
      SettleRun trade market h (some gain, none) market' h'
  | burn {pnl : RealizedPnl} {market' : MarketState} {h' : Holdings}
      (scenario : determineScenario trade.buyBookType trade.sellBookType = .burn)
      (ran : clearBurn trade market h = .ok (pnl, market', h')) :
      SettleRun trade market h pnl market' h'

theorem settleTrade_ok {pnl : RealizedPnl}
    (done : settleTrade trade market h = .ok (pnl, market', h')) :
    SettleRun trade market h pnl market' h' := by
  unfold settleTrade at done
  split at done
  · next scenario => exact .mint scenario done
  · next scenario =>
    simp only [clearTransferYes, bind_eq_ok, pure_eq_ok, Prod.mk.injEq] at done
    obtain ⟨⟨gain, m, g⟩, ran, rfl, rfl, rfl⟩ := done
    exact .transferYes scenario ran
  · next scenario =>
    simp only [clearTransferNo, bind_eq_ok, pure_eq_ok, Prod.mk.injEq] at done
    obtain ⟨⟨gain, m, g⟩, ran, rfl, rfl, rfl⟩ := done
    exact .transferNo scenario ran
  · next scenario => exact .burn scenario done

def TradeScenario.types : TradeScenario → BookType × BookType
  | .mint => (.nativeBuy, .syntheticSell)
  | .transferYes => (.nativeBuy, .nativeSell)
  | .transferNo => (.syntheticBuy, .syntheticSell)
  | .burn => (.syntheticBuy, .nativeSell)

private theorem determineScenario_types {b s : BookType} (buys : b.direction = .buy)
    (sells : s.direction = .sell) : (b, s) = (determineScenario b s).types := by
  cases b <;> cases s <;>
    first | rfl | exact absurd buys (by decide) | exact absurd sells (by decide)

theorem TradeResult.types_of_scenario {scenario : TradeScenario}
    (here : determineScenario trade.buyBookType trade.sellBookType = scenario)
    (buys : trade.buyBookType.direction = .buy) (sells : trade.sellBookType.direction = .sell) :
    trade.buyBookType = scenario.types.1 ∧ trade.sellBookType = scenario.types.2 := by
  have types := determineScenario_types buys sells
  rw [here] at types
  exact ⟨congrArg Prod.fst types, congrArg Prod.snd types⟩

def Holdings.netting? (h : Holdings) (userId : UserId) (marketId : MarketId) :
    Option PositionRow :=
  if (h.accounts.get? userId).map AccountRow.autoNettingEnabled = some false ∨
      userId = AMM_USER_ID then none
  else (h.positions.get? (userId, marketId)).filter (fun r => 0 < r.nettable)

def PositionRow.netted (r : PositionRow) (qty yesCostRel noCostRel : Int) : PositionRow where
  yes := { r.yes with volume := r.yes.volume - qty, costSum := r.yes.costSum - yesCostRel }
  no := { r.no with volume := r.no.volume - qty, costSum := r.no.costSum - noCostRel }

theorem executeNettingIfNeeded_ok {userId : UserId} {marketId : MarketId} {qty : Int}
    (done : executeNettingIfNeeded userId marketId market h = .ok (qty, market', h')) :
    (h.netting? userId marketId = none ∧ qty = 0 ∧ market' = market ∧ h' = h) ∨
    ∃ row h₁ yesCostRel noCostRel,
      h.netting? userId marketId = some row ∧
      h.positions.get? (userId, marketId) = some row ∧
      qty = row.nettable ∧ 0 < qty ∧
      yesCostRel = calcReleasedCost row.yes.costSum row.yes.volume qty ∧
      noCostRel = calcReleasedCost row.no.costSum row.no.volume qty ∧
      h.updatePosition userId marketId (fun r => r.netted qty yesCostRel noCostRel) = .ok h₁ ∧
      h₁.addBalance userId (qty * 100) = .ok h' ∧
      market' = { market with
        reserveBalance := market.reserveBalance - qty * 100
        totalYesShares := market.totalYesShares - qty
        totalNoShares := market.totalNoShares - qty
        pnlPool := market.pnlPool - (qty * 100 - (yesCostRel + noCostRel)) } := by
  unfold executeNettingIfNeeded at done
  split at done
  · next off =>
    simp only [pure_eq_ok, Prod.mk.injEq] at done
    obtain ⟨rfl, rfl, rfl⟩ := done
    exact Or.inl ⟨by simp [Holdings.netting?, off], rfl, rfl, rfl⟩
  · next on =>
    unfold doNetting at done
    split at done
    · next amm =>
      simp only [pure_eq_ok, Prod.mk.injEq] at done
      obtain ⟨rfl, rfl, rfl⟩ := done
      exact Or.inl ⟨by simp [Holdings.netting?, amm], rfl, rfl, rfl⟩
    · next user =>
      have lookup : h.netting? userId marketId =
          (h.positions.get? (userId, marketId)).filter (fun r => 0 < r.nettable) :=
        if_neg (not_or.mpr ⟨on, user⟩)
      split at done
      · next absent =>
        simp only [pure_eq_ok, Prod.mk.injEq] at done
        obtain ⟨rfl, rfl, rfl⟩ := done
        exact Or.inl ⟨by simp [lookup, absent], rfl, rfl, rfl⟩
      · next row got =>
        simp only at done
        split at done
        · next idle =>
          simp only [pure_eq_ok, Prod.mk.injEq] at done
          obtain ⟨rfl, rfl, rfl⟩ := done
          exact Or.inl ⟨by simp [lookup, got, Option.filter, not_lt.mpr idle], rfl, rfl, rfl⟩
        · next busy =>
          have positive := not_le.mp busy
          simp only [bind_eq_ok, pure_eq_ok, Prod.mk.injEq] at done
          obtain ⟨h₁, net, h₂, credit, rfl, moved, rfl⟩ := done
          exact Or.inr ⟨row, h₁, _, _, by simp [lookup, got, Option.filter, positive], got, rfl,
            positive, rfl, rfl, net, credit, moved.symm⟩

end PredictionMarket
