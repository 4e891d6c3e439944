/- PredictionMarket/Clearing/Scenarios
   digest: Fees, the four clearing scenarios, auto-netting and the market invariant check. -/

import PredictionMarket.Store.Rows
import PredictionMarket.Library.Result

set_option autoImplicit false
set_option relaxedAutoImplicit false

namespace PredictionMarket

open Library

/-- The trade value used as fee base. -/
def getFeeTradeValue (bookType : BookType) (tradePrice quantity buyOriginalPrice : Int) : Int :=
  match bookType with
  | .nativeBuy | .nativeSell => tradePrice * quantity
  | .syntheticSell => buyOriginalPrice * quantity
  | .syntheticBuy => (100 - tradePrice) * quantity

def calcFee (tradeValue feeBps : Int) : Int := (tradeValue * feeBps + 9999).fdiv 10000

def TAKER_FEE_BPS : Int := 20

def calcMaxFee (tradeValue : Int) : Int := (tradeValue * TAKER_FEE_BPS + 9999).fdiv 10000

/-- Proportional cost release. Full close avoids dust. -/
def calcReleasedCost (costSum volume qty : Int) : Int :=
  if qty ≥ volume then costSum else (costSum * qty).fdiv volume

abbrev RealizedPnl := Option Int × Option Int

/-- MINT: both parties pay cash, one for YES and one for NO shares. -/
def clearMint (trade : TradeResult) (market : MarketState) (h : Holdings) :
    Except Err (RealizedPnl × MarketState × Holdings) := do
  let buyerCost := trade.price * trade.quantity
  let sellerCost := (100 - trade.price) * trade.quantity
  let h ← h.unfreezeDebit trade.buyUserId buyerCost 0
  let h ← h.addVolume .yes trade.buyUserId trade.marketId trade.quantity buyerCost
  let h ← h.unfreezeDebit trade.sellUserId sellerCost 0
  let h ← h.addVolume .no trade.sellUserId trade.marketId trade.quantity sellerCost
  return ((none, none),
    { market with
      reserveBalance := market.reserveBalance + trade.quantity * 100
      totalYesShares := market.totalYesShares + trade.quantity
      totalNoShares := market.totalNoShares + trade.quantity }, h)

/-- Shares of one kind change hands: `payer` pays frozen cash for them and
`holder` gives up its pending shares for the proceeds. -/
def clearTransfer (side : OriginalSide) (payer holder : UserId) (unitPrice : Int)
    (missing : String) (trade : TradeResult) (market : MarketState) (h : Holdings) :
    Except Err (Int × MarketState × Holdings) := do
  let cost := unitPrice * trade.quantity
  let h ← h.unfreezeDebit payer cost 0
  let h ← h.addVolume side payer trade.marketId trade.quantity cost
  match h.positions.get? (holder, trade.marketId) with
  | none => throw (.runtime missing)
  | some row =>
    let costReleased :=
      calcReleasedCost (row.holding side).costSum (row.holding side).volume trade.quantity
    let proceeds := unitPrice * trade.quantity
    let h ← h.reduceVolume side holder trade.marketId trade.quantity costReleased
    let h ← h.addBalance holder proceeds
    return (proceeds - costReleased,
      { market with pnlPool := market.pnlPool - (proceeds - costReleased) }, h)

def clearTransferYes (trade : TradeResult) (market : MarketState) (h : Holdings) :
    Except Err (RealizedPnl × MarketState × Holdings) := do
  let (pnl, market, h) ← clearTransfer .yes trade.buyUserId trade.sellUserId trade.price
    s!"Seller position not found: {trade.sellUserId}" trade market h
  return ((none, some pnl), market, h)

def clearTransferNo (trade : TradeResult) (market : MarketState) (h : Holdings) :
    Except Err (RealizedPnl × MarketState × Holdings) := do
  let (pnl, market, h) ← clearTransfer .no trade.sellUserId trade.buyUserId (100 - trade.price)
    s!"Buyer NO position not found: {trade.buyUserId}" trade market h
  return ((some pnl, none), market, h)

def Holdings.addBalanceTo (h : Holdings) (userId : UserId) (amount : Int) (missing : String) :
    Except Err Holdings :=
  match h.accounts.get? userId with
  | none => throw (.runtime missing)
  | some _ => h.addBalance userId amount

def clearBurn (trade : TradeResult) (market : MarketState) (h : Holdings) :
    Except Err (RealizedPnl × MarketState × Holdings) := do
  match h.positions.get? (trade.sellUserId, trade.marketId) with
  | none => throw (.runtime s!"Sell YES position not found: {trade.sellUserId}")
  | some yesRow =>
    let yesCostRel := calcReleasedCost yesRow.yes.costSum yesRow.yes.volume trade.quantity
    let yesProceeds := trade.price * trade.quantity
    match h.positions.get? (trade.buyUserId, trade.marketId) with
    | none => throw (.runtime s!"Sell NO position not found: {trade.buyUserId}")
    | some noRow =>
      let noCostRel := calcReleasedCost noRow.no.costSum noRow.no.volume trade.quantity
      let noProceeds := (100 - trade.price) * trade.quantity
      let h ← h.reduceVolume .yes trade.sellUserId trade.marketId trade.quantity yesCostRel
      let h ← h.addBalanceTo trade.sellUserId yesProceeds
        s!"Account not found for YES seller: {trade.sellUserId}"
      let h ← h.reduceVolume .no trade.buyUserId trade.marketId trade.quantity noCostRel
      let h ← h.addBalanceTo trade.buyUserId noProceeds
        s!"Account not found for NO seller: {trade.buyUserId}"
      return ((some (noProceeds - noCostRel), some (yesProceeds - yesCostRel)),
        { market with
          reserveBalance := market.reserveBalance - 100 * trade.quantity
          totalYesShares := market.totalYesShares - trade.quantity
          totalNoShares := market.totalNoShares - trade.quantity
          pnlPool := market.pnlPool - (yesProceeds - yesCostRel) - (noProceeds - noCostRel) }, h)

/-- Clearing dispatcher. The source passes the fee rate too, and ignores it. -/
def settleTrade (trade : TradeResult) (market : MarketState) (h : Holdings) :
    Except Err (RealizedPnl × MarketState × Holdings) :=
  match determineScenario trade.buyBookType trade.sellBookType with
  | .mint => clearMint trade market h
  | .transferYes => clearTransferYes trade market h
  | .transferNo => clearTransferNo trade market h
  | .burn => clearBurn trade market h

def PositionRow.nettable (r : PositionRow) : Int :=
  min (r.yes.volume - r.yes.pendingSell) (r.no.volume - r.no.pendingSell)

def doNetting (userId : UserId) (marketId : MarketId) (market : MarketState) (h : Holdings) :
    Except Err (Int × MarketState × Holdings) := do
  if userId = AMM_USER_ID then return (0, market, h)
  match h.positions.get? (userId, marketId) with
  | none => return (0, market, h)
  | some row =>
    let nettable := row.nettable
    if nettable ≤ 0 then return (0, market, h)
    let yesCostRel := calcReleasedCost row.yes.costSum row.yes.volume nettable
    let noCostRel := calcReleasedCost row.no.costSum row.no.volume nettable
    let totalCostReleased := yesCostRel + noCostRel
    let refund := nettable * 100
    let h ← h.updatePosition userId marketId (fun r =>
      { yes := { r.yes with
          volume := r.yes.volume - nettable
          costSum := r.yes.costSum - yesCostRel }
        no := { r.no with
          volume := r.no.volume - nettable
          costSum := r.no.costSum - noCostRel } })
    let h ← h.addBalance userId refund
    return (nettable,
      { market with
        reserveBalance := market.reserveBalance - refund
        totalYesShares := market.totalYesShares - nettable
        totalNoShares := market.totalNoShares - nettable
        pnlPool := market.pnlPool - (refund - totalCostReleased) }, h)

/-- Auto-netting unless the account has it switched off; a missing account does
not switch it off. -/
def executeNettingIfNeeded (userId : UserId) (marketId : MarketId) (market : MarketState)
    (h : Holdings) : Except Err (Int × MarketState × Holdings) :=
  if (h.accounts.get? userId).map AccountRow.autoNettingEnabled = some false then
    pure (0, market, h)
  else doNetting userId marketId market h

/-- `_COST_SUM_SQL`: both cost columns over all positions of a market. -/
def Holdings.totalCost (h : Holdings) (marketId : MarketId) : Int :=
  h.positions.sum (fun k r => if k.2 = marketId then r.total Holding.costSum else 0)

/-- INV-1, INV-2 and INV-3 of one market, in the order of the assertions. -/
def verifyInvariantsAfterTrade (market : MarketState) (h : Holdings) : Except Err Unit := do
  let yes := market.totalYesShares
  let no := market.totalNoShares
  let reserve := market.reserveBalance
  let pnl := market.pnlPool
  if yes ≠ no then throw (.assertion (.inv1 yes no))
  if reserve ≠ yes * 100 then throw (.assertion (.inv2 reserve yes))
  let totalCost := h.totalCost market.id
  if reserve + pnl ≠ totalCost then throw (.assertion (.inv3 reserve pnl totalCost))

end PredictionMarket
