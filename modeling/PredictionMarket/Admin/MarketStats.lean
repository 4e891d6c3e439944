/- PredictionMarket/Admin/MarketStats
   digest: The reports on the markets, against the fees collected and the orders filled. -/

import PredictionMarket.Admin.GlobalInvariants
import PredictionMarket.Engine.TradeIntegrity

set_option autoImplicit false
set_option relaxedAutoImplicit false

namespace PredictionMarket

open Library

namespace AdminService

structure ReportedTrade where
  marketId : MarketId
  buyUserId : UserId
  sellUserId : UserId
  quantity : Int
  makerFee : Int
  takerFee : Int

def ReportedTrade.ofFill (r : TradeRow) : ReportedTrade where
  marketId := r.trade.marketId
  buyUserId := r.trade.buyUserId
  sellUserId := r.trade.sellUserId
  quantity := r.trade.quantity
  makerFee := r.makerFee
  takerFee := r.takerFee

def ReportedTrade.ofAmm (r : AmmTradeRow) : ReportedTrade where
  marketId := r.marketId
  buyUserId := r.buyUserId
  sellUserId := r.sellUserId
  quantity := r.quantity
  makerFee := r.makerFee
  takerFee := r.takerFee

def reportedTrades (s : Session) : List ReportedTrade :=
  s.world.db.trades.map .ofFill ++ s.ammTrades.map .ofAmm

/-- What `get_market_stats` reports. -/
structure MarketStats where
  marketId : MarketId
  status : MarketStatus
  totalTrades : Nat
  totalVolume : Int
  totalFees : Int
  uniqueTraders : Nat
  deriving DecidableEq

/-- `_STATS_SQL`; whoever bought and sold is counted twice. -/
def marketStats (marketId : MarketId) (row : MarketRow) (s : Session) : MarketStats :=
  let trades := (reportedTrades s).filter (fun r => r.marketId = marketId)
  { marketId := marketId
    status := row.status
    totalTrades := trades.length
    totalVolume := (trades.map ReportedTrade.quantity).sum
    totalFees := (trades.map (fun r => r.takerFee + r.makerFee)).sum
    uniqueTraders := (trades.map ReportedTrade.buyUserId).dedup.length +
      (trades.map ReportedTrade.sellUserId).dedup.length }

def getMarketStats (marketId : MarketId) (s : Session) : Except Err MarketStats :=
  match s.world.db.markets.get? marketId with
  | none => .error (.app ⟨3001, "Market not found", 404⟩)
  | some row => .ok (marketStats marketId row s)

private theorem getMarketStats_ok {marketId : MarketId} {s : Session} {stats : MarketStats}
    (done : getMarketStats marketId s = .ok stats) :
    ∃ row, s.world.db.markets.get? marketId = some row ∧ stats = marketStats marketId row s := by
  unfold getMarketStats at done
  split at done
  · cases done
  · next row got => exact ⟨row, got, (Except.ok.inj done).symm⟩

def reportedFees (s : Session) : Int :=
  s.world.db.markets.sum (fun marketId row => (marketStats marketId row s).totalFees)

private theorem reportedFees_eq (s : Session) : reportedFees s = ((reportedTrades s).map (fun r =>
    (s.world.db.markets.get? r.marketId).elim 0 (fun _ => r.takerFee + r.makerFee))).sum :=
  Table.sum_groups s.world.db.markets (reportedTrades s) ReportedTrade.marketId
    (fun r _ => r.takerFee + r.makerFee)

end AdminService

private theorem exchangeStep_ammTrades {e e' : Exchange} {op : ExchangeOp}
    (step : exchangeStep e op e') :
    ∃ calls : List AmmCall,
      e'.session.ammTrades = e.session.ammTrades ++ calls.map AmmCall.tradeRow := by
  obtain rfl := step
  cases op with
  | request op =>
    obtain same | ⟨call, _, grown⟩ := e.session.ammTrades_next op
    · exact ⟨[], same.trans (List.append_nil _).symm⟩
    · exact ⟨[call], grown⟩
  | _ => exact ⟨[], by simp [Exchange.next, Exchange.session, Session.ammTrades]⟩

private theorem exchangeRun_ammTrades {e e' : Exchange} {ops : List ExchangeOp}
    (run : Run exchangeStep e ops e') : ∃ calls : List AmmCall,
      e'.session.ammTrades = e.session.ammTrades ++ calls.map AmmCall.tradeRow := by
  refine run.preserves (P := fun e' => ∃ calls : List AmmCall,
    e'.session.ammTrades = e.session.ammTrades ++ calls.map AmmCall.tradeRow) ?_ ⟨[], by simp⟩
  rintro e₁ op e₂ step ⟨calls, before⟩
  obtain ⟨more, after⟩ := exchangeStep_ammTrades step
  exact ⟨calls ++ more, by rw [after, before, List.append_assoc, List.map_append]⟩

private theorem AmmCall.tradeRow_free (call : AmmCall) :
    call.tradeRow.makerFee = 0 ∧ call.tradeRow.takerFee = 0 := by
  unfold tradeRow
  cases call.reference <;> exact ⟨rfl, rfl⟩

/-- What the account of the platform took in is what the reports on the markets say
that trading cost. -/
theorem exchange_fees {e e' : Exchange} {ops : List ExchangeOp} (opening : e.Opening)
    (run : Run (Guarded (fun _ op => op.ByCustomer) exchangeStep) e ops e') :
    e'.db.available PLATFORM_FEE_USER_ID - e.db.available PLATFORM_FEE_USER_ID =
      AdminService.reportedFees e'.session - AdminService.reportedFees e.session := by
  obtain ⟨rows, since⟩ := opening.run run
  obtain ⟨calls, added⟩ := exchangeRun_ammTrades run.ofGuarded
  have known : ∀ m (x : Int), (e'.db.markets.get? m).elim 0 (fun _ => x) =
      (e.db.markets.get? m).elim 0 (fun _ => x) := by
    intro m x
    cases was : e.db.markets.get? m with
    | some r =>
      obtain ⟨r', got, _⟩ := since.sound.pools m r was
      rw [got]
      rfl
    | none =>
      cases got : e'.db.markets.get? m with
      | none => rfl
      | some r' =>
        obtain ⟨r, there, _⟩ := since.stay m r' got
        rw [was] at there
        cases there
  have fees : (rows.map (fun r => (e.db.markets.get? r.trade.marketId).elim 0
      (fun _ => r.takerFee + r.makerFee))).sum = (rows.map TradeRow.takerFee).sum := by
    congr 1
    apply List.map_congr_left
    intro r member
    obtain ⟨free, market, got, _⟩ := since.rates r member
    rw [got, Option.elim_some, free, add_zero]
  have credited : e'.db.available PLATFORM_FEE_USER_ID =
      e.db.available PLATFORM_FEE_USER_ID + (rows.map TradeRow.takerFee).sum := by
    obtain ⟨a, got⟩ := Option.isSome_iff_exists.mp opening.peopled.platform
    unfold Db.available
    rw [since.serves.platform, got]
    rfl
  have reported : ∀ x : Exchange, AdminService.reportedFees x.session =
      (x.db.trades.map (fun r => (x.db.markets.get? r.trade.marketId).elim 0
        (fun _ => r.takerFee + r.makerFee))).sum +
      (x.session.ammTrades.map (fun r => (x.db.markets.get? r.marketId).elim 0
        (fun _ => r.takerFee + r.makerFee))).sum := by
    intro x
    rw [AdminService.reportedFees_eq, AdminService.reportedTrades, List.map_append,
      List.sum_append, List.map_map, List.map_map]
    rfl
  have free : ((calls.map AmmCall.tradeRow).map (fun r => (e.db.markets.get? r.marketId).elim 0
      (fun _ => r.takerFee + r.makerFee))).sum = 0 := by
    apply List.sum_eq_zero
    intro fee member
    obtain ⟨r, listed, rfl⟩ := List.mem_map.mp member
    obtain ⟨call, _, rfl⟩ := List.mem_map.mp listed
    obtain ⟨maker, taker⟩ := call.tradeRow_free
    rw [maker, taker]
    cases e.db.markets.get? call.tradeRow.marketId <;> rfl
  rw [reported, reported, since.trades, added, List.map_append, List.map_append, List.sum_append,
    List.sum_append]
  simp only [known]
  rw [free]
  omega

theorem pairExchange_fees : ∃ e, Run (Guarded (fun _ op => op.ByCustomer) exchangeStep)
      pairExchange pairTrades e ∧ e.db.available PLATFORM_FEE_USER_ID =
    AdminService.reportedFees e.session := by
  obtain ⟨e, run⟩ := pairTrades_run
  have fees := exchange_fees pairExchange_opening run
  have before : pairExchange.db.available PLATFORM_FEE_USER_ID = 0 := by decide
  have unreported : AdminService.reportedFees pairExchange.session = 0 := by decide
  rw [before, unreported, sub_zero, sub_zero] at fees
  exact ⟨e, run, fees⟩

section Volume

variable {db : Db}

private theorem tradedIn_sides {rows : List TradeRow} (id : OrderId)
    (distinct : ∀ r ∈ rows, r.trade.buyOrderId ≠ r.trade.sellOrderId) :
    tradedIn (rows.map TradeRow.trade) id =
      ((rows.filter (fun r => r.trade.buyOrderId = id)).map (fun r => r.trade.quantity)).sum +
        ((rows.filter (fun r => r.trade.sellOrderId = id)).map (fun r => r.trade.quantity)).sum := by
  induction rows with
  | nil => rfl
  | cons r rows ih =>
    obtain ⟨apart, rest⟩ := List.forall_mem_cons.mp distinct
    rw [List.map_cons, tradedIn_cons, ih rest]
    unfold TradeResult.Names
    by_cases bought : r.trade.buyOrderId = id
    · have other : r.trade.sellOrderId ≠ id := fun sold => apart (bought.trans sold.symm)
      simp [bought, other, add_assoc]
    · by_cases sold : r.trade.sellOrderId = id
      · simp [bought, sold, add_left_comm]
      · simp [bought, sold]

/-- The filled quantities of the orders in a market, counted trade by trade: every
trade fills two of them. -/
private theorem Db.filled_sum (lived : db.Lived) (joined : db.TradesJoined) (m : MarketId) :
    db.orders.sum (fun _ row => if row.marketId = m then row.filledQuantity else 0) =
      2 * ((db.trades.filter (fun r => r.trade.marketId = m)).map
        (fun r => r.trade.quantity)).sum := by
  have sides : db.orders.sum (fun _ row => if row.marketId = m then row.filledQuantity else 0) =
      db.orders.sum (fun id row => ((db.trades.filter (fun r => r.trade.buyOrderId = id)).map
        (fun r => if row.marketId = m then r.trade.quantity else 0)).sum) +
      db.orders.sum (fun id row => ((db.trades.filter (fun r => r.trade.sellOrderId = id)).map
        (fun r => if row.marketId = m then r.trade.quantity else 0)).sum) := by
    unfold Table.sum
    rw [← List.sum_map_add]
    congr 1
    apply List.map_congr_left
    rintro ⟨id, row⟩ member
    have filled := (lived.rows id row (Table.mem_iff.mp member)).traded
    rw [Db.traded, tradedIn_sides id (fun r listed => (joined r listed).distinct)] at filled
    by_cases home : row.marketId = m
    · simpa [home] using filled
    · simp [home]
  have buyers : ∀ r ∈ db.trades, (db.orders.get? r.trade.buyOrderId).elim 0 (fun row =>
      if row.marketId = m then r.trade.quantity else 0) =
        if r.trade.marketId = m then r.trade.quantity else 0 := by
    intro r listed
    obtain ⟨_, buy, _, got, _, joins⟩ := joined r listed
    have home : buy.marketId = r.trade.marketId := joins.home.1
    rw [got, Option.elim_some, home]
  have sellers : ∀ r ∈ db.trades, (db.orders.get? r.trade.sellOrderId).elim 0 (fun row =>
      if row.marketId = m then r.trade.quantity else 0) =
        if r.trade.marketId = m then r.trade.quantity else 0 := by
    intro r listed
    obtain ⟨_, _, sell, _, got, joins⟩ := joined r listed
    have home : sell.marketId = r.trade.marketId := joins.home.2
    rw [got, Option.elim_some, home]
  rw [sides, Table.sum_groups db.orders db.trades (fun r => r.trade.buyOrderId)
      (fun r row => if row.marketId = m then r.trade.quantity else 0),
    Table.sum_groups db.orders db.trades (fun r => r.trade.sellOrderId)
      (fun r row => if row.marketId = m then r.trade.quantity else 0),
    List.map_congr_left buyers, List.map_congr_left sellers, List.sum_map_ite]
  rw [two_mul]
  simp

end Volume

/-- In every state of a session the volume reported for a market is half of what its
orders have been filled for, and what the privileged services have minted and burned. -/
theorem session_volume {s s' : Session} {ops : List SessionOp} (opening : s.Opening)
    (untraded : s.world.db.trades = []) (run : Run sessionStep s ops s') {m : MarketId}
    {stats : AdminService.MarketStats} (done : AdminService.getMarketStats m s' = .ok stats) :
    2 * stats.totalVolume = s'.world.db.orders.sum (fun _ row =>
      if row.marketId = m then row.filledQuantity else 0) +
        2 * ((s'.ammTrades.filter (fun r => r.marketId = m)).map AmmTradeRow.quantity).sum := by
  have lived := (session_lived run opening.accounted (opening.lived untraded)).2.1
  have joined := opening.tradesJoined untraded run
  obtain ⟨row, _, rfl⟩ := AdminService.getMarketStats_ok done
  rw [Db.filled_sum lived joined, ← mul_add]
  simp only [AdminService.marketStats, AdminService.reportedTrades, List.filter_append,
    List.map_append, List.sum_append, List.filter_map, List.map_map]
  rfl

theorem pairMarket_volume : ∃ s' stats,
    Run sessionStep pairMarket [mintTwoPairs, sellFourYes, buyOneYes] s' ∧
      AdminService.getMarketStats "m" s' = .ok stats ∧ stats.totalVolume = 3 := by
  obtain ⟨s', same⟩ : ∃ s', s' = ((pairMarket.next mintTwoPairs).next sellFourYes).next buyOneYes :=
    ⟨_, rfl⟩
  have run : Run sessionStep pairMarket [mintTwoPairs, sellFourYes, buyOneYes] s' :=
    .cons rfl (.cons rfl (.single same))
  have known : (s'.world.db.markets.get? "m").isSome = true := by
    rw [same]
    decide +kernel
  obtain ⟨row, got⟩ := Option.isSome_iff_exists.mp known
  have done : AdminService.getMarketStats "m" s' = .ok (AdminService.marketStats "m" row s') := by
    unfold AdminService.getMarketStats
    rw [got]
  have volume := session_volume pairMarket_opening rfl run done
  have filled : s'.world.db.orders.sum (fun _ row =>
      if row.marketId = "m" then row.filledQuantity else 0) = 2 := by
    rw [same]
    decide +kernel
  have minted : ((s'.ammTrades.filter (fun r => r.marketId = "m")).map
      AmmTradeRow.quantity).sum = 2 := by
    rw [same]
    decide +kernel
  exact ⟨s', _, run, done, by omega⟩

end PredictionMarket
