/- PredictionMarket/Engine/FillFees
   digest: What the fills of a placement collect and leak, and whose rows they touch. -/

import PredictionMarket.Clearing.CashConservation
import PredictionMarket.Engine.PlaceFrames

set_option autoImplicit false
set_option relaxedAutoImplicit false

namespace PredictionMarket

open Library

def SYSTEM_RESERVE_USER_ID : UserId := "SYSTEM_RESERVE"

/-- The accounts that are nobody's. -/
def isHouse (user : UserId) : Bool :=
  user = SYSTEM_RESERVE_USER_ID || user = PLATFORM_FEE_USER_ID

private theorem ne_house {user : UserId} (customer : isHouse user = false) :
    user ≠ SYSTEM_RESERVE_USER_ID ∧ user ≠ PLATFORM_FEE_USER_ID := by
  simpa [isHouse] using customer

namespace TradeResult

def takerFee (trade : TradeResult) (feeBps : Int) : Int := calcFee trade.feeBase feeBps

/-- The cash that the fee step of a fill makes: a taker who pays cash is refunded
against the rate of the freeze and charged at that of the market. -/
def leak (trade : TradeResult) (feeBps : Int) : Int :=
  if trade.takerBookType.paysCash then calcMaxFee trade.feeBase - trade.takerFee feeBps else 0

end TradeResult

def TradeRow.leak (r : TradeRow) : Int :=
  if r.trade.takerBookType.paysCash then calcMaxFee r.trade.feeBase - r.takerFee else 0

namespace Holdings

variable {h h' h'' : Holdings} {users : UserId → Prop} {fees fees' : Int}

/-- Statements on the rows of `users`, with `fees` collected from them. -/
structure Serves (users : UserId → Prop) (h : Holdings) (fees : Int) (h' : Holdings) : Prop where
  accounts : ∀ user, h'.HasAccount user ↔ h.HasAccount user
  reserve : h'.accounts.get? SYSTEM_RESERVE_USER_ID = h.accounts.get? SYSTEM_RESERVE_USER_ID
  platform : h'.accounts.get? PLATFORM_FEE_USER_ID =
    (h.accounts.get? PLATFORM_FEE_USER_ID).map (fun a =>
      { a with availableBalance := a.availableBalance + fees })
  holders : ∀ user m, (h'.positions.get? (user, m)).isSome = true →
    (h.positions.get? (user, m)).isSome = true ∨ users user

namespace Serves

theorem refl (users : UserId → Prop) (h : Holdings) : Serves users h 0 h := by
  refine ⟨fun _ => Iff.rfl, rfl, ?_, fun _ _ there => Or.inl there⟩
  simp

theorem trans (first : Serves users h fees h') (rest : Serves users h' fees' h'') :
    Serves users h (fees + fees') h'' := by
  refine ⟨fun user => (rest.accounts user).trans (first.accounts user),
    rest.reserve.trans first.reserve, ?_, fun user m there => ?_⟩
  · rw [rest.platform, first.platform, Option.map_map]
    congr 1
    funext a
    simp [add_assoc]
  · rcases rest.holders user m there with before | served
    · exact first.holders user m before
    · exact Or.inr served

theorem congr (serves : Serves users h fees h') (same : fees = fees') :
    Serves users h fees' h' := same ▸ serves

theorem mono {users' : UserId → Prop} (serves : Serves users h fees h')
    (into : ∀ user, users user → users' user) : Serves users' h fees h' :=
  ⟨serves.accounts, serves.reserve, serves.platform, fun user m there =>
    (serves.holders user m there).imp_right (into user)⟩

theorem updateAccount {userId : UserId} {f : AccountRow → AccountRow}
    (customer : isHouse userId = false) (done : h.updateAccount userId f = .ok h') :
    Serves users h 0 h' := by
  obtain ⟨reserve, platform⟩ := ne_house customer
  refine ⟨hasAccount_updateAccount done, ?_, ?_, fun user m there => ?_⟩
  · rw [get?_updateAccount done, if_neg reserve.symm]
  · rw [get?_updateAccount done, if_neg platform.symm]
    simp
  · rw [(updateAccount_ok done).1] at there
    exact Or.inl there

private theorem creditPlatform (done : h.addBalance PLATFORM_FEE_USER_ID fees = .ok h') :
    Serves users h fees h' := by
  refine ⟨hasAccount_updateAccount done, ?_, ?_, fun user m there => ?_⟩
  · rw [get?_updateAccount done, if_neg (by decide)]
  · rw [get?_updateAccount done, if_pos rfl]
  · rw [addBalance_positions done] at there
    exact Or.inl there

private theorem of_accounts (same : h'.accounts = h.accounts)
    (holders : ∀ user m, (h'.positions.get? (user, m)).isSome = true →
      (h.positions.get? (user, m)).isSome = true ∨ users user) : Serves users h 0 h' := by
  refine ⟨fun user => ?_, ?_, ?_, holders⟩
  · rw [HasAccount, same]
    rfl
  · rw [same]
  · rw [same]
    simp

theorem updatePosition {userId : UserId} {m : MarketId} {f : PositionRow → PositionRow}
    (done : h.updatePosition userId m f = .ok h') : Serves users h 0 h' := by
  obtain ⟨same, updated⟩ := updatePosition_ok done
  refine of_accounts same (fun user i there => Or.inl ?_)
  rw [Table.get?_update? updated] at there
  split at there
  · next key =>
    rw [key]
    simpa using there
  · exact there

theorem upsertPosition {userId : UserId} {m : MarketId} {r : PositionRow}
    {f : PositionRow → PositionRow} (served : users userId) (same : h'.accounts = h.accounts)
    (upserted : h.positions.upsert? (userId, m) r f = some h'.positions) : Serves users h 0 h' := by
  refine of_accounts same (fun user i there => ?_)
  rw [Table.get?_upsert? upserted] at there
  split at there
  · next key =>
    rw [(Prod.mk.inj key).1]
    exact Or.inr served
  · exact Or.inl there

end Serves

private theorem serves_respected (m : MarketId)
    (customers : ∀ user, users user → isHouse user = false) :
    Respected users (fun _ => True) m (fun h h' => Serves users h 0 h') where
  refl := .refl users
  trans first rest := (first.trans rest).congr (add_zero 0)
  debit served _ done := .updateAccount (customers _ served) done
  credit served _ done := .updateAccount (customers _ served) done
  buy served done := .upsertPosition served (addVolume_ok done).1 (addVolume_ok done).2
  update _ done := .updatePosition done

end Holdings

section Fills

variable {users : UserId → Prop} {order : Order} {trade : TradeResult}
  {market market' : MarketState} {db db' : Db}

/-- A fill between customers: who has what rows, what it collects and what it leaks. -/
structure Filled (users : UserId → Prop) (fees leaks : Int) (market : MarketState) (h : Holdings)
    (market' : MarketState) (h' : Holdings) : Prop where
  serves : h.Serves users fees h'
  cash : cash (market', h') = cash (market, h) + leaks
  rate : market'.takerFeeBps = market.takerFeeBps

private theorem Filled.trans {fees fees' leaks leaks' : Int} {market'' : MarketState}
    {h h' h'' : Holdings} (first : Filled users fees leaks market h market' h')
    (rest : Filled users fees' leaks' market' h' market'' h'') :
    Filled users (fees + fees') (leaks + leaks') market h market'' h'' := by
  refine ⟨first.serves.trans rest.serves, ?_, rest.rate.trans first.rate⟩
  rw [rest.cash, first.cash, add_assoc]

private theorem collectFee_serves {feeBps fee : Int} {h h' : Holdings}
    (taker : isHouse trade.takerUserId = false)
    (done : collectFee trade feeBps h = .ok (fee, h')) :
    h.Serves users (trade.takerFee feeBps) h' := by
  obtain ⟨rfl, run⟩ := collectFee_ok done
  cases run with
  | fromFrozen h₁ _ debit credit =>
    exact ((Holdings.Serves.updateAccount taker debit).trans (.creditPlatform credit)).congr
      (zero_add _)
  | fromProceeds h₁ _ debit credit =>
    exact ((Holdings.Serves.updateAccount taker debit).trans (.creditPlatform credit)).congr
      (zero_add _)

private theorem FillRun.filled (run : FillRun order trade market db market' db')
    (here : trade.marketId = order.marketId)
    (customers : ∀ user, users user → isHouse user = false ∧ db.holdings.HasAccount user)
    (platform : db.holdings.HasAccount PLATFORM_FEE_USER_ID)
    (buyer : users trade.buyUserId) (seller : users trade.sellUserId) :
    Filled users (trade.takerFee market.takerFeeBps) (trade.leak market.takerFeeBps) market
      db.holdings market' db'.holdings := by
  obtain ⟨pnl, market₁, h₁, fee, h₂, nq, settled, collected, netted, check⟩ := run.settled
  obtain ⟨buys, sells, price, quantity, _⟩ := check
  have taker : users trade.takerUserId := by
    unfold TradeResult.takerUserId
    split
    · exact buyer
    · exact seller
  have respected := Holdings.serves_respected order.marketId (fun user served =>
    (customers user served).1)
  have rate := (settleTrade_draws settled buys sells).2
  have settlement : db.holdings.Serves users 0 h₁ :=
    respected.settleTrade buyer seller here price quantity settled
  have fees : h₁.Serves users (trade.takerFee market.takerFeeBps) h₂ := by
    rw [rate] at collected
    exact collectFee_serves (customers _ taker).1 collected
  have netting : h₂.Serves users 0 db'.holdings := respected.executeNetting buyer netted
  refine ⟨((settlement.trans fees).trans netting).congr (by rw [zero_add, add_zero]), ?_,
    (executeNetting_sameFrozen netted).2.trans rate⟩
  have first := (settleTrade_cash (customers _ buyer).2 (customers _ seller).2 settled).1
  have middle := collectFee_totalBalance collected
    ((settlement.accounts _).mpr (customers _ taker).2) ((settlement.accounts _).mpr platform)
  have last := (executeNetting_cash netted).1.mpr
    (Or.inl ((fees.accounts _).mpr ((settlement.accounts _).mpr (customers _ buyer).2)))
  rw [rate] at middle
  unfold cash at *
  unfold TradeResult.leak TradeResult.takerFee
  simp only at first last ⊢
  omega

private theorem FillStep.still_resting {s s' : FillState} {id : OrderId} {r : Resting}
    (step : FillStep order s id r s') {j : OrderId} {x : Resting} (rests : s'.book j = some x) :
    ∃ y, s.book j = some y ∧ y.userId = x.userId := by
  rw [step.book] at rests
  unfold RestingOrders.fill at rests
  by_cases same : j = id
  · subst same
    rw [Function.update_self, Option.bind_eq_some_iff] at rests
    obtain ⟨y, got, left⟩ := rests
    split at left
    · cases left
    · obtain rfl := Option.some.inj left
      exact ⟨y, got, rfl⟩
  · rw [Function.update_of_ne same] at rests
    exact ⟨x, rests, rfl⟩

theorem fills_filled {s s' : FillState} {ts : List TradeResult}
    (run : Run (fillSteps order) s ts s')
    (customers : ∀ user, users user → isHouse user = false ∧ s.db.holdings.HasAccount user)
    (platform : s.db.holdings.HasAccount PLATFORM_FEE_USER_ID) (own : users order.userId)
    (makers : ∀ id r, s.book id = some r → users r.userId) :
    Filled users ((ts.map (fun t => t.takerFee s.market.takerFeeBps)).sum)
      ((ts.map (fun t => t.leak s.market.takerFeeBps)).sum) s.market s.db.holdings s'.market
      s'.db.holdings := by
  induction run with
  | nil s => exact ⟨.refl users _, by simp, rfl⟩
  | @cons s t u a as head tail ih =>
    obtain ⟨id, r, step, rfl⟩ := head
    obtain ⟨buyer, seller⟩ : users (tradeOf order id r (s.take r)).buyUserId ∧
        users (tradeOf order id r (s.take r)).sellUserId :=
      tradeOf_users own (makers id r step.here)
    have first := step.run.filled (tradeOf_marketId _ _ _ _) customers platform buyer seller
    have later := ih
      (fun user served => ⟨(customers user served).1,
        (first.serves.accounts user).mpr (customers user served).2⟩)
      ((first.serves.accounts _).mpr platform)
      (fun j x rests => by
        obtain ⟨y, before, same⟩ := step.still_resting rests
        exact same ▸ makers j y before)
    rw [first.rate] at later
    exact first.trans later

end Fills

section Trades

variable {order order' : Order} {trade : TradeResult} {ts : List TradeResult}
  {market market' : MarketState} {db db' : Db} {n n' : Int}

private theorem clearFill_row (done : clearFill order trade market db = .ok (n, market', db')) :
    ∃ row : TradeRow, db'.trades = db.trades ++ [row] ∧ row.trade = trade ∧
      row.makerFee = 0 ∧ row.takerFee = trade.takerFee market.takerFeeBps ∧
      market'.takerFeeBps = market.takerFeeBps := by
  simp only [clearFill, bind_eq_ok, pure_eq_ok, Prod.mk.injEq] at done
  obtain ⟨⟨⟨buyPnl, sellPnl⟩, market₁, h₁⟩, settled, db₁, taker, db₂, maker, ⟨fee, h₂⟩, charged, db₃,
    written, ⟨nq', market₂, h₃⟩, netted, rfl, rfl, rfl⟩ := done
  obtain ⟨orders₁, _, rfl⟩ := Db.updateStatus_ok taker
  obtain ⟨orders₂, _, rfl⟩ := updateMakerStatus_ok maker
  obtain ⟨⟨buys, sells, _⟩, rfl⟩ := Db.writeTrade_ok written
  have rate := (settleTrade_draws settled buys sells).2
  refine ⟨_, rfl, rfl, rfl, ?_, (executeNetting_sameFrozen netted).2.trans rate⟩
  rw [(collectFee_ok charged).1, ← rate]
  rfl

theorem clearFills_rows (done : clearFills order ts n market db = .ok (order', n', market', db')) :
    ∃ rows : List TradeRow, db'.trades = db.trades ++ rows ∧ rows.map TradeRow.trade = ts ∧
      ∀ r ∈ rows, r.makerFee = 0 ∧ r.takerFee = r.trade.takerFee market.takerFeeBps := by
  induction ts generalizing order n market db with
  | nil =>
    simp only [clearFills, pure_eq_ok, Prod.mk.injEq] at done
    exact ⟨[], by simp [done.2.2.2], rfl, by simp⟩
  | cons t ts ih =>
    obtain ⟨nq, market₁, db₁, first, rest⟩ := clearFills_cons_ok done
    obtain ⟨row, written, rfl, free, fee, rate⟩ := clearFill_row first
    obtain ⟨rows, later, same, fees⟩ := ih rest
    refine ⟨row :: rows, ?_, by rw [List.map_cons, same], ?_⟩
    · rw [later, written, List.append_assoc, List.singleton_append]
    · rw [rate] at fees
      exact List.forall_mem_cons.mpr ⟨⟨free, fee⟩, fees⟩

theorem fills_market {s s' : FillState} (run : Run (fillSteps order) s ts s') :
    ∀ t ∈ ts, t.marketId = order.marketId := by
  induction run with
  | nil s => simp
  | cons head _ ih =>
    obtain ⟨id, r, _, rfl⟩ := head
    exact List.forall_mem_cons.mpr ⟨tradeOf_marketId _ _ _ _, ih⟩

private theorem TradeRow.leak_eq {r : TradeRow} {feeBps : Int}
    (fee : r.takerFee = r.trade.takerFee feeBps) : r.leak = r.trade.leak feeBps := by
  unfold TradeRow.leak TradeResult.leak
  rw [fee]

theorem rows_sums {rows : List TradeRow} {feeBps : Int} (same : rows.map TradeRow.trade = ts)
    (fees : ∀ r ∈ rows, r.takerFee = r.trade.takerFee feeBps) :
    (ts.map (fun t => t.takerFee feeBps)).sum = (rows.map TradeRow.takerFee).sum ∧
      (ts.map (fun t => t.leak feeBps)).sum = (rows.map TradeRow.leak).sum := by
  rw [← same, List.map_map, List.map_map]
  constructor
  · congr 1
    apply List.map_congr_left
    intro r member
    exact (fees r member).symm
  · congr 1
    apply List.map_congr_left
    intro r member
    exact (TradeRow.leak_eq (fees r member)).symm

end Trades

end PredictionMarket
