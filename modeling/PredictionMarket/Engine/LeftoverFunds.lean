/- PredictionMarket/Engine/LeftoverFunds
   digest: When no frozen cash outlives the orders it was frozen for. -/

import PredictionMarket.Engine.FundsRuns

set_option autoImplicit false
set_option relaxedAutoImplicit false

namespace PredictionMarket

open Library

structure World.Fresh (w : World) : Prop where
  frozen : ∀ user, w.db.holdings.frozenOf user = 0
  orders : w.db.orders.rows = []
  books : ∀ m, w.getOrCreateOrderbook m = .empty

theorem World.Fresh.accounted {w : World} (fresh : w.Fresh) (lost : Prop) : w.Accounted lost :=
  .of_empty fresh.orders fresh.books

theorem World.Fresh.spare {w : World} (fresh : w.Fresh) (user : UserId) : w.db.spare user = 0 := by
  have none : w.db.locked user = 0 := by simp [Db.locked, Table.sum, fresh.orders]
  unfold Db.spare
  rw [fresh.frozen, none, sub_zero]

/-- The fees of the placement use up the price improvement and the buffer that it
releases, and no maker's buffer gets smaller. -/
def LeavesNothing (w : World) : FundsOp → Prop
  | .cancel .. | .resolve .. => True
  | .place req userId clock fault =>
    w.Places req userId clock fault → ∀ market, w.db.markets.get? req.marketId = some market →
      let order := (req.draft w.nextId userId clock).accepted
      let matched := matchOrder order (w.getOrCreateOrderbook req.marketId)
      (order.bookType.paysCash = true →
        order.improvement matched.trades +
          order.bufferReleased matched.incoming.remainingQuantity ≤
            order.fees market.takerFeeBps matched.trades) ∧
      ∀ t ∈ matched.trades, ∀ row, w.db.orders.get? t.makerOrderId = some row →
        row.bookType.paysCash = true → row.bufferUsed t.quantity = 0

private theorem Db.totalGain_nonpos {db : Db} {lost : Prop} {ts : List TradeResult}
    (makes : ∀ t ∈ ts, db.Makes lost t)
    (same : ∀ t ∈ ts, ∀ row, db.orders.get? t.makerOrderId = some row →
      row.bookType.paysCash = true → row.bufferUsed t.quantity = 0) (user : UserId) :
    db.totalGain ts user ≤ 0 := by
  suffices bound : ∀ x ∈ ts.map (fun t => db.makerGain t user), x ≤ 0 by
    simpa [Db.totalGain] using List.sum_le_card_nsmul _ 0 bound
  intro x listed
  obtain ⟨t, member, rfl⟩ := List.mem_map.mp listed
  unfold Db.makerGain
  split
  · next row got =>
    split
    · next cash => exact (same t member row got cash.2).le
    · exact le_rfl
  · have cost := (makes t member).cost
    split
    · omega
    · exact le_rfl

def World.NothingSpare (w : World) : Prop :=
  ∀ user, w.db.holdings.HasAccount user → w.db.spare user ≤ 0

private theorem World.NothingSpare.of_same {w w' : World} (nothing : w.NothingSpare)
    (same : w.db.SameSpare w'.db) : w'.NothingSpare := by
  intro user there
  have before := (same.accounts user).mp there
  rw [same.spare user before]
  exact nothing user before

private theorem fundsStep_nothingSpare {w w' : World} {op : FundsOp} (step : fundsStep w op w')
    (leaves : LeavesNothing w op) (acc : w.Accounted True) (nothing : w.NothingSpare) :
    w'.Accounted True ∧ w'.NothingSpare := by
  cases op with
  | cancel orderId userId fault =>
    obtain ⟨acc', same⟩ := OrderService.cancelOrder_accounted step acc
    exact ⟨acc', nothing.of_same same⟩
  | resolve marketId outcome fault =>
    obtain ⟨acc', same⟩ := AdminService.resolveMarket_accounted step acc
    exact ⟨acc', nothing.of_same same⟩
  | place req userId clock fault =>
    obtain ⟨acc', kept | ⟨places, ob, v, shows, absent, backs, run⟩⟩ :=
      OrderService.placeOrder_accounted step acc (fun _ => trivial)
    · refine ⟨acc', ?_⟩
      unfold World.NothingSpare
      rw [kept]
      exact nothing
    · obtain ⟨_, accounts, makes, market, got, spare⟩ := run.spare shows absent backs acc.funded
      obtain ⟨taker, makers⟩ := leaves places market got
      obtain ⟨v', fills, _⟩ := matchOrder_spec _ _ v shows.represents shows.exact
      refine ⟨acc', fun user there => ?_⟩
      have before := (accounts user).mp there
      have gain := Db.totalGain_nonpos makes makers user
      have kept := nothing user before
      rw [spare user before]
      split
      · next mine =>
        have residue := taker mine.2
        rw [OrderDraft.residue_eq fills]
        omega
      · omega

/-- In every run whose placements leave nothing over, the frozen balance of a
user never exceeds what the user's active orders have frozen. -/
theorem no_funds_stay_locked {w w' : World} {ops : List FundsOp} (start : w.Fresh)
    (run : Run (Guarded LeavesNothing fundsStep) w ops w') (user : UserId) :
    w'.db.holdings.frozenOf user ≤ w'.db.locked user ∧
      ((∀ id row, w'.db.orders.get? id = some row → row.userId = user → row.isActive = false) →
        w'.db.holdings.frozenOf user = 0) := by
  have kept : w'.Accounted True ∧ w'.NothingSpare := run.preserves
    (P := fun w => w.Accounted True ∧ w.NothingSpare)
    (fun _ _ _ step before => fundsStep_nothingSpare step.2 step.1 before.1 before.2)
    ⟨start.accounted True, fun user _ => (start.spare user).le⟩
  have bound : w'.db.holdings.frozenOf user ≤ w'.db.locked user := by
    by_cases there : w'.db.holdings.HasAccount user
    · have nothing := kept.2 user there
      unfold Db.spare at nothing
      omega
    · rw [Holdings.frozenOf_of_none there]
      exact w'.db.locked_nonneg user
  refine ⟨bound, fun ended => ?_⟩
  rw [Db.locked_eq_zero ended] at bound
  exact le_antisymm bound (Holdings.frozenOf_nonneg _ user)

section Example

private theorem twoTraders_fresh : twoTraders.Fresh := by
  refine ⟨Holdings.frozenOf_eq_zero ?_, rfl, fun _ => rfl⟩
  decide

end Example

/-- One of bob's twenty bids is filled at its own price, and his fee buffer stays what it
was. -/
theorem filled_bid_leaves_nothing :
    ∃ w', Run (Guarded LeavesNothing fundsStep) twoTraders
        [.place bidTwentyNo "bob" ⟨0, 0⟩ .none, .place buyOneOfThem "alice" ⟨1, 1⟩ .none] w' ∧
      w'.db.trades.length = 1 ∧ 0 < w'.db.locked "bob" ∧
      w'.db.holdings.frozenOf "bob" ≤ w'.db.locked "bob" := by
  have resting : LeavesNothing twoTraders (.place bidTwentyNo "bob" ⟨0, 0⟩ .none) := by
    intro _ market _
    have idle : (matchOrder (bidTwentyNo.draft 1 "bob" ⟨0, 0⟩).accepted .empty).trades = [] := rfl
    refine ⟨fun _ => ?_, fun t member => ?_⟩
    · exact le_of_eq rfl
    · exact absurd (show t ∈ [] from idle ▸ member) (List.not_mem_nil)
  have filling : LeavesNothing oneBidOfTwenty (.place buyOneOfThem "alice" ⟨1, 1⟩ .none) := by
    intro _ market got
    have rate : (oneBidOfTwenty.db.markets.get? "m").map MarketRow.takerFeeBps = some 20 := by
      decide +kernel
    rw [show oneBidOfTwenty.db.markets.get? "m" = some market from got, Option.map_some,
      Option.some.injEq] at rate
    have makers : ∀ t ∈ (matchOrder (buyOneOfThem.draft 2 "alice" ⟨1, 1⟩).accepted
        (oneBidOfTwenty.getOrCreateOrderbook "m")).trades,
        (oneBidOfTwenty.db.orders.get? t.makerOrderId).all
          (fun row => row.bufferUsed t.quantity = 0) = true := by decide +kernel
    refine ⟨fun _ => ?_, fun t member row stored _ => ?_⟩
    · rw [rate]
      decide +kernel
    · have used := makers t member
      rw [stored] at used
      simpa using used
  have run : Run (Guarded LeavesNothing fundsStep) twoTraders
      [.place bidTwentyNo "bob" ⟨0, 0⟩ .none, .place buyOneOfThem "alice" ⟨1, 1⟩ .none]
      oneOfThemFilled := .cons ⟨resting, rfl⟩ (.single ⟨filling, rfl⟩)
  have traded : oneOfThemFilled.db.trades.length = 1 := by decide +kernel
  have locked : 0 < oneOfThemFilled.db.locked "bob" := by decide +kernel
  exact ⟨_, run, traded, locked, (no_funds_stay_locked twoTraders_fresh run "bob").1⟩

/-- A bid at 40 that is filled at 30 leaves the 100 cents it saved frozen, with
no order behind them. -/
theorem price_improvement_stays_frozen :
    ¬ ∀ w w' ops, World.Fresh w → Run fundsStep w ops w' → ∀ user,
      w'.db.holdings.frozenOf user ≤ w'.db.locked user := by
  intro claim
  let buyTenNo : PlaceOrderRequest := ⟨"c2", "m", .no, .buy, 70, 10, .gtc⟩
  let first := (OrderService.placeOrder buyTenNo "bob" ⟨0, 0⟩ .none twoTraders).2
  let second := (OrderService.placeOrder buyTenYes "alice" ⟨1, 1⟩ .none first).2
  have run : Run fundsStep twoTraders [.place buyTenNo "bob" ⟨0, 0⟩ .none,
      .place buyTenYes "alice" ⟨1, 1⟩ .none] second := .cons rfl (.single rfl)
  have bound := claim twoTraders second _ twoTraders_fresh run "alice"
  have frozen : second.db.holdings.frozenOf "alice" = 100 := by decide +kernel
  have locked : second.db.locked "alice" = 0 := by decide +kernel
  rw [frozen, locked] at bound
  exact absurd bound (by decide)

end PredictionMarket
