/- PredictionMarket/Engine/CashFlow
   digest: What each move makes of all the cash, of the accounts of the house and of who owns what. -/

import PredictionMarket.Engine.FillFees
import PredictionMarket.Engine.Solvency

set_option autoImplicit false
set_option relaxedAutoImplicit false

namespace PredictionMarket

open Library

def Db.cash (db : Db) : Int :=
  db.holdings.totalBalance + db.markets.sum (fun _ r => r.reserveBalance)

def Db.Customer (db : Db) (user : UserId) : Prop :=
  isHouse user = false ∧ db.holdings.HasAccount user

instance (h : Holdings) : DecidablePred h.HasAccount := fun user =>
  inferInstanceAs (Decidable ((h.accounts.get? user).isSome = true))

instance (db : Db) : DecidablePred db.Customer := fun user =>
  inferInstanceAs (Decidable (isHouse user = false ∧ db.holdings.HasAccount user))

/-- The positions and the orders are those of customers, and the fees have an account
to go to. -/
structure Db.Peopled (db : Db) : Prop where
  platform : db.holdings.HasAccount PLATFORM_FEE_USER_ID
  holders : ∀ user m, (db.holdings.positions.get? (user, m)).isSome = true → db.Customer user
  owners : ∀ id r, db.orders.get? id = some r → db.Customer r.userId

/-- The tables after a move that wrote `rows` into the trades table. -/
structure Db.Books (rows : List TradeRow) (db db' : Db) : Prop where
  trades : db'.trades = db.trades ++ rows
  serves : db.holdings.Serves db.Customer ((rows.map TradeRow.takerFee).sum) db'.holdings
  cash : db'.cash = db.cash + (rows.map TradeRow.leak).sum
  rates : ∀ r ∈ rows, r.makerFee = 0 ∧ ∃ market,
    db.markets.get? r.trade.marketId = some market ∧
      r.takerFee = r.trade.takerFee market.takerFeeBps
  owners : ∀ id r, db'.orders.get? id = some r →
    (∃ r₀, db.orders.get? id = some r₀ ∧ r₀.userId = r.userId) ∨ db.Customer r.userId

def Db.RatesStay (db db' : Db) : Prop :=
  ∀ m market, db'.markets.get? m = some market → ∃ market₀,
    db.markets.get? m = some market₀ ∧ market.takerFeeBps = market₀.takerFeeBps

section Moves

variable {db db' db'' : Db} {m : MarketId}

theorem Db.RatesStay.refl (db : Db) : db.RatesStay db := fun _ market got => ⟨market, got, rfl⟩

theorem Db.RatesStay.trans (first : db.RatesStay db') (rest : db'.RatesStay db'') :
    db.RatesStay db'' := by
  intro m market got
  obtain ⟨market₁, middle, same⟩ := rest m market got
  obtain ⟨market₀, was, same₀⟩ := first m market₁ middle
  exact ⟨market₀, was, same.trans same₀⟩

private theorem moveStep_ratesStay {move : Move} (step : moveStep db move db') : db.RatesStay db' :=
  fun _ _ got => moveStep_known step got

theorem Db.Customer.keep {user : UserId} {users : UserId → Prop} {fees : Int}
    (customer : db.Customer user) (serves : db.holdings.Serves users fees db'.holdings) :
    db'.Customer user := ⟨customer.1, (serves.accounts user).mpr customer.2⟩

theorem Db.Books.peopled {rows : List TradeRow} (books : db.Books rows db')
    (peopled : db.Peopled) : db'.Peopled := by
  refine ⟨(books.serves.accounts _).mpr peopled.platform, fun user i there => ?_,
    fun id r got => ?_⟩
  · rcases books.serves.holders user i there with before | customer
    · exact (peopled.holders user i before).keep books.serves
    · exact customer.keep books.serves
  · rcases books.owners id r got with ⟨r₀, was, same⟩ | customer
    · exact same ▸ (peopled.owners id r₀ was).keep books.serves
    · exact customer.keep books.serves

namespace Holdings

variable {h h' h'' : Holdings} {users : UserId → Prop} {userId : UserId}

/-- Statements that serve `users` without any cash moving between accounts. -/
structure Reshuffles (users : UserId → Prop) (h h' : Holdings) : Prop where
  serves : h.Serves users 0 h'
  total : h'.totalBalance = h.totalBalance

namespace Reshuffles

private theorem refl (users : UserId → Prop) (h : Holdings) :
    Reshuffles users h h := ⟨.refl users h, rfl⟩

private theorem trans (first : Reshuffles users h h') (rest : Reshuffles users h' h'') :
    Reshuffles users h h'' :=
  ⟨(first.serves.trans rest.serves).congr (add_zero 0), rest.total.trans first.total⟩

private theorem unfreeze {amount : Int} (customer : isHouse userId = false)
    (done : h.unfreezeDebit userId amount amount = .ok h') : Reshuffles users h h' :=
  ⟨.updateAccount customer done, totalBalance_unfreeze done⟩

private theorem updatePosition {i : MarketId} {f : PositionRow → PositionRow}
    (done : h.updatePosition userId i f = .ok h') : Reshuffles users h h' := by
  refine ⟨.updatePosition done, ?_⟩
  rw [totalBalance, (updatePosition_ok done).1]
  rfl

end Reshuffles

end Holdings

private theorem Db.Books.refl (db : Db) : db.Books [] db := by
  refine ⟨by simp, .refl _ _, by simp, by simp, fun id r got => Or.inl ⟨r, got, rfl⟩⟩

private theorem Db.Books.trans {rows rows' : List TradeRow} (first : db.Books rows db')
    (rest : db'.Books rows' db'') (stay : db.RatesStay db') : db.Books (rows ++ rows') db'' := by
  have before : ∀ user, db'.Customer user → db.Customer user := fun user customer =>
    ⟨customer.1, (first.serves.accounts user).mp customer.2⟩
  refine ⟨?_, ?_, ?_, fun r member => ?_, fun id r got => ?_⟩
  · rw [rest.trades, first.trades, List.append_assoc]
  · rw [List.map_append, List.sum_append]
    exact first.serves.trans (rest.serves.mono before)
  · rw [rest.cash, first.cash, List.map_append, List.sum_append, add_assoc]
  · rcases List.mem_append.mp member with earlier | later
    · exact first.rates r earlier
    · obtain ⟨free, market, got, fee⟩ := rest.rates r later
      obtain ⟨market₀, was, same⟩ := stay _ market got
      exact ⟨free, market₀, was, same ▸ fee⟩
  · rcases rest.owners id r got with ⟨r₁, middle, same⟩ | customer
    · rcases first.owners id r₁ middle with ⟨r₀, was, same₀⟩ | customer
      · exact Or.inl ⟨r₀, was, same₀.trans same⟩
      · exact Or.inr (same ▸ customer)
    · exact Or.inr (before _ customer)

private theorem Db.Books.quiet (trades : db'.trades = db.trades)
    (cash : db.holdings.Reshuffles db.Customer db'.holdings) (markets : db'.markets = db.markets)
    (owners : ∀ id r, db'.orders.get? id = some r →
      ∃ r₀, db.orders.get? id = some r₀ ∧ r₀.userId = r.userId) : db.Books [] db' := by
  refine ⟨by simp [trades], cash.serves, ?_, by simp, fun id r got => Or.inl (owners id r got)⟩
  unfold Db.cash
  rw [cash.total, markets]
  simp

private theorem unfreezeRemainder_reshuffles {users : UserId → Prop} {order : Order}
    (customer : isHouse order.userId = false) (done : unfreezeRemainder order db = .ok db') :
    db.holdings.Reshuffles users db'.holdings := by
  rcases unfreezeRemainder_statement done with ⟨_, moved⟩ | ⟨side, _, moved⟩
  · exact .unfreeze customer moved
  · exact .updatePosition moved

private theorem acceptOrder_reshuffles {users : UserId → Prop} {draft : OrderDraft} {order : Order}
    {market : MarketState} (customer : isHouse draft.userId = false)
    (done : acceptOrder draft db = .ok (order, market, db')) :
    db.holdings.Reshuffles users db'.holdings := by
  obtain ⟨db₁, frozen, same⟩ := acceptOrder_statement done
  obtain ⟨_, _, sameUser, _⟩ := draft.toOrder_fields
  rw [same]
  rcases checkAndFreeze_statement frozen with ⟨_, amount, moved⟩ | ⟨side, _, _, moved⟩
  · rw [sameUser] at moved
    exact .unfreeze customer moved
  · exact .updatePosition moved

private theorem finalizeOrder_reshuffles {users : UserId → Prop} {order order' : Order}
    (customer : isHouse order.userId = false)
    (done : finalizeOrder order 0 db = .ok (order', db')) :
    db.holdings.Reshuffles users db'.holdings := by
  rcases finalizeOrder_statement done with same | ⟨db₁, released, same⟩
  · rw [same]
    exact .refl users _
  · rw [same]
    exact unfreezeRemainder_reshuffles customer released

private theorem Db.Peopled.places {draft : OrderDraft} {order : Order} {market : MarketState}
    (peopled : db.Peopled) (customer : isHouse draft.userId = false)
    (done : acceptOrder draft db = .ok (order, market, db')) : db.Customer draft.userId := by
  have houses := acceptOrder_houses done
  obtain ⟨_, sameMarket, sameUser, _⟩ := draft.accepted_fields
  unfold Holdings.Houses OrderRow.lodging Db.insertedRow at houses
  rw [sameUser, sameMarket] at houses
  split at houses
  · exact ⟨customer, houses⟩
  · exact peopled.holders _ _ houses

private theorem acceptOrder_market {draft : OrderDraft} {order : Order} {market : MarketState}
    (done : acceptOrder draft db = .ok (order, market, db')) :
    ∃ row, db.markets.get? draft.marketId = some row ∧
      market = MarketState.ofRow draft.marketId row := by
  obtain ⟨row, got, _, rfl⟩ := (acceptOrder_ok done).active
  exact ⟨row, got, rfl⟩

private theorem Db.cash_update {f : MarketRow → MarketRow} {row : MarketRow}
    (got : db.markets.get? m = some row)
    (updated : db.markets.update? m f = some db'.markets) :
    db'.cash = db.cash + (db'.holdings.totalBalance - db.holdings.totalBalance) +
      ((f row).reserveBalance - row.reserveBalance) := by
  unfold Db.cash
  rw [Table.sum_update? updated, got, Option.elim_some]
  omega

private theorem Db.Peopled.makers {v : RestingOrders} (peopled : db.Peopled)
    (backs : db.Backs False m v) {id : OrderId} {r : Resting} (rests : v id = some r) :
    db.Customer r.userId := by
  rcases backs id r rests with ⟨_, lost⟩ | ⟨row, got, _, _, _, same⟩
  · exact lost.elim
  · have user : row.userId = r.userId := congrArg Resting.userId same
    exact user ▸ peopled.owners id row got

private theorem placeOrderInner_books {draft : OrderDraft} {ob ob' : OrderBook} {placed : Placed}
    {v : RestingOrders} (done : placeOrderInner draft ob db = (.ok (placed, db'), ob'))
    (shows : ob.Shows v) (backs : db.Backs False draft.marketId v)
    (customer : isHouse draft.userId = false) (peopled : db.Peopled) :
    ∃ rows, db.Books rows db' := by
  have owners : ∀ j, (db'.orders.get? j).map OrderRow.userId = _ :=
    placeOrderInner_column (fun _ _ => rfl) done
  obtain ⟨⟨market, db₁, order, n, market₁, db₂, order', db₃, accepted, cleared, finalized,
    flushed, _⟩, _⟩ := placeOrderInner_phases done
  obtain ⟨v', fills, _⟩ := matchOrder_spec draft.accepted ob v shows.represents shows.exact
  obtain ⟨_, sameMarket, sameUser, _⟩ := draft.accepted_fields
  have steps := clearFills_run fills fills.sameOrder cleared
  have taker : (matchOrder draft.accepted ob).incoming.userId = draft.userId :=
    fills.sameOrder.userId.symm.trans sameUser
  have home : (matchOrder draft.accepted ob).incoming.marketId = draft.marketId :=
    fills.sameOrder.marketId.symm.trans sameMarket
  have placing := peopled.places customer accepted
  obtain ⟨row, got, rfl⟩ := acceptOrder_market accepted
  obtain ⟨accepts, froze⟩ : db.holdings.Reshuffles db.Customer db₁.holdings :=
    acceptOrder_reshuffles customer accepted
  have filled := fills_filled steps
    (fun user (served : db.Customer user) => served.keep accepts)
    ((accepts.accounts _).mpr peopled.platform) (taker ▸ placing)
    (fun _ _ rests => peopled.makers backs rests)
  have mine : isHouse order.userId = false := by
    rw [(clearFills_sameOrder cleared).userId, taker]
    exact customer
  obtain ⟨finalizes, released⟩ : db₂.holdings.Reshuffles db.Customer db₃.holdings :=
    finalizeOrder_reshuffles mine finalized
  have trades := finalizeOrder_trades finalized
  obtain ⟨rows, written, same, fees⟩ := clearFills_rows cleared
  have markets : db₃.markets = db.markets :=
    ((finalizeOrder_ok finalized).1.trans (clearFills_markets cleared)).trans
      (acceptOrder_ok accepted).markets
  have id : market₁.id = draft.marketId := (fills_clear steps home).id
  obtain ⟨tables, updated, rfl⟩ := Db.flushMarket_ok flushed
  rw [markets, id] at updated
  obtain ⟨collected, leaked⟩ := rows_sums same (fun r member => (fees r member).2)
  refine ⟨rows, ?_, ?_, ?_, fun r member => ?_, fun j r stored => ?_⟩
  · show db₃.trades = _
    rw [trades, written, acceptOrder_trades accepted]
  · have all := (accepts.trans filled.serves).trans finalizes
    refine all.congr ?_
    rw [zero_add, add_zero]
    exact collected
  · have changed : Db.cash { db₃ with markets := tables } = _ := Db.cash_update got updated
    rw [changed]
    have flow := filled.cash
    simp only [cash] at flow
    have reserve : (MarketState.ofRow draft.marketId row).reserveBalance = row.reserveBalance := rfl
    simp only
    omega
  · have traded := List.mem_map_of_mem (f := TradeRow.trade) member
    rw [same] at traded
    refine ⟨(fees r member).1, row, ?_, (fees r member).2⟩
    rw [fills_market steps _ traded, home]
    exact got
  · have user := owners j
    rw [stored, Option.map_some] at user
    split at user
    · right
      have mine : r.userId = draft.userId := (Option.some.inj user).trans sameUser
      exact mine ▸ placing
    · obtain ⟨r₀, was, same⟩ := Option.map_eq_some_iff.mp user.symm
      exact Or.inl ⟨r₀, was, same⟩

private theorem Db.Ends.books {id : OrderId} {row : OrderRow} (ends : db.Ends id row db')
    (peopled : db.Peopled) : db.Books [] db' := by
  have rows := ends.get?_orders
  obtain ⟨got, order, done⟩ := ends
  obtain ⟨db₁, db₂, released, updated, rfl⟩ := cancelInSavepoint_saved done
  have trades := cancelInSavepoint_trades done
  obtain ⟨orders, _, rfl⟩ := Db.updateStatus_ok updated
  have moved : db.holdings.Reshuffles db.Customer db₁.holdings :=
    unfreezeRemainder_reshuffles (peopled.owners id row got).1 released
  refine .quiet trades moved (cancelInSavepoint_ok done).2.1 (fun j r stored => ?_)
  rw [rows] at stored
  split at stored
  · next same =>
    obtain rfl := Option.some.inj stored
    exact ⟨row, same ▸ got, rfl⟩
  · exact ⟨r, stored, rfl⟩

private theorem bulkUnfreeze_reshuffles {users : UserId → Prop} {userId : UserId}
    {funds yes no : Int}
    {h h' : Holdings} (customer : isHouse userId = false)
    (done : MatchingEngine.bulkUnfreeze m userId funds yes no h = .ok h') :
    h.Reshuffles users h' := by
  have pended : ∀ {side : OriginalSide} {qty : Int} {g g' : Holdings},
      (if 0 < qty then g.addPending side userId m (-qty) else pure g : Except Err Holdings) =
        .ok g' → g.Reshuffles users g' := by
    intro side qty g g' ran
    split at ran
    · exact .updatePosition ran
    · rw [pure_eq_ok.mp ran]
      exact .refl users _
  simp only [MatchingEngine.bulkUnfreeze, bind_eq_ok] at done
  obtain ⟨h₁, cash, h₂, yesRan, noRan⟩ := done
  have first : h.Reshuffles users h₁ := by
    split at cash
    · exact .unfreeze customer cash
    · rw [pure_eq_ok.mp cash]
      exact .refl users _
  exact first.trans ((pended yesRan).trans (pended noRan))

private theorem batch_books {userId : UserId} {scope : CancelScope}
    (customer : isHouse userId = false)
    (step : moveStep db (.batch m userId scope) db') : db.Books [] db' := by
  obtain ⟨db₁, h, marked, freed, rfl⟩ := step
  have trades : db₁.trades = db.trades := markCancelled_trades marked
  obtain ⟨_, markets, rows⟩ := markCancelled_ok _ marked
  refine .quiet trades (bulkUnfreeze_reshuffles customer freed) markets (fun j r stored => ?_)
  replace stored : db₁.orders.get? j = some r := stored
  rw [rows] at stored
  split at stored
  · obtain ⟨r₀, was, rfl⟩ := Option.map_eq_some_iff.mp stored
    exact ⟨r₀, was, rfl⟩
  · exact ⟨r, stored, rfl⟩

private theorem Minted.books {userId : UserId} {quantity : Int} (customer : isHouse userId = false)
    (minted : Minted userId m quantity db db') : db.Books [] db' := by
  obtain ⟨row, got, _⟩ := minted.active
  have cash := minted.cash
  obtain ⟨h, there, debit, pairs⟩ := minted.paid
  obtain ⟨accounts, positions⟩ := Holdings.addPairs_ok pairs
  have bought : db.holdings.Serves db.Customer 0 db'.holdings :=
    ((Holdings.Serves.updateAccount customer debit).trans
      (.upsertPosition ⟨customer, there⟩ accounts positions)).congr (add_zero 0)
  have trades : db'.trades = db.trades := by rw [minted.rest]
  refine ⟨by simp [trades], bought, ?_, by simp, fun j r stored => ?_⟩
  · have market := Table.get?_update? minted.market m
    rw [if_pos rfl, got, Option.map_some] at market
    simp only [Db.cashWith, market, got, Option.map_some, Option.getD_some] at cash
    rw [Db.cash_update got minted.market, List.map_nil, List.sum_nil]
    simp only
    omega
  · have orders : db'.orders = db.orders := by rw [minted.rest]
    exact Or.inl ⟨r, orders ▸ stored, rfl⟩

private theorem Burned.books {userId : UserId} {quantity : Int} (customer : isHouse userId = false)
    (burned : Burned userId m quantity db db') : db.Books [] db' := by
  obtain ⟨row, got, _⟩ := burned.active
  obtain ⟨total, _⟩ := burned.same
  obtain rfl := burned.quantity_eq_zero
  obtain ⟨_, h, _, _, net, credit⟩ := burned.paid
  have given : db.holdings.Serves db.Customer 0 db'.holdings :=
    ((Holdings.Serves.updatePosition net).trans
      (.updateAccount customer credit)).congr (add_zero 0)
  have trades : db'.trades = db.trades := by rw [burned.rest]
  refine ⟨by simp [trades], given, ?_, by simp, fun j r stored => ?_⟩
  · rw [Db.cash_update got burned.market, List.map_nil, List.sum_nil]
    simp only
    omega
  · have orders : db'.orders = db.orders := by rw [burned.rest]
    exact Or.inl ⟨r, orders ▸ stored, rfl⟩

namespace AdminService

variable {outcome : OriginalSide}

private theorem cancelAndUnfreeze_reshuffles {users : UserId → Prop} {e : OrderId × OrderRow}
    (customer : isHouse e.2.userId = false) (done : cancelAndUnfreeze m db e = .ok db') :
    db.holdings.Reshuffles users db'.holdings := by
  simp only [cancelAndUnfreeze, bind_eq_ok] at done
  obtain ⟨db₁, marked, moved⟩ := done
  split at marked
  · obtain rfl := Except.ok.inj marked
    obtain ⟨h, freed, rfl⟩ := Db.onHoldings_ok moved
    split at freed
    · exact .unfreeze customer freed
    · exact .updatePosition freed
    · exact .updatePosition freed
  · cases marked

private theorem payAndClear_serves {users : UserId → Prop} {e : UserId × PositionRow}
    {h h' : Holdings}
    (customer : isHouse e.1 = false) (done : payAndClear m outcome h e = .ok h') :
    h.Serves users 0 h' := by
  simp only [payAndClear, bind_eq_ok] at done
  obtain ⟨h₁, credited, cleared⟩ := done
  have paid : h.Serves users 0 h₁ := by
    split at credited
    · exact .updateAccount customer credited
    · rw [pure_eq_ok.mp credited]
      exact .refl users _
  exact (paid.trans (.updatePosition cleared)).congr (add_zero 0)

private theorem cancelAll_books {l : List (OrderId × OrderRow)}
    (listed : ∀ e ∈ l, isHouse e.2.userId = false)
    (done : l.foldlM (cancelAndUnfreeze m) db = .ok db') : db.Books [] db' := by
  have kept : db'.trades = db.trades ∧ db'.markets = db.markets ∧
      db.holdings.Reshuffles db.Customer db'.holdings ∧
      ∀ id r, db'.orders.get? id = some r →
        ∃ r₀, db.orders.get? id = some r₀ ∧ r₀.userId = r.userId := by
    refine foldlM_preserves (P := fun d => d.trades = db.trades ∧ d.markets = db.markets ∧
      db.holdings.Reshuffles db.Customer d.holdings ∧
      ∀ id r, d.orders.get? id = some r →
        ∃ r₀, db.orders.get? id = some r₀ ∧ r₀.userId = r.userId) ?_ done
      ⟨rfl, rfl, .refl _ _, fun _ r got => ⟨r, got, rfl⟩⟩
    rintro d e d' member step ⟨trades, markets, moved, owners⟩
    obtain ⟨same, updated, _⟩ := cancelAndUnfreeze_ok step
    refine ⟨(cancelAndUnfreeze_trades step).trans trades, same.trans markets,
      moved.trans (cancelAndUnfreeze_reshuffles (listed e member) step), fun j r stored => ?_⟩
    rw [Table.get?_update? updated] at stored
    split at stored
    · next here =>
      obtain ⟨r₁, was, rfl⟩ := Option.map_eq_some_iff.mp stored
      exact owners j r₁ (here ▸ was)
    · exact owners j r stored
  obtain ⟨trades, markets, moved, owners⟩ := kept
  exact .quiet trades moved markets owners

private theorem settleMarket_books {row : MarketRow} (got : db.markets.get? m = some row)
    (sound : db.MarketSound m) (holders : ∀ user i,
      (db.holdings.positions.get? (user, i)).isSome = true → db.Customer user)
    (done : settleMarket m outcome db = .ok db') : db.Books [] db' := by
  have trades : db'.trades = db.trades := settleMarket_trades done
  have updated := settleMarket_closes done
  obtain ⟨orders, paid, _⟩ := settleMarket_ok done
  have listed : ∀ e ∈ marketPositions m db.holdings, ∃ i,
      db.holdings.positions.get? (e.1, i) = some e.2 := by
    intro e member
    obtain ⟨k, listed, rfl⟩ := List.mem_map.mp member
    exact ⟨k.1.2, Table.mem_iff.mp (List.mem_filter.mp listed).1⟩
  have serves : db.holdings.Serves db.Customer 0 db'.holdings := by
    refine foldlM_preserves (P := fun h => db.holdings.Serves db.Customer 0 h) ?_ paid (.refl _ _)
    intro h e h' member step before
    obtain ⟨i, stored⟩ := listed e member
    have customer := holders e.1 i (by simp [stored])
    exact (before.trans (payAndClear_serves customer.1 step)).congr (add_zero 0)
  obtain ⟨h, ran, pays⟩ : ∃ h, (marketPositions m db.holdings).foldlM (payAndClear m outcome)
      db.holdings = .ok h ∧ PaidAll m outcome (marketPositions m db.holdings) db.holdings h :=
    payAll_succeeds _ (fun e member => (listed e member).elim fun _ stored => Table.check stored)
  obtain rfl : h = db'.holdings := Except.ok.inj (ran.symm.trans paid)
  refine ⟨by simp [trades], serves, ?_, by simp, fun j r stored => Or.inl ⟨r, orders ▸ stored, rfl⟩⟩
  have everyone : db.holdings.volumeOf
      (fun k => k.2 = m && !(db.holdings.accounts.get? k.1).isSome) outcome = 0 := by
    rw [unpaid_eq_zero]
    intro user wins
    refine (holders user m ?_).2
    by_contra gone
    simp [Holdings.sharesOf, Option.not_isSome_iff_eq_none.mp gone] at wins
  have split := db.holdings.volumeOf_split (fun k => k.2 = m)
    (fun k => (db.holdings.accounts.get? k.1).isSome) outcome
  have reserve : row.reserveBalance = 100 * db.holdings.volumeOf (fun k => k.2 = m) outcome := by
    obtain ⟨row', got', ⟨yes, no, pairs, hundreds⟩, _⟩ := sound
    obtain rfl := Option.some.inj (got.symm.trans got')
    simp only [MarketState.ofRow] at yes no pairs hundreds
    rw [← Holdings.volumeSum_eq]
    cases outcome
    · rw [hundreds, yes]
    · rw [hundreds, pairs, no]
  rw [Db.cash_update got updated, pays.balance, paidOut_marketPositions, List.map_nil,
    List.sum_nil]
  simp only [settledRow]
  omega

private theorem resolve_books {row : MarketRow} (got : db.markets.get? m = some row)
    (sound : db.MarketSound m) (peopled : db.Peopled)
    (done : resolveInTransaction m outcome db = .ok db') : db.Books [] db' := by
  obtain ⟨db₁, cancelled, settled⟩ := resolveInTransaction_ok done
  have first : db.Books [] db₁ := cancelAll_books (fun e member =>
    (peopled.owners e.1 e.2 (mem_openOrders.mp member).1).1) cancelled
  have kept : db₁.markets = db.markets := foldlM_preserves (P := fun d => d.markets = db.markets)
    (fun _ _ _ _ step same => (cancelAndUnfreeze_ok step).1.trans same) cancelled rfl
  have freed : db.holdings.SameMarket m db₁.holdings := foldlM_preserves
    (P := fun d => db.holdings.SameMarket m d.holdings)
    (fun _ _ _ _ step same => same.trans (cancelAndUnfreeze_sameMarket step)) cancelled
    (.of_positions rfl)
  have sound₁ : db₁.MarketSound m := (sound.stays (by rw [kept]) freed).sound
  have last := settleMarket_books (kept ▸ got) sound₁ (first.peopled peopled).holders settled
  exact first.trans last (fun i market stored => ⟨market, kept ▸ stored, rfl⟩)

end AdminService

def Db.Serves (db : Db) : Move → Prop
  | .placed draft => isHouse draft.userId = false
  | .batch _ userId _ => isHouse userId = false
  | .privileged call => isHouse call.userId = false
  | .resolved marketId _ => ∃ row, db.markets.get? marketId = some row
  | .cancelled _ | .retired _ => True

private theorem moveStep_books {move : Move} (step : moveStep db move db') (serves : db.Serves move)
    (peopled : db.Peopled) (sound : db.MarketsSound) : ∃ rows, db.Books rows db' := by
  cases move with
  | placed draft =>
    obtain ⟨ob, ob', placed, v, done, shows, _, backs⟩ := step
    exact placeOrderInner_books done shows backs serves peopled
  | cancelled id =>
    obtain ⟨row, _, ends⟩ := step
    exact ⟨[], ends.books peopled⟩
  | retired id =>
    obtain ⟨row, _, _, ends⟩ := step
    exact ⟨[], ends.books peopled⟩
  | batch marketId userId scope => exact ⟨[], batch_books serves step⟩
  | privileged call =>
    rcases step with minted | burned
    · exact ⟨[], minted.books serves⟩
    · exact ⟨[], burned.books serves⟩
  | resolved marketId outcome =>
    obtain ⟨row, got⟩ := serves
    exact ⟨[], AdminService.resolve_books got (sound marketId row got) peopled step⟩

/-- The requests of somebody other than the house. The owner of a cancelled order is
checked by the service. -/
def SessionOp.ByCustomer : SessionOp → Prop
  | .place _ userId _ | .replace _ _ userId _ | .batchCancel _ userId _ => isHouse userId = false
  | .privileged call => isHouse call.userId = false
  | .cancel .. | .resolve .. => True

private theorem SessionOp.ByCustomer.serves {op : SessionOp} (customer : op.ByCustomer)
    (id : OrderId)
    (stays : ∀ marketId outcome, op ≠ .resolve marketId outcome) :
    ∀ move ∈ op.moves id, ∀ d : Db, d.Serves move := by
  intro move member d
  cases op with
  | place | batchCancel | privileged =>
    obtain rfl := List.mem_singleton.mp member
    exact customer
  | cancel orderId userId =>
    obtain rfl := List.mem_singleton.mp member
    trivial
  | replace oldOrderId req userId clock =>
    rcases List.mem_pair.mp member with rfl | rfl
    · trivial
    · exact customer
  | resolve marketId outcome => exact absurd rfl (stays marketId outcome)

private theorem moves_books {moves : List Move} (run : Run moveStep db moves db')
    (serves : ∀ move ∈ moves, ∀ d : Db, d.Serves move) (peopled : db.Peopled)
    (sound : db.MarketsSound) : ∃ rows, db.Books rows db' := by
  induction run with
  | nil d => exact ⟨[], .refl d⟩
  | @cons d d₁ d' move rest step _ ih =>
    obtain ⟨rows, first⟩ := moveStep_books step (serves move List.mem_cons_self d) peopled sound
    have since := moveStep_soundSince step
      ⟨sound, fun m r got => ⟨r, got, Or.inl ⟨rfl, rfl⟩⟩⟩
    obtain ⟨rows', later⟩ := ih (fun m member => serves m (List.mem_cons_of_mem _ member))
      (first.peopled peopled) since.sound
    exact ⟨rows ++ rows', first.trans later (moveStep_ratesStay step)⟩

end Moves

theorem sessionStep_books {s s' : Session} {op : SessionOp} (step : sessionStep s op s')
    (customer : op.ByCustomer) (acc : s.world.Accounted False) (peopled : s.world.db.Peopled)
    (sound : s.world.db.MarketsSound) : ∃ rows, s.world.db.Books rows s'.world.db := by
  rcases (sessionStep_moves step acc).2 with same | moves
  · rw [same]
    exact ⟨[], .refl _⟩
  · cases op with
    | resolve marketId outcome =>
      cases got : s.world.db.markets.get? marketId with
      | some row => exact moveStep_books (Run.single_iff.mp moves) ⟨row, got⟩ peopled sound
      | none =>
        obtain rfl := step
        have refused : (s.next (.resolve marketId outcome)).world = s.world := by
          simp [Session.next, AdminService.resolveMarket, got]
        rw [refused]
        exact ⟨[], .refl _⟩
    | place | cancel | replace | batchCancel | privileged =>
      exact moves_books moves (customer.serves _ (by simp)) peopled sound

theorem sessionStep_ratesStay {s s' : Session} {op : SessionOp} (step : sessionStep s op s')
    (acc : s.world.Accounted False) : s.world.db.RatesStay s'.world.db := by
  rcases (sessionStep_moves step acc).2 with same | moves
  · rw [same]
    exact .refl _
  · exact moves.preserves (P := fun db => s.world.db.RatesStay db)
      (fun _ _ _ step before => before.trans (moveStep_ratesStay step)) (.refl _)

end PredictionMarket
