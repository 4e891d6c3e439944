/- PredictionMarket/Engine/PlaceFrames
   digest: A placement is made of statements on the rows of its own users in its market. -/

import PredictionMarket.Clearing.Columns
import PredictionMarket.Engine.BookSimulation
import PredictionMarket.Engine.FillFunds

set_option autoImplicit false
set_option relaxedAutoImplicit false

namespace PredictionMarket

open Library

theorem BookType.eq_sellType {b : BookType} {side : OriginalSide}
    (asset : b.frozenAsset = side.sellType.frozenAsset) : b = side.sellType := by
  cases b <;> cases side <;> first | rfl | cases asset

section Statements

variable {order order' : Order} {db db' : Db}

theorem checkAndFreeze_statement (done : checkAndFreeze order db = .ok (order', db')) :
    (order.bookType.paysCash = true ∧ ∃ amount,
      db.holdings.unfreezeDebit order.userId (-amount) (-amount) = .ok db'.holdings) ∨
    ∃ side : OriginalSide, order.bookType = side.sellType ∧
      (∃ row, db.holdings.positions.get? (order.userId, order.marketId) = some row) ∧
      db.holdings.addPending side order.userId order.marketId order.quantity =
        .ok db'.holdings := by
  have funds : ∀ {amount : Int}, freezeFunds order amount db = .ok (order', db') →
      db.holdings.unfreezeDebit order.userId (-amount) (-amount) = .ok db'.holdings := by
    intro amount froze
    unfold freezeFunds at froze
    split at froze
    · cases froze
    · simp only at froze
      split at froze
      · cases froze
      · simp only [bind_eq_ok, pure_eq_ok, Prod.mk.injEq] at froze
        obtain ⟨db₁, ran, _, rfl⟩ := froze
        obtain ⟨h, moved, rfl⟩ := Db.onHoldings_ok ran
        exact moved
  have shares : ∀ {side : OriginalSide} {asset : FrozenAssetType} {missing : String},
      freezeShares order side asset missing db = .ok (order', db') →
      (∃ row, db.holdings.positions.get? (order.userId, order.marketId) = some row) ∧
        db.holdings.addPending side order.userId order.marketId order.quantity =
          .ok db'.holdings := by
    intro side asset missing froze
    unfold freezeShares at froze
    split at froze
    · cases froze
    · next row got =>
      split at froze
      · cases froze
      · simp only [bind_eq_ok, pure_eq_ok, Prod.mk.injEq] at froze
        obtain ⟨db₁, ran, _, rfl⟩ := froze
        obtain ⟨h, moved, rfl⟩ := Db.onHoldings_ok ran
        exact ⟨⟨row, got⟩, moved⟩
  unfold checkAndFreeze at done
  split at done
  · next type => exact Or.inl ⟨by rw [type]; rfl, _, funds done⟩
  · next type => exact Or.inl ⟨by rw [type]; rfl, _, funds done⟩
  · next type => exact Or.inr ⟨.yes, type, shares done⟩
  · next type => exact Or.inr ⟨.no, type, shares done⟩

theorem unfreezeRemainder_statement (done : unfreezeRemainder order db = .ok db') :
    (order.frozenAssetType = .funds ∧ db.holdings.unfreezeDebit order.userId order.frozenAmount
      order.frozenAmount = .ok db'.holdings) ∨
    ∃ side : OriginalSide, order.frozenAssetType = side.sellType.frozenAsset ∧
      db.holdings.addPending side order.userId order.marketId (-order.remainingQuantity) =
        .ok db'.holdings := by
  unfold unfreezeRemainder at done
  split at done
  · next funds =>
    simp only [bind_eq_ok, pure_eq_ok] at done
    obtain ⟨db₁, ran, rfl⟩ := done
    obtain ⟨h, moved, rfl⟩ := Db.onHoldings_ok ran
    exact Or.inl ⟨funds, moved⟩
  · next yes =>
    obtain ⟨h, moved, rfl⟩ := Db.onHoldings_ok done
    exact Or.inr ⟨.yes, yes, moved⟩
  · next no =>
    obtain ⟨h, moved, rfl⟩ := Db.onHoldings_ok done
    exact Or.inr ⟨.no, no, moved⟩

theorem finalizeOrder_statement (done : finalizeOrder order 0 db = .ok (order', db')) :
    db'.holdings = db.holdings ∨
      ∃ db₁, unfreezeRemainder order db = .ok db₁ ∧ db'.holdings = db₁.holdings := by
  cases finalizeOrder_run done with
  | partly | idle => exact Or.inl rfl
  | expired _ _ released updated =>
    obtain ⟨orders, _, rfl⟩ := Db.updateStatus_ok updated
    exact Or.inr ⟨_, released, rfl⟩

theorem acceptOrder_statement {draft : OrderDraft} {market : MarketState}
    (done : acceptOrder draft db = .ok (order, market, db')) :
    ∃ db₁, checkAndFreeze draft.toOrder db = .ok (order, db₁) ∧ db'.holdings = db₁.holdings := by
  obtain ⟨db₁, db₂, frozen, saved, rfl⟩ := acceptOrder_saved done
  obtain ⟨orders, _, rfl⟩ := Db.save_ok saved
  exact ⟨db₁, frozen, rfl⟩

end Statements

section Columns

variable {β : Type} {col : OrderRow → β} {draft : OrderDraft} {ob ob' : OrderBook}
  {db db' : Db}

theorem clearFills_column (fixed : ∀ r order, col (r.progress order) = col r)
    {ts : List TradeResult} {order order' : Order} {n n' : Int} {market market' : MarketState}
    (done : clearFills order ts n market db = .ok (order', n', market', db')) (j : OrderId) :
    (db'.orders.get? j).map col = (db.orders.get? j).map col := by
  refine clearFills_rel
    (R := fun db db' => (db'.orders.get? j).map col = (db.orders.get? j).map col)
    (fun _ => rfl) (fun first rest => rest.trans first) (fun filled => ?_) done
  obtain ⟨orders₁, taker, maker⟩ := (clearFill_ok filled).orders
  rw [Table.map_get?_update? maker (fun r => fixed r _),
    Table.map_get?_update? taker (fun r => fixed r _)]

theorem Finalized.column (fixed : ∀ r order, col (r.progress order) = col r) {order order' : Order}
    (final : Finalized order db order' db') (j : OrderId) :
    (db'.orders.get? j).map col = (db.orders.get? j).map col := by
  obtain ⟨_, final⟩ := final
  split at final
  · exact Table.map_get?_update? final.2.2 (fun r => fixed r _) j
  · rw [final.2.2]

theorem placeOrderInner_column (fixed : ∀ r order, col (r.progress order) = col r)
    {placed : Placed} (done : placeOrderInner draft ob db = (.ok (placed, db'), ob'))
    (j : OrderId) : (db'.orders.get? j).map col =
      if j = draft.id then some (col (Db.insertedRow draft.accepted draft.insertedAt))
      else (db.orders.get? j).map col := by
  obtain ⟨⟨market, db₁, order, n, market₁, db₂, order', db₃, accepted, fills, finalized, flushed,
    _⟩, _⟩ := placeOrderInner_phases done
  obtain ⟨markets, _, rfl⟩ := Db.flushMarket_ok flushed
  obtain ⟨_, rows⟩ := (acceptOrder_ok accepted).get?_orders
  refine ((finalizeOrder_ok finalized).column fixed j).trans
    ((clearFills_column fixed fills j).trans ?_)
  rw [rows]
  split
  · rfl
  · rfl

end Columns

section Respected

variable {users charged : UserId → Prop} {R : Holdings → Holdings → Prop} {draft : OrderDraft}
  {order order' : Order} {db db' : Db} {market : MarketState}

theorem acceptOrder_respected (respected : Respected users charged draft.marketId R)
    (own : users draft.userId) (pays : charged draft.userId)
    (done : acceptOrder draft db = .ok (order, market, db')) : R db.holdings db'.holdings := by
  obtain ⟨db₁, frozen, same⟩ := acceptOrder_statement done
  obtain ⟨_, sameMarket, sameUser, _⟩ := draft.toOrder_fields
  rw [same]
  rcases checkAndFreeze_statement frozen with ⟨_, amount, moved⟩ | ⟨side, _, _, moved⟩
  · rw [sameUser] at moved
    exact respected.debit own (Or.inr pays) moved
  · rw [sameUser, sameMarket] at moved
    exact respected.update own moved

theorem finalizeOrder_respected (respected : Respected users charged order.marketId R)
    (own : users order.userId) (pays : charged order.userId)
    (done : finalizeOrder order 0 db = .ok (order', db')) : R db.holdings db'.holdings := by
  rcases finalizeOrder_statement done with same | ⟨db₁, released, same⟩
  · rw [same]
    exact respected.refl _
  · rw [same]
    rcases unfreezeRemainder_statement released with ⟨_, moved⟩ | ⟨side, _, moved⟩
    · exact respected.debit own (Or.inr pays) moved
    · exact respected.update own moved

@[simp] theorem tradeOf_marketId (o : Order) (id : OrderId) (r : Resting) (qty : Int) :
    (tradeOf o id r qty).marketId = o.marketId := by
  unfold tradeOf
  cases r.direction <;> rfl

theorem tradeOf_users {o : Order} {id : OrderId} {r : Resting} {qty : Int} (own : users o.userId)
    (maker : users r.userId) : users (tradeOf o id r qty).buyUserId ∧
      users (tradeOf o id r qty).sellUserId := by
  unfold tradeOf
  cases r.direction with
  | sell => exact ⟨own, maker⟩
  | buy => exact ⟨maker, own⟩

theorem FillStep.absent {s s' : FillState} {id : OrderId} {r : Resting}
    (step : FillStep order s id r s') (absent : s.book order.id = none) :
    id ≠ order.id ∧ s'.book order.id = none := by
  have other : id ≠ order.id := by
    rintro rfl
    exact absurd (step.here.symm.trans absent) (by simp)
  refine ⟨other, ?_⟩
  rw [step.book]
  simp [RestingOrders.fill, other.symm, absent]

private theorem fills_respected {s s' : FillState} {ts : List TradeResult}
    (run : Run (fillSteps order) s ts s') (absent : s.book order.id = none)
    (respected : Respected users charged order.marketId R)
    (own : users order.userId) (pays : charged order.userId)
    (platform : users PLATFORM_FEE_USER_ID) (platformPays : charged PLATFORM_FEE_USER_ID)
    (makers : ∀ t ∈ ts, users t.makerUserId) : R s.db.holdings s'.db.holdings := by
  induction run with
  | nil s => exact respected.refl _
  | @cons s t u a as head tail ih =>
    obtain ⟨id, r, step, rfl⟩ := head
    obtain ⟨other, absent'⟩ := step.absent absent
    have maker := makers _ List.mem_cons_self
    rw [(tradeOf_maker r (s.take r) other).1] at maker
    obtain ⟨buyer, seller⟩ := tradeOf_users own maker
    have takerPays : charged (tradeOf order id r (s.take r)).takerUserId := by
      rw [(tradeOf_taker r (s.take r) other).1]
      exact pays
    have first := step.run.respected (tradeOf_marketId _ _ _ _) respected buyer seller platform
      takerPays platformPays
    exact respected.trans first
      (ih absent' (fun t member => makers t (List.mem_cons_of_mem _ member)))

end Respected

section Placement

variable {draft : OrderDraft} {ob ob' : OrderBook} {db db' : Db} {v : RestingOrders}
  {placed : Placed}

theorem placeOrderInner_fills (done : placeOrderInner draft ob db = (.ok (placed, db'), ob'))
    (shows : ob.Shows v) : ∃ o order order' left market market₁ v' db₁ db₂ db₃,
      o.SameOrder draft.accepted ∧ order.SameOrder draft.accepted ∧
      acceptOrder draft db = .ok (draft.accepted, market, db₁) ∧
      Run (fillSteps o) ⟨draft.quantity, v, market, db₁⟩ placed.trades
        ⟨left, v', market₁, db₂⟩ ∧
      finalizeOrder order 0 db₂ = .ok (order', db₃) ∧ db₃.flushMarket market₁ = .ok db' := by
  obtain ⟨⟨market, db₁, order, n, market₁, db₂, order', db₃, accepted, cleared, finalized,
    flushed, rfl⟩, _⟩ := placeOrderInner_phases done
  obtain ⟨v', fills, _⟩ := matchOrder_spec draft.accepted ob v shows.represents shows.exact
  have same := fills.sameOrder
  have steps := clearFills_run fills same cleared
  rw [draft.accepted_fields.2.2.2.1] at steps
  exact ⟨_, order, order', _, market, market₁, v', db₁, db₂, db₃, same.symm,
    (clearFills_sameOrder cleared).trans same.symm, accepted, steps, finalized, flushed⟩

theorem placeOrderInner_respected {users charged : UserId → Prop}
    {R : Holdings → Holdings → Prop} (respected : Respected users charged draft.marketId R)
    (done : placeOrderInner draft ob db = (.ok (placed, db'), ob')) (shows : ob.Shows v)
    (absent : v draft.id = none) (own : users draft.userId) (pays : charged draft.userId)
    (platform : users PLATFORM_FEE_USER_ID) (platformPays : charged PLATFORM_FEE_USER_ID)
    (makers : ∀ t ∈ placed.trades, users t.makerUserId) : R db.holdings db'.holdings := by
  obtain ⟨o, order, order', left, market, market₁, v', db₁, db₂, db₃, same, same', accepted, fills,
    finalized, flushed⟩ := placeOrderInner_fills done shows
  obtain ⟨sameId, sameMarket, sameUser, _⟩ := draft.accepted_fields
  obtain ⟨markets, _, rfl⟩ := Db.flushMarket_ok flushed
  rw [← same.id] at sameId
  have accepts := acceptOrder_respected respected own pays accepted
  have clears : R db₁.holdings db₂.holdings := by
    rw [← sameMarket, ← same.marketId] at respected
    rw [← sameUser, ← same.userId] at own pays
    rw [← sameId] at absent
    exact fills_respected fills absent respected own pays platform platformPays makers
  have finalizes : R db₂.holdings db₃.holdings := by
    rw [← sameMarket, ← same'.marketId] at respected
    rw [← sameUser, ← same'.userId] at own pays
    exact finalizeOrder_respected respected own pays finalized
  exact respected.trans accepts (respected.trans clears finalizes)

end Placement

end PredictionMarket
