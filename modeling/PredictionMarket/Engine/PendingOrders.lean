/- PredictionMarket/Engine/PendingOrders
   digest: The pending shares of the positions against the active sell orders, over whole sessions. -/

import PredictionMarket.Clearing.PendingShares
import PredictionMarket.Engine.PlaceFrames
import PredictionMarket.Engine.Sessions

set_option autoImplicit false
set_option relaxedAutoImplicit false

namespace PredictionMarket

open Library

def OrderRow.offers (r : OrderRow) (k : ShareKey) : Int :=
  if r.isActive = true then r.bookType.sold r.userId r.marketId r.remainingQuantity k else 0

namespace OrderRow

variable {r : OrderRow} {k : ShareKey}

private theorem offers_nonneg (ok : r.Check) (k : ShareKey) : 0 ≤ r.offers k := by
  unfold offers
  split
  · exact BookType.sold_nonneg ok.remaining_nonneg k
  · exact le_rfl

private theorem offers_of_active (active : r.isActive = true) :
    r.offers k = r.bookType.sold r.userId r.marketId r.remainingQuantity k := if_pos active

private theorem offers_of_inactive (ended : r.isActive = false) : r.offers k = 0 :=
  if_neg (by simp [ended])

private theorem offers_sub_filled (ok : r.Check) (active : r.isActive = true) {qty : Int}
    (enough : qty ≤ r.remainingQuantity) :
    r.offers k - (r.filled qty).offers k = r.bookType.sold r.userId r.marketId qty k := by
  have after : (r.filled qty).offers k =
      r.bookType.sold r.userId r.marketId (r.remainingQuantity - qty) k := by
    by_cases left : 0 < r.remainingQuantity - qty
    · rw [offers_of_active ((isActive_filled ok qty).mpr left), remaining_filled ok enough]
      rfl
    · have ended : (r.filled qty).isActive = false :=
        Bool.eq_false_iff.mpr (fun active => left ((isActive_filled ok qty).mp active))
      have used : r.remainingQuantity - qty = 0 := by omega
      rw [offers_of_inactive ended, used, BookType.sold_zero]
  rw [after, offers_of_active active, BookType.sold_sub]
  omega

end OrderRow

namespace Db

variable {db db' : Db} {id : OrderId} {k : ShareKey}

def offered (db : Db) (k : ShareKey) : Int := db.orders.sum (fun _ r => r.offers k)

/-- The shares that the active orders other than `id` have on offer. -/
def offeredBesides (db : Db) (id : OrderId) (k : ShareKey) : Int :=
  db.sumBesides (fun r => r.offers k) id

def PendingMatches (db : Db) : Prop := ∀ k, db.holdings.pendingOf k = db.offered k

private theorem offered_eq {row : OrderRow} (got : db.orders.get? id = some row) (k : ShareKey) :
    db.offered k = db.offeredBesides id k + row.offers k := by
  unfold offeredBesides sumBesides
  rw [got, Option.elim_some]
  exact (sub_add_cancel _ _).symm

private theorem offers_le_offered {row : OrderRow} (got : db.orders.get? id = some row)
    (k : ShareKey) :
    row.offers k ≤ db.offered k := by
  apply List.single_le_sum
  · intro x listed
    obtain ⟨e, member, rfl⟩ := List.mem_map.mp listed
    exact OrderRow.offers_nonneg (Table.check (Table.mem_iff.mp member)) k
  · exact List.mem_map.mpr ⟨(id, row), Table.mem_iff.mpr got, rfl⟩

private theorem PendingMatches.ends {row : OrderRow} {f : OrderRow → OrderRow}
    (pending : db.PendingMatches) (got : db.orders.get? id = some row)
    (updated : db.orders.update? id f = some db'.orders) (ended : (f row).isActive = false)
    (unpends : db.holdings.Unpends row.offers db'.holdings) : db'.PendingMatches := by
  intro k
  rw [unpends, pending]
  unfold offered
  rw [Table.sum_update? updated, got, Option.elim_some, OrderRow.offers_of_inactive ended]
  omega

private theorem PendingMatches.congr (pending : db.PendingMatches)
    (unpends : db.holdings.Unpends (fun _ => 0) db'.holdings) (orders : db'.orders = db.orders) :
    db'.PendingMatches := by
  intro k
  rw [unpends, pending, sub_zero]
  unfold offered
  rw [orders]

end Db

private theorem tradeOf_sold (o : Order) (id : OrderId) (r : Resting) (qty : Int) (k : ShareKey) :
    (tradeOf o id r qty).sold k = o.bookType.sold o.userId o.marketId qty k +
      r.bookType.sold r.userId o.marketId qty k := by
  unfold tradeOf
  cases r.direction with
  | sell => rfl
  | buy => exact add_comm _ _

section Fills

variable {order : Order} {start : Db} {s s' : FillState} {id : OrderId} {r : Resting}

private theorem FillStep.unpends (step : FillStep order s id r s') :
    s.db.holdings.Unpends (tradeOf order id r (s.take r)).sold s'.db.holdings := by
  obtain ⟨pnl, market₁, h₁, fee, h₂, nq, settled, charged, netted, buys, sells, _⟩ :=
    step.run.settled
  exact ((settleTrade_unpends settled buys sells).thenSame (collectFee_unpends charged)).thenSame
    (executeNetting_unpends netted)

/-- During the fills of `order`: the pending shares are the offers of the other
orders and what the order itself still wants to sell. -/
def Offering (order : Order) (s : FillState) : Prop :=
  ∀ k, s.db.holdings.pendingOf k = s.db.offeredBesides order.id k +
    order.bookType.sold order.userId order.marketId s.wanted k

private theorem Offering.step (step : FillStep order s id r s')
    (funding : Funding order start False s)
    (offering : Offering order s) : Offering order s' := by
  intro k
  have other := funding.ne step.here
  have offers := step.sumBesides other (fun row => row.offers k)
  rcases funding.backs id r step.here with ⟨_, lost⟩ | ⟨row, got, home, active, enough, view⟩
  · exact lost.elim
  · have takes : s.take r ≤ row.remainingQuantity := le_trans (s.take_le r) enough
    have sold := OrderRow.offers_sub_filled (k := k) (Table.check got) active takes
    have user : row.userId = r.userId := congrArg Resting.userId view
    have type : row.bookType = r.bookType := congrArg Resting.bookType view
    rw [got, Option.elim_some, sold, home, user, type] at offers
    have before := offering k
    unfold Db.offeredBesides at before ⊢
    rw [step.unpends k, tradeOf_sold, offers, step.wanted, BookType.sold_sub, before]
    omega

private theorem fills_offering {ts : List TradeResult} (run : Run (fillSteps order) s ts s')
    (funding : Funding order start False s) (offering : Offering order s) : Offering order s' := by
  induction run with
  | nil s => exact offering
  | cons head tail ih =>
    obtain ⟨id, r, step, _⟩ := head
    exact ih (funding.step step) (offering.step step funding)

end Fills

private theorem checkAndFreeze_shifts {column : Holding → Int} {p : Int}
    (offers : ∀ (c : Holding) qty,
      column { c with pendingSell := c.pendingSell + qty } = column c + p * qty)
    {order order' : Order} {db db' : Db} (done : checkAndFreeze order db = .ok (order', db')) :
    db.holdings.Shifts column
      (fun k => p * order.bookType.sold order.userId order.marketId order.quantity k)
      db'.holdings := by
  rcases checkAndFreeze_statement done with ⟨cash, amount, moved⟩ |
    ⟨side, type, ⟨row, got⟩, moved⟩
  · exact (Holdings.Shifts.of_positions (Holdings.unfreezeDebit_positions moved)).congr
      (fun k => by rw [BookType.sold_of_cash cash k, mul_zero])
  · refine (Holdings.modifyPosition_shifts (fun c => offers c order.quantity) moved
      (fun none => by rw [got] at none; cases none)).congr (fun k => ?_)
    rw [type, BookType.sold_sellType, mul_ite, mul_zero]

theorem acceptOrder_shifts {column : Holding → Int} {p : Int}
    (offers : ∀ (c : Holding) qty,
      column { c with pendingSell := c.pendingSell + qty } = column c + p * qty)
    {draft : OrderDraft} {db db' : Db} {order : Order} {market : MarketState}
    (done : acceptOrder draft db = .ok (order, market, db')) :
    db.holdings.Shifts column
      (fun k => p * draft.accepted.bookType.sold draft.userId draft.marketId draft.quantity k)
      db'.holdings := by
  obtain ⟨db₁, frozen, same⟩ := acceptOrder_statement done
  rw [same]
  exact checkAndFreeze_shifts offers frozen

private theorem acceptOrder_unpends {draft : OrderDraft} {db db' : Db} {order : Order}
    {market : MarketState} (done : acceptOrder draft db = .ok (order, market, db')) :
    db.holdings.Unpends (draft.accepted.bookType.sold draft.userId draft.marketId (-draft.quantity))
      db'.holdings := by
  intro k
  have offers : ∀ (c : Holding) (qty : Int), Holding.pendingSell { c with
      pendingSell := c.pendingSell + qty } = Holding.pendingSell c + 1 * qty := fun c qty => by simp
  have shifted : db'.holdings.pendingOf k = db.holdings.pendingOf k +
      1 * draft.accepted.bookType.sold draft.userId draft.marketId draft.quantity k :=
    acceptOrder_shifts offers done k
  rw [shifted, ← zero_sub draft.quantity, BookType.sold_sub, BookType.sold_zero]
  omega

private theorem unfreezeRemainder_unpends {order : Order} {db db' : Db}
    (done : unfreezeRemainder order db = .ok db')
    (asset : order.frozenAssetType = order.bookType.frozenAsset)
    (nonneg : 0 ≤ order.remainingQuantity)
    (covered : ∀ k, order.bookType.sold order.userId order.marketId order.remainingQuantity k ≤
      db.holdings.pendingOf k) :
    db.holdings.Unpends (order.bookType.sold order.userId order.marketId order.remainingQuantity)
      db'.holdings := by
  rcases unfreezeRemainder_statement done with ⟨funds, moved⟩ | ⟨side, shares, moved⟩
  · have cash := BookType.frozenAsset_eq_funds.mp (asset.symm.trans funds)
    exact (Holdings.Unpends.of_positions (Holdings.unfreezeDebit_positions moved)).congr
      (fun k => (BookType.sold_of_cash cash k).symm)
  · have type := BookType.eq_sellType (asset.symm.trans shares)
    have enough := covered ⟨order.userId, order.marketId, side⟩
    rw [type, BookType.sold_sellType, if_pos rfl] at enough
    rw [type]
    exact Holdings.takePending_unpends moved nonneg enough

section Placement

variable {draft : OrderDraft} {ob ob' : OrderBook} {db db' db₁ db₂ : Db} {v : RestingOrders}
  {market market₁ : MarketState} {order order' : Order} {row : OrderRow} {n : Int}

private theorem clearFills_offering
    (accepted : acceptOrder draft db = .ok (draft.accepted, market, db₁))
    (cleared : clearFills (matchOrder draft.accepted ob).incoming
      (matchOrder draft.accepted ob).trades 0 market db₁ = .ok (order, n, market₁, db₂))
    (shows : ob.Shows v) (absent : v draft.id = none) (backs : db.Backs False draft.marketId v)
    (funded : db.Funded) (pending : db.PendingMatches) (k : ShareKey) :
    db₂.holdings.pendingOf k = db₂.offeredBesides draft.id k +
      draft.accepted.bookType.sold draft.userId draft.marketId
        (matchOrder draft.accepted ob).incoming.remainingQuantity k := by
  obtain ⟨v', fills, _⟩ := matchOrder_spec draft.accepted ob v shows.represents shows.exact
  generalize matchOrder draft.accepted ob = matched at *
  have same := fills.sameOrder
  obtain ⟨id', market', user', wants, _⟩ := draft.accepted_fields
  rw [same.id] at id'
  rw [same.marketId] at market'
  rw [same.userId] at user'
  have steps := clearFills_run fills same cleared
  have ok := acceptOrder_ok accepted
  have start := PlaceRun.funding_start draft.accepted.remainingQuantity ok id' market' absent
    backs funded
  -- at the start, the order wants all that its freeze put on offer
  have offering : Offering matched.incoming ⟨draft.accepted.remainingQuantity, v, market, db₁⟩ := by
    intro k
    obtain ⟨fresh, _, added⟩ := Table.insert?_eq_some ok.inserted
    have others : db₁.offeredBesides draft.id k = db.offered k := by
      unfold Db.offeredBesides Db.sumBesides
      rw [added, Table.sum_add, Table.get?_add, if_pos rfl, Option.elim_some]
      exact add_sub_cancel_right _ _
    have froze := acceptOrder_unpends accepted k
    rw [pending k, ← zero_sub, BookType.sold_sub, BookType.sold_zero] at froze
    simp only [id', market', user', ← same.bookType, wants, others]
    omega
  have after := fills_offering steps start offering k
  simpa only [id', market', user', ← same.bookType] using after

private theorem placeOrderInner_pending {placed : Placed}
    (done : placeOrderInner draft ob db = (.ok (placed, db'), ob')) (shows : ob.Shows v)
    (absent : v draft.id = none) (backs : db.Backs False draft.marketId v) (funded : db.Funded)
    (pending : db.PendingMatches) : db'.PendingMatches := by
  obtain ⟨⟨market, db₁, order, n, market₁, db₂, order', db₃, accepted, fills, finalized, flushed,
    _⟩, _⟩ := placeOrderInner_phases done
  obtain ⟨v', row, _, cleared⟩ :=
    clearFills_cleared (acceptOrder_ok accepted) fills shows absent backs funded
  have offering := clearFills_offering accepted fills shows absent backs funded pending
  obtain ⟨markets, _, rfl⟩ := Db.flushMarket_ok flushed
  have taker := cleared.taker
  obtain ⟨sameId, sameUser, sameAsset, _, sameLeft, _⟩ := cleared.order_eq
  have offers : ∀ k, row.offers k = draft.accepted.bookType.sold draft.userId draft.marketId
      (matchOrder draft.accepted ob).incoming.remainingQuantity k := by
    intro k
    by_cases left : 0 < (matchOrder draft.accepted ob).incoming.remainingQuantity
    · rw [OrderRow.offers_of_active (taker.active.mpr left), taker.bookType, taker.userId,
        taker.marketId, taker.remaining]
    · have nonneg := cleared.nonneg
      have used : (matchOrder draft.accepted ob).incoming.remainingQuantity = 0 := by omega
      rw [OrderRow.offers_of_inactive (Bool.eq_false_iff.mpr (fun active =>
        left (taker.active.mp active))), used, BookType.sold_zero]
  have filled : db₂.PendingMatches := by
    intro k
    rw [offering k, ← offers k, ← Db.offered_eq cleared.got]
  cases finalizeOrder_run finalized with
  | partly | idle => exact filled
  | expired left ioc released updated =>
    have same := (clearFills_sameOrder fills).trans cleared.incoming.symm
    have kind : order.bookType = row.bookType ∧ order.marketId = row.marketId :=
      ⟨same.bookType.trans taker.bookType.symm,
        same.marketId.trans (draft.accepted_fields.2.1.trans taker.marketId.symm)⟩
    have sold : ∀ k, order.bookType.sold order.userId order.marketId order.remainingQuantity k =
        row.offers k := by
      intro k
      rw [OrderRow.offers_of_active (taker.active.mpr (sameLeft ▸ left)), taker.remaining, kind.1,
        kind.2, sameUser, sameLeft]
    have unpends := unfreezeRemainder_unpends released
      (by rw [sameAsset, kind.1]; exact taker.funded.asset) left.le (fun k => by
        rw [sold, filled k]
        exact Db.offers_le_offered cleared.got k)
    obtain ⟨h, ledger, _, rfl⟩ := unfreezeRemainder_ok released
    obtain ⟨orders, marked, rfl⟩ := Db.updateStatus_ok updated
    have marked' : db₂.orders.update? draft.id _ = some orders := sameId ▸ marked
    exact filled.ends cleared.got marked' rfl (unpends.congr sold)

end Placement

private theorem Db.Ends.pending {db db' : Db} {id : OrderId} {row : OrderRow}
    (ends : db.Ends id row db')
    (active : row.isActive = true) (funded : db.Funded) (pending : db.PendingMatches) :
    db'.PendingMatches := by
  obtain ⟨got, order, done⟩ := ends
  have ok := Table.check got
  have left : (rowToOrder id row).remainingQuantity = row.remainingQuantity :=
    ok.quantity_sub_filled
  have sold : ∀ k, row.bookType.sold row.userId row.marketId
      (rowToOrder id row).remainingQuantity k = row.offers k := by
    intro k
    rw [OrderRow.offers_of_active active, left]
  obtain ⟨db₁, db₂, released, marked, rfl⟩ := cancelInSavepoint_saved done
  have unpends := unfreezeRemainder_unpends released (funded id row got).asset
    (by rw [left]; exact ok.remaining_nonneg) (fun k => by
      rw [pending k]
      exact (sold k).trans_le (Db.offers_le_offered got k))
  obtain ⟨h, ledger, _, rfl⟩ := unfreezeRemainder_ok released
  obtain ⟨orders, updated, rfl⟩ := Db.updateStatus_ok marked
  exact pending.ends got updated rfl (unpends.congr sold)

section Batch

variable {db db' : Db} {marketId : MarketId} {userId : UserId} {k : ShareKey}

private theorem markCancelled_offered (rows : List (OrderId × OrderRow))
    (nodup : (rows.map Prod.fst).Nodup) (stored : ∀ e ∈ rows, db.orders.get? e.1 = some e.2)
    (done : MatchingEngine.markCancelled (rows.map Prod.fst) db = .ok db') (k : ShareKey) :
    db'.offered k = db.offered k - (rows.map (fun e => e.2.offers k)).sum := by
  induction rows generalizing db with
  | nil =>
    simp only [MatchingEngine.markCancelled, List.map_nil, List.foldlM_nil, pure_eq_ok] at done
    simp [done]
  | cons e rows ih =>
    simp only [MatchingEngine.markCancelled, List.map_cons, List.foldlM_cons, bind_eq_ok] at done
    obtain ⟨db₁, first, rest⟩ := done
    rw [List.map_cons, List.nodup_cons] at nodup
    split at first
    · next orders updated =>
      obtain rfl := Except.ok.inj first
      have later := ih nodup.2 (fun a member => by
        have other : a.1 ≠ e.1 := fun same =>
          nodup.1 (same ▸ List.mem_map_of_mem (f := Prod.fst) member)
        rw [Table.get?_update? updated, if_neg other]
        exact stored a (List.mem_cons_of_mem _ member)) rest
      rw [later, List.map_cons, List.sum_cons]
      unfold Db.offered
      rw [Table.sum_update? updated, stored e List.mem_cons_self, Option.elim_some,
        OrderRow.offers_of_inactive (r := { e.2 with status := .cancelled }) rfl]
      omega
    · cases first

private theorem totalFrozen_eq (rows : List (OrderId × OrderRow)) (side : OriginalSide)
    (mine : ∀ e ∈ rows, e.2.userId = userId ∧ e.2.marketId = marketId ∧ e.2.isActive = true)
    (funded : ∀ e ∈ rows, e.2.Funded) :
    MatchingEngine.totalFrozen side.sellType.frozenAsset rows =
      (rows.map (fun e => e.2.offers ⟨userId, marketId, side⟩)).sum := by
  refine MatchingEngine.totalFrozen_eq_sum (fun r => r.offers ⟨userId, marketId, side⟩)
    (fun e member => ?_)
  obtain ⟨user, market, active⟩ := mine e member
  have own := funded e member
  have kinds :
      e.2.frozenAssetType = side.sellType.frozenAsset ↔ e.2.bookType = side.sellType := by
    rw [own.asset]
    cases e.2.bookType <;> cases side <;> simp [BookType.frozenAsset, OriginalSide.sellType]
  rw [OrderRow.offers_of_active active]
  unfold BookType.sold
  by_cases sells : e.2.bookType = side.sellType
  · have amount : e.2.frozenAmount = e.2.remainingQuantity := by
      rw [own.amount active, BookType.frozenFor, sells, side.sellType_paysCash]
      rfl
    simp [kinds.mpr sells, sells, user, market, amount]
  · simp [mt kinds.mp sells, sells]

private theorem bulkUnfreeze_unpends {funds yes no : Int} {h h' : Holdings}
    (done : MatchingEngine.bulkUnfreeze marketId userId funds yes no h = .ok h')
    (yesNonneg : 0 ≤ yes) (noNonneg : 0 ≤ no)
    (yesCovered : yes ≤ h.pendingOf ⟨userId, marketId, .yes⟩)
    (noCovered : no ≤ h.pendingOf ⟨userId, marketId, .no⟩) :
    h.Unpends (fun k => if k.userId = userId ∧ k.marketId = marketId then
      (match k.side with | .yes => yes | .no => no) else 0) h' := by
  have released : ∀ {side : OriginalSide} {qty : Int} {g g' : Holdings}, 0 ≤ qty →
      qty ≤ g.pendingOf ⟨userId, marketId, side⟩ →
      (if 0 < qty then g.addPending side userId marketId (-qty) else pure g :
        Except Err Holdings) = .ok g' →
      g.Unpends (side.sellType.sold userId marketId qty) g' := by
    intro side qty g g' nonneg covered ran
    split at ran
    · exact Holdings.takePending_unpends ran nonneg covered
    · next idle =>
      have zero : qty = 0 := by omega
      rw [zero]
      exact (Holdings.Unpends.of_positions (by rw [pure_eq_ok.mp ran])).congr
        (fun k => (BookType.sold_zero k).symm)
  simp only [MatchingEngine.bulkUnfreeze, bind_eq_ok] at done
  obtain ⟨h₁, cash, h₂, yesRan, noRan⟩ := done
  have first : h.Unpends (fun _ => 0) h₁ := by
    apply Holdings.Unpends.of_positions
    split at cash
    · exact Holdings.unfreezeDebit_positions cash
    · rw [pure_eq_ok.mp cash]
  have second := released yesNonneg
    (by rw [first ⟨userId, marketId, .yes⟩, sub_zero]; exact yesCovered) yesRan
  have third := released noNonneg (by
    rw [second ⟨userId, marketId, .no⟩, first ⟨userId, marketId, .no⟩, BookType.sold_sellType]
    simpa using noCovered) noRan
  refine ((first.trans second).trans third).congr (fun k => ?_)
  obtain ⟨user, market, side⟩ := k
  rw [BookType.sold_sellType, BookType.sold_sellType]
  by_cases here : user = userId ∧ market = marketId
  · cases side <;> simp [here]
  · have other : ∀ s : OriginalSide, ¬ (user = userId ∧ market = marketId ∧ side = s) :=
      fun s all => here ⟨all.1, all.2.1⟩
    simp [here, other]

private theorem batch_pending {scope : CancelScope}
    (step : moveStep db (.batch marketId userId scope) db')
    (funded : db.Funded) (pending : db.PendingMatches) : db'.PendingMatches := by
  obtain ⟨db₁, h, marked, freed, rfl⟩ := step
  generalize rowsEq : MatchingEngine.batchRows marketId userId scope db = rows at marked freed
  have chosen : ∀ e ∈ rows, db.orders.get? e.1 = some e.2 ∧ e.2.userId = userId ∧
      e.2.marketId = marketId ∧ e.2.isActive = true := by
    intro e member
    rw [← rowsEq] at member
    obtain ⟨stored, owner, home, active, _⟩ := MatchingEngine.mem_batchRows.mp member
    exact ⟨stored, owner, home, active⟩
  have nodup : (rows.map Prod.fst).Nodup := by
    rw [← rowsEq]
    exact db.orders.nodup.sublist (List.filter_sublist.map _)
  have offers := markCancelled_offered rows nodup (fun e member => (chosen e member).1) marked
  have totals : ∀ side : OriginalSide,
      MatchingEngine.totalFrozen side.sellType.frozenAsset rows =
        (rows.map (fun e => e.2.offers ⟨userId, marketId, side⟩)).sum :=
    fun side => totalFrozen_eq rows side (fun e member => (chosen e member).2)
      (fun e member => funded e.1 e.2 (chosen e member).1)
  have nonneg : ∀ side : OriginalSide,
      0 ≤ MatchingEngine.totalFrozen side.sellType.frozenAsset rows := by
    intro side
    rw [totals]
    apply sum_map_nonneg
    intro e member
    exact OrderRow.offers_nonneg (Table.check (chosen e member).1) _
  have covered : ∀ side : OriginalSide,
      MatchingEngine.totalFrozen side.sellType.frozenAsset rows ≤
        db.holdings.pendingOf ⟨userId, marketId, side⟩ := by
    intro side
    have after : 0 ≤ db₁.offered ⟨userId, marketId, side⟩ := by
      apply sum_map_nonneg
      intro e member
      exact OrderRow.offers_nonneg (Table.check (Table.mem_iff.mp member)) _
    rw [offers] at after
    rw [pending, totals]
    omega
  have unpends := bulkUnfreeze_unpends freed (nonneg .yes) (nonneg .no) (covered .yes)
    (covered .no)
  intro k
  have kept : db.offered k - (rows.map (fun e => e.2.offers k)).sum =
      Db.offered { db₁ with holdings := h } k := (offers k).symm
  rw [unpends k, pending k, ← kept]
  obtain ⟨user, market, side⟩ := k
  by_cases here : user = userId ∧ market = marketId
  · obtain ⟨rfl, rfl⟩ := here
    rw [← totals]
    cases side <;> simp [OriginalSide.sellType, BookType.frozenAsset]
  · have none : (rows.map (fun e => e.2.offers ⟨user, market, side⟩)).sum = 0 := by
      apply List.sum_eq_zero
      intro x listed
      obtain ⟨e, member, rfl⟩ := List.mem_map.mp listed
      obtain ⟨_, owner, home, active⟩ := chosen e member
      rw [OrderRow.offers_of_active active, owner, home]
      exact if_neg (fun all => here ⟨all.1, all.2.1⟩)
    simp [here, none]

end Batch

section Privileged

variable {userId : UserId} {marketId : MarketId} {quantity : Int} {db db' : Db}

private theorem Minted.pending (minted : Minted userId marketId quantity db db')
    (pending : db.PendingMatches) : db'.PendingMatches := by
  obtain ⟨h, _, debit, pairs⟩ := minted.paid
  have added : h.Unpends (fun _ => 0) db'.holdings := by
    intro k
    unfold Holdings.pendingOf
    rw [Table.get?_upsert? (Holdings.addPairs_ok pairs).2, sub_zero]
    split
    · next here =>
      rw [here]
      cases h.positions.get? (userId, marketId) <;> cases k.side <;> rfl
    · rfl
  exact pending.congr ((Holdings.Unpends.of_positions
    (Holdings.addBalance_positions debit)).thenSame added) (by rw [minted.rest])

private theorem Burned.pending (burned : Burned userId marketId quantity db db')
    (pending : db.PendingMatches) : db'.PendingMatches := by
  obtain ⟨row, h, got, _, net, credit⟩ := burned.paid
  have netted := Holdings.updatePosition_unpends (x := fun _ => 0) net
    (fun r side _ => by cases side <;> simp [PositionRow.netted, PositionRow.holding])
    (fun _ _ => rfl)
  exact pending.congr ((netted.congr (fun k => ite_self 0)).thenSame
    (.of_positions (Holdings.addBalance_positions credit))) (by rw [burned.rest])

end Privileged

namespace AdminService

variable {marketId : MarketId} {outcome : OriginalSide} {db db' : Db}

private theorem cancelAll_pending (l : List (OrderId × OrderRow)) (nodup : (l.map Prod.fst).Nodup)
    (stored : ∀ e ∈ l, db.orders.get? e.1 = some e.2 ∧ e.2.marketId = marketId ∧
      e.2.isActive = true ∧ e.2.Funded)
    (pending : db.PendingMatches) (done : l.foldlM (cancelAndUnfreeze marketId) db = .ok db') :
    db'.PendingMatches ∧ ∀ j row, db'.orders.get? j = some row → row.isActive = true →
      j ∉ l.map Prod.fst ∧ db.orders.get? j = some row := by
  induction l generalizing db with
  | nil =>
    simp only [List.foldlM_nil, pure_eq_ok] at done
    subst done
    exact ⟨pending, fun j row got _ => ⟨by simp, got⟩⟩
  | cons e l ih =>
    simp only [List.foldlM_cons, bind_eq_ok] at done
    obtain ⟨db₁, first, rest⟩ := done
    rw [List.map_cons, List.nodup_cons] at nodup
    obtain ⟨got, home, active, funded⟩ := stored e List.mem_cons_self
    obtain ⟨_, updated, _⟩ := cancelAndUnfreeze_ok first
    have rows := Table.get?_update? updated
    have later : ∀ a ∈ l, a.1 ≠ e.1 := fun a member same =>
      nodup.1 (same ▸ List.mem_map_of_mem (f := Prod.fst) member)
    have unpends : db.holdings.Unpends e.2.offers db₁.holdings := by
      simp only [cancelAndUnfreeze, bind_eq_ok] at first
      obtain ⟨db₂, marked, moved⟩ := first
      split at marked
      · obtain rfl := Except.ok.inj marked
        -- the release is that of the order that the row holds
        have sold : ∀ k, e.2.offers k =
            e.2.bookType.sold e.2.userId marketId e.2.remainingQuantity k := by
          intro k
          rw [OrderRow.offers_of_active active, home]
        have covered : ∀ side, e.2.bookType = side.sellType →
            e.2.remainingQuantity ≤ db.holdings.pendingOf ⟨e.2.userId, marketId, side⟩ := by
          intro side type
          rw [pending]
          have least := Db.offers_le_offered got ⟨e.2.userId, marketId, side⟩
          rwa [sold, type, BookType.sold_sellType, if_pos rfl] at least
        have nonneg := (Table.check got).remaining_nonneg
        obtain ⟨h, freed, rfl⟩ := Db.onHoldings_ok moved
        refine Holdings.Unpends.congr ?_ (fun k => (sold k).symm)
        rw [funded.asset] at freed
        cases type : e.2.bookType with
        | nativeBuy | syntheticSell =>
          rw [type] at freed
          exact (Holdings.Unpends.of_positions (Holdings.unfreezeDebit_positions freed)).congr
            (fun k => (BookType.sold_of_cash rfl k).symm)
        | nativeSell =>
          rw [type] at freed
          exact @Holdings.takePending_unpends _ _ _ _ .yes _ freed nonneg (covered .yes type)
        | syntheticBuy =>
          rw [type] at freed
          exact @Holdings.takePending_unpends _ _ _ _ .no _ freed nonneg (covered .no type)
      · cases marked
    obtain ⟨kept, others⟩ := ih nodup.2 (fun a member => by
      rw [rows, if_neg (later a member)]
      exact stored a (List.mem_cons_of_mem _ member)) (pending.ends got updated rfl unpends) rest
    refine ⟨kept, fun j row found rests => ?_⟩
    obtain ⟨absent, before⟩ := others j row found rests
    rw [rows] at before
    split at before
    · obtain ⟨r, _, rfl⟩ := Option.map_eq_some_iff.mp before
      cases rests
    · next other =>
      exact ⟨by rw [List.map_cons, List.mem_cons, not_or]; exact ⟨other, absent⟩, before⟩

private theorem settleMarket_unpends (done : settleMarket marketId outcome db = .ok db')
    (free : ∀ k : ShareKey, k.marketId = marketId → db.holdings.pendingOf k = 0) :
    db.holdings.Unpends (fun _ => 0) db'.holdings := by
  obtain ⟨_, paid, _⟩ := settleMarket_ok done
  refine foldlM_preserves (P := fun h => db.holdings.Unpends (fun _ => 0) h) ?_ paid
    (.of_positions rfl)
  intro h e h' _ step same
  simp only [payAndClear, bind_eq_ok] at step
  obtain ⟨h₁, credited, cleared⟩ := step
  have positions : h₁.positions = h.positions := by
    split at credited
    · exact Holdings.addBalance_positions credited
    · rw [pure_eq_ok.mp credited]
  intro k
  unfold Holdings.pendingOf
  rw [Table.get?_update? (Holdings.updatePosition_ok cleared).2, positions]
  by_cases here : (k.userId, k.marketId) = (e.1, marketId)
  · have zero := free k (congrArg Prod.snd here)
    rw [if_pos here]
    unfold Holdings.pendingOf at zero
    rw [zero]
    cases h.positions.get? (e.1, marketId) with
    | none => rfl
    | some r => cases k.side <;> rfl
  · rw [if_neg here]
    exact same k

private theorem resolve_pending (done : resolveInTransaction marketId outcome db = .ok db')
    (funded : db.Funded) (pending : db.PendingMatches) : db'.PendingMatches := by
  obtain ⟨db₁, cancelled, settled⟩ := resolveInTransaction_ok done
  have nodup : ((openOrders marketId db).map Prod.fst).Nodup :=
    db.orders.nodup.sublist (List.filter_sublist.map _)
  obtain ⟨matched, active⟩ := cancelAll_pending _ nodup (fun e member => by
    obtain ⟨got, home, rests⟩ := mem_openOrders.mp member
    exact ⟨got, home, rests, funded e.1 e.2 got⟩) pending cancelled
  -- no order of the market is active any more
  have free : ∀ k : ShareKey, k.marketId = marketId → db₁.holdings.pendingOf k = 0 := by
    intro k home
    rw [matched]
    apply Table.sum_eq_zero
    intro j row got
    by_cases rests : row.isActive = true
    · obtain ⟨unscanned, before⟩ := active j row got rests
      rw [OrderRow.offers_of_active rests]
      refine if_neg (fun all => unscanned ?_)
      exact List.mem_map.mpr ⟨(j, row), mem_openOrders.mpr
        ⟨before, all.2.1.symm.trans home, rests⟩, rfl⟩
    · exact OrderRow.offers_of_inactive (by simpa using rests)
  exact matched.congr (settleMarket_unpends settled free) (settleMarket_ok settled).1

end AdminService

private theorem moveStep_pending {db db' : Db} {m : Move} (step : moveStep db m db')
    (plain : ∀ id, m ≠ .retired id) (funded : db.Funded) (pending : db.PendingMatches) :
    db'.PendingMatches := by
  cases m with
  | placed draft =>
    obtain ⟨ob, ob', placed, v, done, shows, absent, backs⟩ := step
    exact placeOrderInner_pending done shows absent backs funded pending
  | cancelled id =>
    obtain ⟨row, active, ends⟩ := step
    exact ends.pending active funded pending
  | retired id => exact absurd rfl (plain id)
  | batch marketId userId scope => exact batch_pending step funded pending
  | privileged call =>
    rcases step with minted | burned
    · exact minted.pending pending
    · exact burned.pending pending
  | resolved marketId outcome => exact AdminService.resolve_pending step funded pending

theorem sessionStep_pending {s s' : Session} {op : SessionOp} (step : sessionStep s op s')
    (plain : op.isReplace = false) (acc : s.world.Accounted False)
    (pending : s.world.db.PendingMatches) : s'.world.db.PendingMatches := by
  have moved : ∀ m : Move, (∀ id, m ≠ .retired id) → op.moves s.world.nextId = [m] →
      s'.world.db.PendingMatches := by
    intro m other only
    rcases (sessionStep_moves step acc).2 with same | moves
    · rw [same]
      exact pending
    · rw [only] at moves
      cases moves with
      | cons head tail =>
        cases tail
        exact moveStep_pending head other acc.funded pending
  cases op with
  | replace => cases plain
  | _ => exact moved _ (fun _ same => by cases same) rfl

/-- Share freezes match the orders: over every session without replacements, each
pending column is what remains of the active orders that sell those shares, and no
position has more shares on offer than it holds. -/
theorem share_freezes_match {s s' : Session} {ops : List SessionOp} (opening : s.Opening)
    (idle : ∀ e ∈ s.world.db.holdings.positions.rows,
      e.2.yes.pendingSell = 0 ∧ e.2.no.pendingSell = 0)
    (plain : ∀ op ∈ ops, op.isReplace = false) (run : Run sessionStep s ops s') :
    (∀ userId marketId side, s'.world.db.holdings.pendingOf ⟨userId, marketId, side⟩ =
      ((s'.world.db.orders.rows.filter (fun e => e.2.userId = userId ∧ e.2.marketId = marketId ∧
        e.2.isActive ∧ e.2.bookType = side.sellType)).map (fun e => e.2.remainingQuantity)).sum) ∧
    ∀ key row side, s'.world.db.holdings.positions.get? key = some row →
      0 ≤ (row.holding side).pendingSell ∧
        (row.holding side).pendingSell ≤ (row.holding side).volume := by
  have start : s.world.db.PendingMatches := by
    intro k
    have none : s.world.db.offered k = 0 := by
      unfold Db.offered Table.sum
      rw [opening.orders]
      rfl
    rw [none]
    unfold Holdings.pendingOf
    cases got : s.world.db.holdings.positions.get? (k.userId, k.marketId) with
    | none => rfl
    | some r =>
      obtain ⟨yes, no⟩ := idle _ (Table.mem_iff.mpr got)
      cases side : k.side
      · exact yes
      · exact no
  have kept : s'.world.db.PendingMatches := by
    have acc := opening.accounted
    clear opening idle
    induction run with
    | nil s => exact start
    | cons head tail ih =>
      exact ih (fun op later => plain op (List.mem_cons_of_mem _ later))
        (sessionStep_pending head (plain _ List.mem_cons_self) acc start)
        (sessionStep_moves head acc).1
  constructor
  · intro userId marketId side
    rw [kept, Table.sum_filter]
    unfold Db.offered OrderRow.offers BookType.sold
    congr 1
    funext j r
    simp only [decide_eq_true_eq]
    rw [← ite_and]
    congr 1
    grind
  · intro key row side got
    have ok := Table.check got
    cases side
    · exact ok.1.2.2
    · exact ok.2.2.2

/-- Of four shares on offer, one is sold: three stay pending and three remain. -/
theorem partial_sale_keeps_three_pending :
    let s' := (pairMarket.next sellFourYes).next buyOneYes
    s'.world.db.holdings.pendingOf ⟨"alice", "m", .yes⟩ = 3 ∧
      ((s'.world.db.orders.rows.filter (fun e => e.2.userId = "alice" ∧ e.2.marketId = "m" ∧
        e.2.isActive ∧ e.2.bookType = .nativeSell)).map (fun e => e.2.remainingQuantity)).sum =
        3 := by
  intro s'
  have run : Run sessionStep pairMarket [sellFourYes, buyOneYes] s' := .cons rfl (.single rfl)
  have matched := (share_freezes_match pairMarket_opening (by decide) (by decide) run).1
    "alice" "m" .yes
  have three : s'.world.db.holdings.pendingOf ⟨"alice", "m", .yes⟩ = 3 := by decide +kernel
  exact ⟨three, matched ▸ three⟩

end PredictionMarket
