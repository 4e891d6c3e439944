/- PredictionMarket/Engine/MarketHealth
   digest: No request of a session breaks an equation of a stored market or moves its pnl pool. -/

import PredictionMarket.Engine.Bystanders
import PredictionMarket.Engine.ResolutionPayout

set_option autoImplicit false
set_option relaxedAutoImplicit false

namespace PredictionMarket

open Library

namespace Holdings

variable {h h' h'' : Holdings} {m : MarketId}

/-- The shares of a market and their cost sums are as they were. -/
structure SameMarket (m : MarketId) (h h' : Holdings) : Prop where
  volumes : ∀ side, h'.volumeSum m side = h.volumeSum m side
  cost : h'.totalCost m = h.totalCost m

namespace SameMarket

theorem of_positions (same : h'.positions = h.positions) : SameMarket m h h' := by
  constructor
  · intro side
    exact volumeSum_congr same m side
  · rw [totalCost_eq, totalCost_eq, columnSum_congr same]

theorem trans (first : SameMarket m h h') (rest : SameMarket m h' h'') : SameMarket m h h'' := by
  constructor
  · intro side
    rw [rest.volumes, first.volumes]
  · rw [rest.cost, first.cost]

private theorem updatePosition {userId : UserId} {i : MarketId} {f : PositionRow → PositionRow}
    (done : h.updatePosition userId i f = .ok h')
    (kept : i = m → ∀ r, (∀ side, ((f r).holding side).volume = (r.holding side).volume) ∧
      (f r).total Holding.costSum = r.total Holding.costSum) : SameMarket m h h' := by
  have moved := (updatePosition_ok done).2
  constructor
  · intro side
    rw [volumeSum, Table.sum_update? moved]
    by_cases here : i = m
    · cases h.positions.get? (userId, i) <;> simp [volumeSum, here, (kept here _).1]
    · cases h.positions.get? (userId, i) <;> simp [volumeSum, here]
  · rw [totalCost, Table.sum_update? moved]
    by_cases here : i = m
    · cases h.positions.get? (userId, i) <;> simp [totalCost, here, (kept here _).2]
    · cases h.positions.get? (userId, i) <;> simp [totalCost, here]

private theorem addPending {side : OriginalSide} {userId : UserId} {i : MarketId} {qty : Int}
    (done : h.addPending side userId i qty = .ok h') : SameMarket m h h' := by
  refine updatePosition done (fun _ r => ⟨fun s => ?_, ?_⟩)
  · cases side <;> cases s <;> rfl
  · rw [PositionRow.total_modify, sub_add_cancel]

end SameMarket

private theorem sameMarket_respected {i : MarketId} (away : i ≠ m) :
    Respected (fun _ => True) (fun _ => True) i (SameMarket m) where
  refl _ := .of_positions rfl
  trans := SameMarket.trans
  debit _ _ done := .of_positions (unfreezeDebit_positions done)
  credit _ _ done := .of_positions (addBalance_positions done)
  buy _ done := by
    constructor
    · intro side
      rw [volumeSum_addVolume done, if_neg away, add_zero]
    · have cost := columnSum_addVolume (rfl : Holding.empty.costSum = 0)
        (fun _ => rfl) done m
      rw [totalCost_eq, cost, if_neg away, add_zero, totalCost_eq]
  update _ done := .updatePosition done (fun here => absurd here away)

end Holdings

section Clearing

variable {trade : TradeResult} {market market' : MarketState} {h h' : Holdings}

private theorem SharesBacked.congr (backed : SharesBacked (market, h))
    (same : h.SameMarket market.id h') :
    SharesBacked (market, h') :=
  ⟨backed.yes.trans (same.volumes .yes).symm, backed.no.trans (same.volumes .no).symm,
    backed.pairs, backed.reserve⟩

/-- Reserve without the pnl pool, against all cost sums. The pool falls by a
profit while the cost sums rise by it, so this is what clearing conserves. -/
def mirrored (s : ClearingState) : Int :=
  s.1.reserveBalance - s.1.pnlPool - s.2.totalCost s.1.id

private theorem mirrored_eq (s : ClearingState) : mirrored s = imbalance s - 2 * s.1.pnlPool := by
  unfold mirrored imbalance
  omega

private theorem mirrored_congr (same : h.SameMarket market.id h') :
    mirrored (market, h') = mirrored (market, h) := by
  simp only [mirrored, same.cost]

private theorem clearingStep_mirrored {s s' : ClearingState} {op : ClearingOp}
    (step : clearingStep s op s') : mirrored s' = mirrored s := by
  obtain ⟨market, h⟩ := s
  obtain ⟨market', h'⟩ := s'
  rw [mirrored_eq, mirrored_eq]
  cases op with
  | netting userId =>
    obtain ⟨qty, done⟩ := step
    rcases executeNetting_imbalance done with ⟨idle, same⟩ | ⟨row, acts, moved⟩
    · rcases executeNettingIfNeeded_ok done with ⟨_, _, rfl, _⟩ | ⟨row, _, _, _, acts, _⟩
      · simp only [same]
      · rw [idle] at acts
        cases acts
    · rcases executeNettingIfNeeded_ok done with ⟨idle, _⟩ |
        ⟨row', _, yes, no, acts', got, rfl, _, yesRel, noRel, _, _, rfl⟩
      · rw [idle] at acts
        cases acts
      · obtain rfl := Option.some.inj (acts.symm.trans acts')
        rw [calcReleasedCost_eq _ _ (Table.check got).1.1] at yesRel
        rw [calcReleasedCost_eq _ _ (Table.check got).2.1] at noRel
        simp only [moved]
        omega
  | fill trade =>
    obtain ⟨here, pnl, done⟩ := step
    cases settleTrade_ok done with
    | mint _ ran =>
      have same := clearMint_imbalance here ran
      obtain ⟨_, _, rfl⟩ := clearMint_ok ran
      simp only [same]
    | transferYes _ ran =>
      obtain ⟨moved, _⟩ := clearTransfer_imbalance here ran
      obtain ⟨_, _, _, _, _, _, _, _, _, _, rfl⟩ := clearTransfer_ok ran
      simp only [moved]
      omega
    | transferNo _ ran =>
      obtain ⟨moved, _⟩ := clearTransfer_imbalance here ran
      obtain ⟨_, _, _, _, _, _, _, _, _, _, rfl⟩ := clearTransfer_ok ran
      simp only [moved]
      omega
    | burn _ ran =>
      obtain ⟨yesRow, noRow, gotYes, gotNo, moved⟩ := clearBurn_imbalance here ran
      obtain ⟨yesRow', noRow', _, _, _, yes, no, gotYes', gotNo', yesRel, noRel, _, _, _, _, _,
        rfl⟩ := clearBurn_ok ran
      obtain rfl := Option.some.inj (gotYes.symm.trans gotYes')
      obtain rfl := Option.some.inj (gotNo.symm.trans gotNo')
      rw [calcReleasedCost_eq _ _ (Table.check gotYes).1.1] at yesRel
      rw [calcReleasedCost_eq _ _ (Table.check gotNo).2.1] at noRel
      have value : trade.price * trade.quantity + (100 - trade.price) * trade.quantity =
          100 * trade.quantity := by ring
      simp only [moved]
      omega

private theorem verifyInvariantsAfterTrade_ok {u : Unit}
    (passed : verifyInvariantsAfterTrade market h = .ok u) : Inv3 (market, h) := by
  by_contra broken
  have fails : market.reserveBalance + market.pnlPool ≠ h.totalCost market.id := broken
  simp only [verifyInvariantsAfterTrade, fails, ne_eq, not_false_eq_true, if_true] at passed
  split at passed
  · cases passed
  · split at passed
    · cases passed
    · cases passed

private theorem verifyInvariantsAfterTrade_passes (backed : SharesBacked (market, h))
    (balanced : Inv3 (market, h)) : verifyInvariantsAfterTrade market h = .ok () := by
  obtain ⟨_, _, pairs, reserve⟩ := backed
  simp only [Inv3] at pairs reserve balanced
  have hundreds : market.reserveBalance = market.totalYesShares * 100 := by omega
  simp only [verifyInvariantsAfterTrade, ne_eq, pairs, hundreds, not_true_eq_false, if_false] at *
  rw [← balanced]
  simp
  rfl

structure Clears (market : MarketState) (h : Holdings) (market' : MarketState) (h' : Holdings) :
    Prop where
  id : market'.id = market.id
  backed : SharesBacked (market, h) → SharesBacked (market', h')
  mirrored : mirrored (market', h') = mirrored (market, h)

private theorem Clears.refl (market : MarketState) (h : Holdings) : Clears market h market h :=
  ⟨rfl, fun backed => backed, rfl⟩

private theorem Clears.trans {market'' : MarketState} {h'' : Holdings}
    (first : Clears market h market' h')
    (rest : Clears market' h' market'' h'') : Clears market h market'' h'' :=
  ⟨rest.id.trans first.id, fun backed => rest.backed (first.backed backed),
    rest.mirrored.trans first.mirrored⟩

private theorem Clears.of_same (same : h.SameMarket market.id h') : Clears market h market h' :=
  ⟨rfl, fun backed => backed.congr same, mirrored_congr same⟩

private theorem fill_clears {pnl : RealizedPnl} (here : trade.marketId = market.id)
    (done : settleTrade trade market h = .ok (pnl, market', h')) : Clears market h market' h' := by
  have step : clearingStep (market, h) (.fill trade) (market', h') := ⟨here, pnl, done⟩
  exact ⟨settleTrade_id done, clearingStep_sharesBacked step, clearingStep_mirrored step⟩

private theorem netting_clears {userId : UserId} {qty : Int}
    (done : executeNettingIfNeeded userId market.id market h = .ok (qty, market', h')) :
    Clears market h market' h' := by
  have step : clearingStep (market, h) (.netting userId) (market', h') := ⟨qty, done⟩
  exact ⟨executeNetting_id done, clearingStep_sharesBacked step, clearingStep_mirrored step⟩

private theorem FillRun.clears {order : Order} {db db' : Db}
    (run : FillRun order trade market db market' db')
    (here : trade.marketId = market.id) (home : order.marketId = market.id) :
    Clears market db.holdings market' db'.holdings := by
  obtain ⟨pnl, market₁, h₁, fee, h₂, nq, settled, collected, netted, _⟩ := run.settled
  have first : Clears market db.holdings market₁ h₁ :=
    fill_clears here settled
  have fees : Clears market₁ h₁ market₁ h₂ :=
    .of_same (.of_positions (collectFee_positions collected))
  rw [home, ← first.id] at netted
  have last : Clears market₁ h₂ market' db'.holdings :=
    netting_clears netted
  exact first.trans (fees.trans last)

theorem fills_clear {order : Order} {s s' : FillState} {ts : List TradeResult}
    (run : Run (fillSteps order) s ts s') (home : order.marketId = s.market.id) :
    Clears s.market s.db.holdings s'.market s'.db.holdings := by
  induction run with
  | nil s => exact .refl _ _
  | @cons s t u a as head tail ih =>
    obtain ⟨id, r, step, rfl⟩ := head
    have here : (tradeOf order id r (s.take r)).marketId = s.market.id :=
      (tradeOf_marketId _ _ _ _).trans home
    have first := step.run.clears here home
    exact first.trans (ih (home.trans first.id.symm))

end Clearing

section Placement

variable {draft : OrderDraft} {ob ob' : OrderBook} {order order' : Order} {db db' : Db}
  {placed : Placed} {m : MarketId}

private theorem unfreezeRemainder_sameMarket (done : unfreezeRemainder order db = .ok db') :
    db.holdings.SameMarket m db'.holdings := by
  rcases unfreezeRemainder_statement done with ⟨_, moved⟩ | ⟨side, _, moved⟩
  · exact .of_positions (Holdings.unfreezeDebit_positions moved)
  · exact .addPending moved

private theorem finalizeOrder_sameMarket (done : finalizeOrder order 0 db = .ok (order', db')) :
    db.holdings.SameMarket m db'.holdings := by
  rcases finalizeOrder_statement done with same | ⟨db₁, released, same⟩
  · exact .of_positions (by rw [same])
  · rw [same]
    exact unfreezeRemainder_sameMarket released

private theorem acceptOrder_sameMarket {market : MarketState}
    (done : acceptOrder draft db = .ok (order, market, db')) :
    db.holdings.SameMarket m db'.holdings := by
  obtain ⟨db₁, frozen, same⟩ := acceptOrder_statement done
  rw [same]
  rcases checkAndFreeze_statement frozen with ⟨_, amount, moved⟩ | ⟨side, _, _, moved⟩
  · exact .of_positions (Holdings.unfreezeDebit_positions moved)
  · exact .addPending moved

private theorem placeOrderInner_verified {market market₁ : MarketState} {n : Int} {db₁ db₂ db₃ : Db}
    (done : placeOrderInner draft ob db = (.ok (placed, db'), ob'))
    (accepted : acceptOrder draft db = .ok (draft.accepted, market, db₁))
    (cleared : clearFills (matchOrder draft.accepted ob).incoming
      (matchOrder draft.accepted ob).trades 0 market db₁ = .ok (order, n, market₁, db₂))
    (finalized : finalizeOrder order 0 db₂ = .ok (order', db₃))
    (traded : (matchOrder draft.accepted ob).trades ≠ []) : Inv3 (market₁, db₃.holdings) := by
  simp only [placeOrderInner, accepted, Prod.mk.injEq, clearAndFlush, cleared, bind_eq_ok,
    Except.ok.injEq, exists_eq_left', finalized, if_pos traded] at done
  obtain ⟨⟨u, passed, _⟩, _⟩ := done
  exact verifyInvariantsAfterTrade_ok passed

def MarketRow.PnlStays (r r' : MarketRow) : Prop :=
  r'.pnlPool = r.pnlPool ∧ r'.status = r.status ∨ r'.pnlPool = 0 ∧ r'.status = .settled

private theorem MarketRow.PnlStays.trans {r r' r'' : MarketRow} (first : r.PnlStays r')
    (rest : r'.PnlStays r'') : r.PnlStays r'' := by
  rcases rest with ⟨pool, status⟩ | settled
  · rcases first with ⟨pool₀, status₀⟩ | ⟨pool₀, status₀⟩
    · exact Or.inl ⟨pool.trans pool₀, status.trans status₀⟩
    · exact Or.inr ⟨pool.trans pool₀, status.trans status₀⟩
  · exact Or.inr settled

structure Db.MarketStays (m : MarketId) (db db' : Db) : Prop where
  sound : db'.MarketSound m
  row : ∀ r, db.markets.get? m = some r → ∃ r', db'.markets.get? m = some r' ∧ r.PnlStays r'

theorem Db.MarketSound.stays (sound : db.MarketSound m)
    (row : db'.markets.get? m = db.markets.get? m)
    (same : db.holdings.SameMarket m db'.holdings) : db.MarketStays m db' := by
  constructor
  · obtain ⟨r, got, backed, balanced⟩ := sound
    exact ⟨r, row.trans got, backed.congr same, balanced.trans same.cost.symm⟩
  · intro r got
    exact ⟨r, row.trans got, Or.inl ⟨rfl, rfl⟩⟩

/-- The market that a placement flushes. Fills that realize a profit or a loss do
not pass the check, so the pnl pool is where it was. -/
private theorem placeOrderInner_flushes {v : RestingOrders}
    (done : placeOrderInner draft ob db = (.ok (placed, db'), ob')) (shows : ob.Shows v) :
    ∃ row market₁, db.markets.get? draft.marketId = some row ∧ market₁.id = draft.marketId ∧
      db.flushMarket market₁ = .ok { db with markets := db'.markets } ∧
      (db.MarketSound draft.marketId → SharesBacked (market₁, db'.holdings) ∧
        Inv3 (market₁, db'.holdings) ∧ market₁.pnlPool = row.pnlPool) := by
  obtain ⟨⟨market, db₁, order, n, market₁, db₂, order', db₃, accepted, cleared, finalized,
    flushed, _⟩, _⟩ := placeOrderInner_phases done
  obtain ⟨v', fills, _⟩ := matchOrder_spec draft.accepted ob v shows.represents shows.exact
  have steps := clearFills_run fills fills.sameOrder cleared
  have home : (matchOrder draft.accepted ob).incoming.marketId = draft.marketId :=
    fills.sameOrder.marketId.symm.trans draft.accepted_fields.2.1
  obtain ⟨row, got, _, rfl⟩ := (acceptOrder_ok accepted).active
  have markets : db₃.markets = db.markets :=
    ((finalizeOrder_ok finalized).1.trans (clearFills_markets cleared)).trans
      (acceptOrder_ok accepted).markets
  have clears := ((Clears.of_same (acceptOrder_sameMarket accepted)).trans
    (fills_clear steps home)).trans (.of_same (finalizeOrder_sameMarket finalized))
  obtain ⟨tables, updated, rfl⟩ := Db.flushMarket_ok flushed
  rw [markets] at updated
  refine ⟨row, market₁, got, clears.id, by simp only [Db.flushMarket, updated], ?_⟩
  rintro ⟨row', got', backed, balanced⟩
  obtain rfl := Option.some.inj (got.symm.trans got')
  have moved := clears.mirrored
  rw [mirrored_eq, mirrored_eq, (inv3_iff _).mp balanced] at moved
  refine ⟨clears.backed backed, ?_⟩
  rw [inv3_iff]
  by_cases traded : (matchOrder draft.accepted ob).trades = []
  · simp only [traded, clearFills, pure_eq_ok, Prod.mk.injEq] at cleared
    obtain ⟨_, _, rfl, _⟩ := cleared
    exact ⟨by linarith, rfl⟩
  · have zero := (inv3_iff _).mp (placeOrderInner_verified done accepted cleared finalized traded)
    have pool : (MarketState.ofRow draft.marketId row).pnlPool = row.pnlPool := rfl
    exact ⟨zero, by linarith⟩

private theorem placeOrderInner_stays {v : RestingOrders}
    (done : placeOrderInner draft ob db = (.ok (placed, db'), ob')) (shows : ob.Shows v)
    (absent : v draft.id = none) (sound : db.MarketSound m) : db.MarketStays m db' := by
  obtain ⟨row, market₁, got, id, flushed, keeps⟩ := placeOrderInner_flushes done shows
  obtain ⟨markets, updated, tables⟩ := Db.flushMarket_ok flushed
  obtain rfl : db'.markets = markets := congrArg Db.markets tables
  have rows := Table.get?_update? updated m
  rw [id] at rows
  by_cases here : m = draft.marketId
  · subst here
    rw [if_pos rfl, got, Option.map_some] at rows
    obtain ⟨⟨yes, no, pairs, reserve⟩, balanced, pool⟩ := keeps sound
    rw [id] at yes no
    have cost : market₁.reserveBalance + market₁.pnlPool =
        db'.holdings.totalCost draft.marketId := id ▸ balanced
    constructor
    · exact ⟨_, rows, ⟨yes, no, pairs, reserve⟩, cost⟩
    · intro r got'
      obtain rfl := Option.some.inj (got.symm.trans got')
      exact ⟨_, rows, Or.inl ⟨pool, rfl⟩⟩
  · rw [if_neg here] at rows
    refine sound.stays rows ?_
    exact placeOrderInner_respected (Holdings.sameMarket_respected (Ne.symm here)) done shows
      absent trivial trivial trivial trivial (fun _ _ => trivial)

end Placement

section Releases

variable {db db' : Db} {m : MarketId}

private theorem Db.Ends.stays {id : OrderId} {row : OrderRow} (ends : db.Ends id row db')
    (sound : db.MarketSound m) : db.MarketStays m db' := by
  obtain ⟨_, order, done⟩ := ends
  refine sound.stays (by rw [(cancelInSavepoint_ok done).2.1]) ?_
  obtain ⟨db₁, db₂, released, updated, rfl⟩ := cancelInSavepoint_saved done
  obtain ⟨orders, _, rfl⟩ := Db.updateStatus_ok updated
  have freed : db.holdings.SameMarket m db₁.holdings := unfreezeRemainder_sameMarket released
  exact freed

private theorem bulkUnfreeze_sameMarket {i : MarketId} {userId : UserId} {funds yes no : Int}
    {h h' : Holdings} (done : MatchingEngine.bulkUnfreeze i userId funds yes no h = .ok h') :
    h.SameMarket m h' := by
  have pended : ∀ {side : OriginalSide} {qty : Int} {g g' : Holdings},
      (if 0 < qty then g.addPending side userId i (-qty) else pure g : Except Err Holdings) =
        .ok g' → g.SameMarket m g' := by
    intro side qty g g' ran
    split at ran
    · exact .addPending ran
    · exact .of_positions (by rw [pure_eq_ok.mp ran])
  simp only [MatchingEngine.bulkUnfreeze, bind_eq_ok] at done
  obtain ⟨h₁, cash, h₂, yesRan, noRan⟩ := done
  have first : h.SameMarket m h₁ := by
    apply Holdings.SameMarket.of_positions
    split at cash
    · exact Holdings.unfreezeDebit_positions cash
    · rw [pure_eq_ok.mp cash]
  exact first.trans ((pended yesRan).trans (pended noRan))

private theorem Db.pnlStays_of_update {i : MarketId} {f : MarketRow → MarketRow}
    (updated : db.markets.update? i f = some db'.markets)
    (kept : ∀ r, (f r).pnlPool = r.pnlPool ∧ (f r).status = r.status) :
    ∀ r, db.markets.get? m = some r → ∃ r', db'.markets.get? m = some r' ∧ r.PnlStays r' := by
  intro r got
  rw [Table.get?_update? updated]
  by_cases here : m = i
  · subst here
    exact ⟨f r, by rw [if_pos rfl, got, Option.map_some], Or.inl (kept r)⟩
  · exact ⟨r, by rw [if_neg here, got], Or.inl ⟨rfl, rfl⟩⟩

end Releases

namespace AdminService

variable {db db' : Db} {m i : MarketId} {outcome : OriginalSide}

theorem settleMarket_closes (done : settleMarket i outcome db = .ok db') :
    db.markets.update? i (settledRow outcome) = some db'.markets := by
  simp only [settleMarket, bind_eq_ok] at done
  obtain ⟨h, _, done⟩ := done
  split at done
  · next markets updated =>
    obtain rfl := Except.ok.inj done
    exact updated
  · cases done

theorem cancelAndUnfreeze_sameMarket {e : OrderId × OrderRow}
    (done : cancelAndUnfreeze i db e = .ok db') : db.holdings.SameMarket m db'.holdings := by
  simp only [cancelAndUnfreeze, bind_eq_ok] at done
  obtain ⟨db₁, marked, moved⟩ := done
  split at marked
  · obtain rfl := Except.ok.inj marked
    obtain ⟨h, freed, rfl⟩ := Db.onHoldings_ok moved
    split at freed
    · exact .of_positions (Holdings.unfreezeDebit_positions freed)
    · exact .addPending freed
    · exact .addPending freed
  · cases marked

private theorem payAndClear_sameMarket {e : UserId × PositionRow} {h h' : Holdings} (away : i ≠ m)
    (done : payAndClear i outcome h e = .ok h') : h.SameMarket m h' := by
  simp only [payAndClear, bind_eq_ok] at done
  obtain ⟨h₁, credited, cleared⟩ := done
  have paid : h.SameMarket m h₁ := by
    apply Holdings.SameMarket.of_positions
    split at credited
    · exact Holdings.addBalance_positions credited
    · rw [pure_eq_ok.mp credited]
  exact paid.trans (.updatePosition cleared (fun here => absurd here away))

private theorem settleMarket_empties (done : settleMarket m outcome db = .ok db') {user : UserId}
    {r : PositionRow} (got : db'.holdings.positions.get? (user, m) = some r) : r = .empty := by
  obtain ⟨_, paid, _⟩ := settleMarket_ok done
  have checked : ∀ e ∈ marketPositions m db.holdings, e.2.Check := by
    intro e member
    obtain ⟨k, listed, rfl⟩ := List.mem_map.mp member
    exact Table.check (Table.mem_iff.mp (List.mem_filter.mp listed).1)
  obtain ⟨h, ran, pays⟩ : ∃ h, (marketPositions m db.holdings).foldlM (payAndClear m outcome)
      db.holdings = .ok h ∧ PaidAll m outcome (marketPositions m db.holdings) db.holdings h :=
    payAll_succeeds _ checked
  obtain rfl : h = db'.holdings := Except.ok.inj (ran.symm.trans paid)
  rw [pays.positions, Option.map_eq_some_iff] at got
  obtain ⟨row, was, rfl⟩ := got
  exact if_pos ⟨rfl, mem_marketPositions was⟩

private theorem resolveInTransaction_stays (done : resolveInTransaction i outcome db = .ok db')
    (sound : db.MarketSound m) : db.MarketStays m db' := by
  obtain ⟨db₁, cancelled, settled⟩ := resolveInTransaction_ok done
  have kept : db₁.markets = db.markets := foldlM_preserves (P := fun d => d.markets = db.markets)
    (fun _ _ _ _ step same => (cancelAndUnfreeze_ok step).1.trans same) cancelled rfl
  have freed : db.holdings.SameMarket m db₁.holdings := foldlM_preserves
    (P := fun d => db.holdings.SameMarket m d.holdings)
    (fun _ _ _ _ step same => same.trans (cancelAndUnfreeze_sameMarket step)) cancelled
    (.of_positions rfl)
  have rows := Table.get?_update? (settleMarket_closes settled) m
  rw [kept] at rows
  by_cases here : m = i
  · subst here
    obtain ⟨row, got, _⟩ := sound
    rw [if_pos rfl, got, Option.map_some] at rows
    have volumes : ∀ side, db'.holdings.volumeSum m side = 0 := by
      intro side
      apply Table.sum_eq_zero
      rintro ⟨user, market⟩ r stored
      by_cases inside : market = m
      · subst inside
        obtain rfl := settleMarket_empties settled stored
        cases side <;> simp [PositionRow.holding, PositionRow.empty, Holding.empty]
      · simp [inside]
    have cost : db'.holdings.totalCost m = 0 := by
      apply Table.sum_eq_zero
      rintro ⟨user, market⟩ r stored
      by_cases inside : market = m
      · subst inside
        obtain rfl := settleMarket_empties settled stored
        simp [PositionRow.total, PositionRow.empty, Holding.empty]
      · simp [inside]
    constructor
    · exact ⟨_, rows, ⟨(volumes .yes).symm, (volumes .no).symm, rfl, rfl⟩, cost.symm⟩
    · intro r stored
      exact ⟨settledRow outcome row, rows, Or.inr ⟨rfl, rfl⟩⟩
  · rw [if_neg here] at rows
    refine sound.stays rows (freed.trans ?_)
    obtain ⟨_, paid, _⟩ := settleMarket_ok settled
    exact foldlM_preserves (P := fun h => db₁.holdings.SameMarket m h)
      (fun _ _ _ _ step same => same.trans (payAndClear_sameMarket (Ne.symm here) step)) paid
      (.of_positions rfl)

end AdminService

section Sessions

variable {db db' : Db} {m : MarketId}

private theorem moveStep_stays {move : Move} (step : moveStep db move db')
    (sound : db.MarketSound m) :
    db.MarketStays m db' := by
  cases move with
  | placed draft =>
    obtain ⟨ob, ob', placed, v, done, shows, absent, _⟩ := step
    exact placeOrderInner_stays done shows absent sound
  | cancelled id =>
    obtain ⟨row, _, ends⟩ := step
    exact ends.stays sound
  | retired id =>
    obtain ⟨row, _, _, ends⟩ := step
    exact ends.stays sound
  | batch marketId userId scope =>
    obtain ⟨db₁, h, marked, freed, rfl⟩ := step
    exact sound.stays (by rw [(markCancelled_ok _ marked).2.1]) (bulkUnfreeze_sameMarket freed)
  | privileged call =>
    rcases step with minted | burned
    · exact ⟨minted.sound sound,
        Db.pnlStays_of_update minted.market (fun _ => ⟨rfl, rfl⟩)⟩
    · exact ⟨burned.sound sound,
        Db.pnlStays_of_update burned.market (fun _ => ⟨rfl, rfl⟩)⟩
  | resolved marketId outcome => exact AdminService.resolveInTransaction_stays step sound

private theorem moveStep_markets {move : Move} (step : moveStep db move db') :
    db'.markets = db.markets ∨ ∃ i f, db.markets.update? i f = some db'.markets ∧
      ∀ r, (f r).takerFeeBps = r.takerFeeBps := by
  cases move with
  | placed draft =>
    obtain ⟨ob, ob', placed, v, done, shows, _⟩ := step
    obtain ⟨row, market₁, _, _, flushed, _⟩ := placeOrderInner_flushes done shows
    obtain ⟨markets, updated, tables⟩ := Db.flushMarket_ok flushed
    obtain rfl : db'.markets = markets := congrArg Db.markets tables
    exact Or.inr ⟨_, _, updated, fun _ => rfl⟩
  | cancelled id =>
    obtain ⟨row, _, _, order, done⟩ := step
    exact Or.inl (cancelInSavepoint_ok done).2.1
  | retired id =>
    obtain ⟨row, _, _, _, order, done⟩ := step
    exact Or.inl (cancelInSavepoint_ok done).2.1
  | batch marketId userId scope =>
    obtain ⟨db₁, h, marked, _, rfl⟩ := step
    exact Or.inl (markCancelled_ok _ marked).2.1
  | privileged call =>
    rcases step with minted | burned
    · exact Or.inr ⟨_, _, minted.market, fun _ => rfl⟩
    · exact Or.inr ⟨_, _, burned.market, fun _ => rfl⟩
  | resolved marketId outcome =>
    obtain ⟨db₁, cancelled, settled⟩ := AdminService.resolveInTransaction_ok step
    have kept : db₁.markets = db.markets :=
      foldlM_preserves (P := fun d => d.markets = db.markets)
        (fun _ _ _ _ step same => (AdminService.cancelAndUnfreeze_ok step).1.trans same)
        cancelled rfl
    exact Or.inr ⟨marketId, AdminService.settledRow outcome,
      kept ▸ AdminService.settleMarket_closes settled, fun _ => rfl⟩

theorem moveStep_known {move : Move} (step : moveStep db move db') {r' : MarketRow}
    (got : db'.markets.get? m = some r') :
    ∃ r, db.markets.get? m = some r ∧ r'.takerFeeBps = r.takerFeeBps := by
  rcases moveStep_markets step with same | ⟨i, f, updated, rate⟩
  · exact ⟨r', same ▸ got, rfl⟩
  · rw [Table.get?_update? updated] at got
    split at got
    · next here =>
      obtain ⟨r, was, rfl⟩ := Option.map_eq_some_iff.mp got
      exact ⟨r, here ▸ was, rate r⟩
    · exact ⟨r', got, rfl⟩

def Db.MarketsSound (db : Db) : Prop :=
  ∀ m r, db.markets.get? m = some r → db.MarketSound m

/-- Sound tables with the markets that another state of the tables has, and their
pnl pools. -/
structure Db.SoundSince (start db : Db) : Prop where
  sound : db.MarketsSound
  pools : ∀ m r, start.markets.get? m = some r →
    ∃ r', db.markets.get? m = some r' ∧ r.PnlStays r'

theorem moveStep_soundSince {start : Db} {move : Move} (step : moveStep db move db')
    (since : start.SoundSince db) : start.SoundSince db' := by
  constructor
  · intro m r' got
    obtain ⟨r, was, _⟩ := moveStep_known step got
    exact (moveStep_stays step (since.sound m r was)).sound
  · intro m r got
    obtain ⟨r₁, middle, first⟩ := since.pools m r got
    obtain ⟨r₂, last, rest⟩ := (moveStep_stays step (since.sound m r₁ middle)).row r₁ middle
    exact ⟨r₂, last, first.trans rest⟩

/-- The market part of `verify_all_invariants`: what the check raises for the
ACTIVE markets, in the order of the scan. -/
def AdminService.marketViolations (db : Db) : List Violation :=
  (db.markets.rows.filter (fun e => e.2.status = .active)).filterMap (fun e =>
    match verifyInvariantsAfterTrade (MarketState.ofRow e.1 e.2) db.holdings with
    | .error (.assertion v) => some v
    | _ => none)

theorem AdminService.marketViolations_eq_nil (sound : db.MarketsSound) :
    AdminService.marketViolations db = [] := by
  unfold marketViolations
  rw [List.filterMap_eq_nil_iff]
  intro e member
  have stored := Table.mem_iff.mp (List.mem_filter.mp member).1
  obtain ⟨r, got, backed, balanced⟩ := sound e.1 e.2 stored
  obtain rfl := Option.some.inj (stored.symm.trans got)
  simp only [verifyInvariantsAfterTrade_passes backed balanced]

end Sessions

theorem Session.Opening.soundSince {s s' : Session} {ops : List SessionOp} (opening : s.Opening)
    (sound : s.world.db.MarketsSound) (run : Run sessionStep s ops s') :
    s.world.db.SoundSince s'.world.db := by
  have keep : ∀ t op t', sessionStep t op t' →
      t.world.Accounted False ∧ s.world.db.SoundSince t.world.db →
      t'.world.Accounted False ∧ s.world.db.SoundSince t'.world.db := by
    rintro t op t' step ⟨acc, since⟩
    obtain ⟨acc', same | moves⟩ := sessionStep_moves step acc
    · exact ⟨acc', same ▸ since⟩
    · exact ⟨acc', moves.preserves (fun _ _ _ => moveStep_soundSince) since⟩
  have start : s.world.db.SoundSince s.world.db :=
    ⟨sound, fun m r got => ⟨r, got, Or.inl ⟨rfl, rfl⟩⟩⟩
  exact (run.preserves keep ⟨opening.accounted, start⟩).2

/-- Whatever requests come, in whatever order, the counters, the reserve and the
cost sums of every stored market agree after each of them, and the check of the
ACTIVE markets has nothing to report. -/
theorem session_markets_sound {s s' : Session} {ops : List SessionOp} (opening : s.Opening)
    (sound : s.world.db.MarketsSound) (run : Run sessionStep s ops s') :
    s'.world.db.MarketsSound ∧ AdminService.marketViolations s'.world.db = [] := by
  have since := opening.soundSince sound run
  exact ⟨since.sound, AdminService.marketViolations_eq_nil since.sound⟩

/-- INV-3 holds after fills and nettings exactly when the pnl pool is back where it
was. As every placement is checked, no session ever moves the pool of a market
before its settlement. -/
theorem session_pnl_pools {s s' : Session} {ops : List SessionOp} (opening : s.Opening)
    (sound : s.world.db.MarketsSound) (run : Run sessionStep s ops s') :
    (∀ c clearing c', Inv3 c → Run clearingStep c clearing c' →
      (Inv3 c' ↔ c'.1.pnlPool = c.1.pnlPool)) ∧
    ∀ m r, s.world.db.markets.get? m = some r → ∃ r', s'.world.db.markets.get? m = some r' ∧
      (r'.pnlPool = r.pnlPool ∧ r'.status = r.status ∨ r'.pnlPool = 0 ∧ r'.status = .settled) := by
  constructor
  · intro c clearing c' balanced cleared
    have conserved : mirrored c' = mirrored c :=
      cleared.preserves (P := fun t => mirrored t = mirrored c)
        (fun _ _ _ step same => (clearingStep_mirrored step).trans same) rfl
    rw [inv3_iff] at balanced ⊢
    rw [mirrored_eq, mirrored_eq, balanced] at conserved
    constructor
    · intro zero
      omega
    · intro back
      omega
  · intro m r got
    exact (opening.soundSince sound run).pools m r got

theorem pairMarket_sound : pairMarket.world.db.MarketsSound := by
  intro m r got
  have rows : pairMarket.world.db.markets.rows =
      [("m", ⟨.active, 2000, 0, 20, 20, 20, none⟩)] := rfl
  have stored := Table.mem_iff.mpr got
  rw [rows, List.mem_singleton] at stored
  obtain ⟨rfl, rfl⟩ := Prod.mk.inj stored
  exact ⟨_, rfl, ⟨by decide, by decide, rfl, rfl⟩, by unfold Inv3; decide⟩

/-- A resting sell order and a fill of it leave the market sound. -/
theorem pairMarket_stays_sound : ∃ s', Run sessionStep pairMarket [sellFourYes, buyOneYes] s' ∧
    s'.world.db.MarketsSound ∧ AdminService.marketViolations s'.world.db = [] := by
  have run : Run sessionStep pairMarket [sellFourYes, buyOneYes]
      ((pairMarket.next sellFourYes).next buyOneYes) := .cons rfl (.single rfl)
  exact ⟨_, run, session_markets_sound pairMarket_opening pairMarket_sound run⟩

theorem pairMarket_pnl_pool : ∃ s' r', Run sessionStep pairMarket [sellFourYes, buyOneYes] s' ∧
    s'.world.db.markets.get? "m" = some r' ∧ (r'.pnlPool = 0 ∨ r'.status = .settled) := by
  have run : Run sessionStep pairMarket [sellFourYes, buyOneYes]
      ((pairMarket.next sellFourYes).next buyOneYes) := .cons rfl (.single rfl)
  obtain ⟨r', got, stays⟩ := (session_pnl_pools pairMarket_opening pairMarket_sound run).2 "m"
    ⟨.active, 2000, 0, 20, 20, 20, none⟩ rfl
  refine ⟨_, r', run, got, ?_⟩
  rcases stays with ⟨pool, _⟩ | ⟨_, settled⟩
  · exact Or.inl pool
  · exact Or.inr settled

end PredictionMarket
