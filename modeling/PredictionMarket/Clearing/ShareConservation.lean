/- PredictionMarket/Clearing/ShareConservation
   digest: Clearing keeps the share counters of a market equal to the volumes of its positions. -/

import PredictionMarket.Clearing.CostConservation
import PredictionMarket.Engine.Database

set_option autoImplicit false
set_option relaxedAutoImplicit false

namespace PredictionMarket

open Library

namespace Holdings

variable {h h' : Holdings} {userId : UserId} {marketId : MarketId}

def volumeSum (h : Holdings) (m : MarketId) (side : OriginalSide) : Int :=
  h.positions.sum (fun k r => if k.2 = m then (r.holding side).volume else 0)

private theorem volumeSum_nonneg (h : Holdings) (m : MarketId) (side : OriginalSide) :
    0 ≤ h.volumeSum m side := by
  apply sum_map_nonneg
  intro e member
  show 0 ≤ if e.1.2 = m then (e.2.holding side).volume else 0
  split
  · exact (PositionRow.Check.holding (h.positions.valid e member) side).1
  · exact le_rfl

theorem volumeSum_congr (same : h'.positions = h.positions) (m : MarketId) (side : OriginalSide) :
    h'.volumeSum m side = h.volumeSum m side := by
  simp only [volumeSum, same]

theorem volumeSum_updatePosition {f : PositionRow → PositionRow} {r : PositionRow}
    {x : OriginalSide → Int} (got : h.positions.get? (userId, marketId) = some r)
    (shift : ∀ side, ((f r).holding side).volume = (r.holding side).volume + x side)
    (done : h.updatePosition userId marketId f = .ok h') (m : MarketId) (side : OriginalSide) :
    h'.volumeSum m side = h.volumeSum m side + if marketId = m then x side else 0 := by
  unfold volumeSum
  rw [Table.sum_update? (updatePosition_ok done).2, got, Option.elim_some]
  by_cases here : marketId = m
  · simp only [here, if_true, shift]
    omega
  · simp [here]

private theorem PositionRow.volume_modify (r : PositionRow) (at_ side : OriginalSide)
    (f : Holding → Holding) {x : Int} (shift : ∀ c, (f c).volume = c.volume + x) :
    ((r.modify at_ f).holding side).volume =
      (r.holding side).volume + if side = at_ then x else 0 := by
  cases at_ <;> cases side <;> simp [PositionRow.modify, PositionRow.holding, shift]

theorem volumeSum_addVolume {at_ : OriginalSide} {qty cost : Int}
    (done : h.addVolume at_ userId marketId qty cost = .ok h') (m : MarketId)
    (side : OriginalSide) : h'.volumeSum m side = h.volumeSum m side +
      if marketId = m then (if side = at_ then qty else 0) else 0 := by
  have shift := fun r => PositionRow.volume_modify r at_ side (fun c => c.bought qty cost)
    (fun _ => rfl)
  unfold volumeSum
  rw [Table.sum_upsert? (addVolume_ok done).2]
  by_cases here : marketId = m
  · have empty : (PositionRow.empty.holding side).volume = 0 := by cases side <;> rfl
    cases h.positions.get? (userId, marketId) with
    | none =>
      simp only [Option.elim_none, here, if_true, shift, empty]
      omega
    | some r =>
      simp only [Option.elim_some, here, if_true, shift]
      omega
  · cases h.positions.get? (userId, marketId) <;> simp [here]

private theorem volumeSum_reduceVolume {at_ : OriginalSide} {qty released : Int} {r : PositionRow}
    (got : h.positions.get? (userId, marketId) = some r)
    (done : h.reduceVolume at_ userId marketId qty released = .ok h') (m : MarketId)
    (side : OriginalSide) : h'.volumeSum m side = h.volumeSum m side +
      if marketId = m then (if side = at_ then -qty else 0) else 0 :=
  volumeSum_updatePosition got
    (fun side => PositionRow.volume_modify r at_ side (fun c => c.sold qty released)
      (fun c => by simp only [Holding.sold]; omega)) done m side

end Holdings

/-- The counters of the market in memory are the volumes of its positions, and
every pair of shares has a hundred cents in reserve. -/
structure SharesBacked (s : ClearingState) : Prop where
  yes : s.1.totalYesShares = s.2.volumeSum s.1.id .yes
  no : s.1.totalNoShares = s.2.volumeSum s.1.id .no
  pairs : s.1.totalYesShares = s.1.totalNoShares
  reserve : s.1.reserveBalance = 100 * s.1.totalYesShares

section Steps

variable {trade : TradeResult} {market market' : MarketState} {h h' : Holdings}

private theorem clearMint_sharesBacked {pnl : RealizedPnl} (here : trade.marketId = market.id)
    (done : clearMint trade market h = .ok (pnl, market', h'))
    (backed : SharesBacked (market, h)) : SharesBacked (market', h') := by
  obtain ⟨⟨h₁, h₂, h₃, debit₁, buy₁, debit₂, buy₂⟩, _, rfl⟩ := clearMint_ok done
  have volumes : ∀ side, h'.volumeSum market.id side =
      h.volumeSum market.id side + trade.quantity := by
    intro side
    rw [Holdings.volumeSum_addVolume buy₂,
      Holdings.volumeSum_congr (Holdings.unfreezeDebit_positions debit₂),
      Holdings.volumeSum_addVolume buy₁,
      Holdings.volumeSum_congr (Holdings.unfreezeDebit_positions debit₁)]
    cases side <;> simp [here]
  obtain ⟨yes, no, pairs, reserve⟩ := backed
  simp only at yes no pairs reserve
  constructor <;> simp only [volumes] <;> omega

private theorem clearTransfer_sharesBacked {side : OriginalSide} {payer holder : UserId}
    {unitPrice pnl : Int} {missing : String}
    (done : clearTransfer side payer holder unitPrice missing trade market h =
      .ok (pnl, market', h'))
    (backed : SharesBacked (market, h)) : SharesBacked (market', h') := by
  obtain ⟨h₁, h₂, h₃, row, debit, buy, got, sell, credit, _, rfl⟩ := clearTransfer_ok done
  have volumes : ∀ s, h'.volumeSum market.id s = h.volumeSum market.id s := by
    intro s
    rw [Holdings.volumeSum_congr (Holdings.addBalance_positions credit),
      Holdings.volumeSum_reduceVolume got sell, Holdings.volumeSum_addVolume buy,
      Holdings.volumeSum_congr (Holdings.unfreezeDebit_positions debit)]
    by_cases same : s = side
    · simp only [same, if_true]
      split <;> omega
    · simp [same]
  obtain ⟨yes, no, pairs, reserve⟩ := backed
  exact ⟨by simpa only [volumes] using yes, by simpa only [volumes] using no, pairs, reserve⟩

private theorem clearBurn_sharesBacked {pnl : RealizedPnl} (here : trade.marketId = market.id)
    (done : clearBurn trade market h = .ok (pnl, market', h'))
    (backed : SharesBacked (market, h)) : SharesBacked (market', h') := by
  obtain ⟨yesRow, noRow, h₁, h₂, h₃, yesCostRel, noCostRel, gotYes, gotNo, _, _, sellYes,
    creditYes, sellNo, creditNo, _, rfl⟩ := clearBurn_ok done
  obtain ⟨r, gotNo'⟩ : ∃ r, h₂.positions.get? (trade.buyUserId, trade.marketId) = some r := by
    rw [Holdings.addBalance_positions creditYes]
    exact Holdings.position_updatePosition sellYes gotNo
  have volumes : ∀ side, h'.volumeSum market.id side =
      h.volumeSum market.id side - trade.quantity := by
    intro side
    rw [Holdings.volumeSum_congr (Holdings.addBalance_positions creditNo),
      Holdings.volumeSum_reduceVolume gotNo' sellNo,
      Holdings.volumeSum_congr (Holdings.addBalance_positions creditYes),
      Holdings.volumeSum_reduceVolume gotYes sellYes]
    cases side <;> simp [here] <;> omega
  obtain ⟨yes, no, pairs, reserve⟩ := backed
  simp only at yes no pairs reserve
  constructor <;> simp only [volumes] <;> omega

private theorem executeNetting_sharesBacked {userId : UserId} {qty : Int}
    (done : executeNettingIfNeeded userId market.id market h = .ok (qty, market', h'))
    (backed : SharesBacked (market, h)) : SharesBacked (market', h') := by
  rcases executeNettingIfNeeded_ok done with ⟨_, _, rfl, rfl⟩ |
    ⟨row, h₁, yesCostRel, noCostRel, _, got, _, _, _, _, net, credit, rfl⟩
  · exact backed
  · have volumes : ∀ side, h'.volumeSum market.id side = h.volumeSum market.id side - qty := by
      intro side
      have shift : ∀ s, ((row.netted qty yesCostRel noCostRel).holding s).volume =
          (row.holding s).volume + -qty := by
        intro s
        cases s <;> simp only [PositionRow.netted, PositionRow.holding] <;> omega
      rw [Holdings.volumeSum_congr (Holdings.addBalance_positions credit),
        Holdings.volumeSum_updatePosition got (x := fun _ => -qty) shift net, if_pos rfl]
      omega
    obtain ⟨yes, no, pairs, reserve⟩ := backed
    simp only at yes no pairs reserve
    constructor <;> simp only [volumes] <;> omega

end Steps

theorem clearingStep_sharesBacked {s s' : ClearingState} {op : ClearingOp}
    (step : clearingStep s op s') (backed : SharesBacked s) : SharesBacked s' := by
  obtain ⟨market, h⟩ := s
  obtain ⟨market', h'⟩ := s'
  cases op with
  | netting userId =>
    obtain ⟨qty, done⟩ := step
    exact executeNetting_sharesBacked done backed
  | fill trade =>
    obtain ⟨here, pnl, done⟩ := step
    cases settleTrade_ok done with
    | mint _ ran => exact clearMint_sharesBacked here ran backed
    | transferYes _ ran => exact clearTransfer_sharesBacked ran backed
    | transferNo _ ran => exact clearTransfer_sharesBacked ran backed
    | burn _ ran => exact clearBurn_sharesBacked here ran backed

private theorem SharesBacked.flushMarket {s : ClearingState} (backed : SharesBacked s) (db : Db) :
    ∃ db', db.flushMarket s.1 = .ok db' := by
  have nonneg := s.2.volumeSum_nonneg s.1.id .yes
  obtain ⟨yes, no, pairs, reserve⟩ := backed
  unfold Db.flushMarket Table.update?
  cases got : db.markets.get? s.1.id with
  | none => exact ⟨_, rfl⟩
  | some r =>
    have rate := (Table.check got).2.2.2.2.2
    have check : MarketRow.Check { r with
        reserveBalance := s.1.reserveBalance
        pnlPool := s.1.pnlPool
        totalYesShares := s.1.totalYesShares
        totalNoShares := s.1.totalNoShares } := by
      refine ⟨?_, ?_, ?_, ?_, ?_, rate⟩ <;> simp only <;> omega
    simp only [dif_pos check]
    exact ⟨_, rfl⟩

/-- Share conservation: after every sequence of fills and nettings the counters
are the summed volumes and the reserve backs them, so no flush is refused. -/
theorem shares_conserved {s s' : ClearingState} {ops : List ClearingOp} (backed : SharesBacked s)
    (run : Run clearingStep s ops s') :
    SharesBacked s' ∧ ∀ db : Db, ∃ db', db.flushMarket s'.1 = .ok db' := by
  have after := run.preserves (fun _ _ _ step => clearingStep_sharesBacked step) backed
  exact ⟨after, after.flushMarket⟩

/-- A sale above cost, and the netting of the buyer after it. -/
theorem sale_keeps_shares_backed :
    ∃ s', Run clearingStep (tenPairsMarket, tenPairs) [.fill saleAboveCost, .netting "buyer"] s' ∧
      SharesBacked s' ∧ ∀ db : Db, ∃ db', db.flushMarket s'.1 = .ok db' := by
  have backed : SharesBacked (tenPairsMarket, tenPairs) := ⟨by decide, by decide, rfl, rfl⟩
  obtain ⟨r, n, cleared, netted⟩ := sale_clears
  have run : Run clearingStep (tenPairsMarket, tenPairs)
      [.fill saleAboveCost, .netting "buyer"] (n.2.1, n.2.2) :=
    .cons (t := (r.2.1, r.2.2)) ⟨rfl, r.1, cleared⟩ (.single ⟨n.1, netted⟩)
  exact ⟨_, run, shares_conserved backed run⟩

end PredictionMarket
