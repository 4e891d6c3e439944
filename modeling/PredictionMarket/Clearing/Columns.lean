/- PredictionMarket/Clearing/Columns
   digest: What each clearing step does to one column of the positions, holding by holding. -/

import PredictionMarket.Clearing.Inversion
import PredictionMarket.Clearing.FeeCollector

set_option autoImplicit false
set_option relaxedAutoImplicit false

namespace PredictionMarket

open Library

structure ShareKey where
  userId : UserId
  marketId : MarketId
  side : OriginalSide
  deriving DecidableEq

def OriginalSide.sellType : OriginalSide → BookType
  | .yes => .nativeSell
  | .no => .syntheticBuy

theorem OriginalSide.sellType_paysCash (side : OriginalSide) : side.sellType.paysCash = false := by
  cases side <;> rfl

/-- What `qty` shares of an order of this book type are of the shares under a key. -/
def BookType.sold (b : BookType) (userId : UserId) (marketId : MarketId) (qty : Int)
    (k : ShareKey) : Int :=
  if k.userId = userId ∧ k.marketId = marketId ∧ b = k.side.sellType then qty else 0

namespace BookType

variable {b : BookType} {userId : UserId} {marketId : MarketId} {qty : Int}

@[simp] theorem sold_zero (k : ShareKey) : b.sold userId marketId 0 k = 0 := ite_self 0

theorem sold_sub (x y : Int) (k : ShareKey) : b.sold userId marketId (x - y) k =
    b.sold userId marketId x k - b.sold userId marketId y k := by
  unfold sold
  split
  · rfl
  · rfl

theorem sold_nonneg (nonneg : 0 ≤ qty) (k : ShareKey) : 0 ≤ b.sold userId marketId qty k := by
  unfold sold
  split
  · exact nonneg
  · exact le_rfl

theorem sold_of_cash (cash : b.paysCash = true) (k : ShareKey) :
    b.sold userId marketId qty k = 0 := by
  apply if_neg
  rintro ⟨_, _, same⟩
  rw [same, k.side.sellType_paysCash] at cash
  cases cash

theorem sold_sellType (side : OriginalSide) (k : ShareKey) :
    side.sellType.sold userId marketId qty k = if k = ⟨userId, marketId, side⟩ then qty else 0 := by
  obtain ⟨user, market, kind⟩ := k
  unfold sold
  congr 1
  cases kind <;> cases side <;> simp [OriginalSide.sellType]

end BookType

def OriginalSide.buyType : OriginalSide → BookType
  | .yes => .nativeBuy
  | .no => .syntheticSell

/-- What `qty` shares of an order of this book type bring to the shares under a key. -/
def BookType.bought (b : BookType) (userId : UserId) (marketId : MarketId) (qty : Int)
    (k : ShareKey) : Int :=
  if k.userId = userId ∧ k.marketId = marketId ∧ b = k.side.buyType then qty else 0

namespace BookType

variable {b : BookType} {userId : UserId} {marketId : MarketId} {qty : Int}

theorem bought_of_shares (shares : b.paysCash = false) (k : ShareKey) :
    b.bought userId marketId qty k = 0 := by
  apply if_neg
  rintro ⟨_, _, rfl⟩
  cases side : k.side <;> rw [side] at shares <;> cases shares

private theorem bought_buyType (side : OriginalSide) (k : ShareKey) :
    side.buyType.bought userId marketId qty k =
      if k = ⟨userId, marketId, side⟩ then qty else 0 := by
  obtain ⟨user, market, kind⟩ := k
  unfold bought
  congr 1
  cases kind <;> cases side <;> simp [OriginalSide.buyType]

end BookType

namespace Holdings

variable {h h' h'' : Holdings} {userId : UserId} {marketId : MarketId}

def columnOf (h : Holdings) (column : Holding → Int) (k : ShareKey) : Int :=
  (h.positions.get? (k.userId, k.marketId)).elim 0 (fun r => column (r.holding k.side))

/-- The positions after every holding has moved by what `x` says in one column. -/
def Shifts (h : Holdings) (column : Holding → Int) (x : ShareKey → Int) (h' : Holdings) : Prop :=
  ∀ k, h'.columnOf column k = h.columnOf column k + x k

variable {column : Holding → Int}

namespace Shifts

variable {x y : ShareKey → Int}

theorem of_positions (same : h'.positions = h.positions) : Shifts h column (fun _ => 0) h' := by
  intro k
  rw [columnOf, same, add_zero]
  rfl

private theorem trans (first : Shifts h column x h') (second : Shifts h' column y h'') :
    Shifts h column (fun k => x k + y k) h'' := by
  intro k
  rw [second, first, add_assoc]

theorem congr (shifts : Shifts h column x h') (same : ∀ k, x k = y k) : Shifts h column y h' := by
  intro k
  rw [shifts, same]

theorem thenSame (first : Shifts h column x h') (second : Shifts h' column (fun _ => 0) h'') :
    Shifts h column x h'' := (first.trans second).congr (fun _ => add_zero _)

end Shifts

private theorem updatePosition_shifts {f : PositionRow → PositionRow} {x : OriginalSide → Int}
    (done : h.updatePosition userId marketId f = .ok h')
    (moves : ∀ r side, column ((f r).holding side) = column (r.holding side) + x side)
    (there : h.positions.get? (userId, marketId) = none → ∀ side, x side = 0) :
    Shifts h column
      (fun k => if k.userId = userId ∧ k.marketId = marketId then x k.side else 0) h' := by
  intro k
  unfold columnOf
  rw [Table.get?_update? (updatePosition_ok done).2]
  by_cases here : k.userId = userId ∧ k.marketId = marketId
  · obtain ⟨rfl, rfl⟩ := here
    simp only [and_self, if_true]
    cases got : h.positions.get? (k.userId, k.marketId) with
    | none => simp [there got]
    | some r => simp [moves r k.side]
  · simp [here, Prod.ext_iff]

private theorem column_modify (r : PositionRow) (at_ side : OriginalSide) {f : Holding → Holding}
    {x : Int}
    (moves : ∀ c, column (f c) = column c + x) :
    column ((r.modify at_ f).holding side) =
      column (r.holding side) + if side = at_ then x else 0 := by
  cases at_ <;> cases side <;> simp [PositionRow.modify, PositionRow.holding, moves]

theorem atSide (side : OriginalSide) (k : ShareKey) (x : Int) :
    (if k.userId = userId ∧ k.marketId = marketId then (if k.side = side then x else 0) else 0) =
      if k = ⟨userId, marketId, side⟩ then x else 0 := by
  obtain ⟨user, market, kind⟩ := k
  by_cases here : user = userId ∧ market = marketId
  · simp [here]
  · have other : ¬ (user = userId ∧ market = marketId ∧ kind = side) :=
      fun all => here ⟨all.1, all.2.1⟩
    simp [here, other]

private theorem addVolume_shifts {side : OriginalSide} {qty cost x : Int} (zero : column .empty = 0)
    (moves : ∀ c : Holding, column (c.bought qty cost) = column c + x)
    (done : h.addVolume side userId marketId qty cost = .ok h') :
    Shifts h column (fun k => if k = ⟨userId, marketId, side⟩ then x else 0) h' := by
  have empty : ∀ s, column (PositionRow.empty.holding s) = 0 := by
    intro s
    cases s <;> exact zero
  suffices moved : Shifts h column (fun k => if k.userId = userId ∧ k.marketId = marketId then
      (if k.side = side then x else 0) else 0) h' from moved.congr (fun k => atSide side k x)
  intro k
  unfold columnOf
  rw [Table.get?_upsert? (addVolume_ok done).2]
  by_cases here : k.userId = userId ∧ k.marketId = marketId
  · obtain ⟨rfl, rfl⟩ := here
    simp only [and_self, if_true]
    cases h.positions.get? (k.userId, k.marketId) with
    | none => simp [column_modify _ _ _ moves, empty]
    | some r => simp [column_modify _ _ _ moves]
  · simp [here, Prod.ext_iff]

theorem modifyPosition_shifts {side : OriginalSide} {f : Holding → Holding} {x : Int}
    (moves : ∀ c, column (f c) = column c + x)
    (done : h.updatePosition userId marketId (fun r => r.modify side f) = .ok h')
    (there : h.positions.get? (userId, marketId) = none → x = 0) :
    Shifts h column (fun k => if k = ⟨userId, marketId, side⟩ then x else 0) h' :=
  (updatePosition_shifts done (fun r s => column_modify r side s moves)
    (fun none s => by simp [there none])).congr (fun k => atSide side k x)

end Holdings

/-- A column that bought and sold shares move by fixed multiples of their quantity, and
netted shares by another one. -/
structure Tracks (column : Holding → Int) (bought sold netted : Int) : Prop where
  empty : column .empty = 0
  bought : ∀ c qty cost, column (Holding.bought c qty cost) = column c + bought * qty
  sold : ∀ c qty released, column (Holding.sold c qty released) = column c + -(sold * qty)
  netted : ∀ (c : Holding) qty released, column
    { c with volume := c.volume - qty, costSum := c.costSum - released } =
      column c + -(netted * qty)

section Settle

variable {trade : TradeResult} {market market' : MarketState} {h h' : Holdings}
  {column : Holding → Int} {b s n : Int}

def TradeResult.sold (trade : TradeResult) (k : ShareKey) : Int :=
  trade.buyBookType.sold trade.buyUserId trade.marketId trade.quantity k +
    trade.sellBookType.sold trade.sellUserId trade.marketId trade.quantity k

def TradeResult.bought (trade : TradeResult) (k : ShareKey) : Int :=
  trade.buyBookType.bought trade.buyUserId trade.marketId trade.quantity k +
    trade.sellBookType.bought trade.sellUserId trade.marketId trade.quantity k

private theorem addVolume_tracked {side : OriginalSide} {userId : UserId} {marketId : MarketId}
    {qty cost : Int} (tracks : Tracks column b s n)
    (done : h.addVolume side userId marketId qty cost = .ok h') :
    h.Shifts column (fun k => b * side.buyType.bought userId marketId qty k) h' :=
  (Holdings.addVolume_shifts tracks.empty (fun c => tracks.bought c qty cost) done).congr
    (fun k => by rw [BookType.bought_buyType, mul_ite, mul_zero])

private theorem reduceVolume_tracked {side : OriginalSide} {userId : UserId} {marketId : MarketId}
    {qty released : Int} {r : PositionRow} (tracks : Tracks column b s n)
    (got : h.positions.get? (userId, marketId) = some r)
    (done : h.reduceVolume side userId marketId qty released = .ok h') :
    h.Shifts column (fun k => -(s * side.sellType.sold userId marketId qty k)) h' :=
  (Holdings.modifyPosition_shifts (fun c => tracks.sold c qty released) done
    (fun none => by rw [got] at none; cases none)).congr
    (fun k => by rw [BookType.sold_sellType, mul_ite, mul_zero]; split <;> simp)

private theorem clearTransfer_shifts {side : OriginalSide} {payer holder : UserId}
    {unitPrice pnl : Int} {missing : String} (tracks : Tracks column b s n)
    (done : clearTransfer side payer holder unitPrice missing trade market h =
      .ok (pnl, market', h')) :
    h.Shifts column (fun k => b * side.buyType.bought payer trade.marketId trade.quantity k -
      s * side.sellType.sold holder trade.marketId trade.quantity k) h' := by
  obtain ⟨h₁, h₂, h₃, row, debit, buy, got, sell, credit, _, _⟩ := clearTransfer_ok done
  have paid : h.Shifts column (fun _ => 0) h₁ :=
    .of_positions (Holdings.unfreezeDebit_positions debit)
  have sold := (reduceVolume_tracked tracks got sell).thenSame
    (.of_positions (Holdings.addBalance_positions credit))
  exact ((paid.trans (addVolume_tracked tracks buy)).trans sold).congr (fun k => by ring)

theorem settleTrade_shifts {pnl : RealizedPnl} (tracks : Tracks column b s n)
    (done : settleTrade trade market h = .ok (pnl, market', h'))
    (buys : trade.buyBookType.direction = .buy) (sells : trade.sellBookType.direction = .sell) :
    h.Shifts column (fun k => b * trade.bought k - s * trade.sold k) h' := by
  have cashless : ∀ (b : BookType) (user : UserId) (k : ShareKey), b.paysCash = true →
      b.sold user trade.marketId trade.quantity k = 0 := fun b user k cash => b.sold_of_cash cash k
  have buyless : ∀ (b : BookType) (user : UserId) (k : ShareKey), b.paysCash = false →
      b.bought user trade.marketId trade.quantity k = 0 :=
    fun b user k shares => b.bought_of_shares shares k
  cases settleTrade_ok done with
  | mint scenario ran =>
    obtain ⟨buy, sell⟩ := TradeResult.types_of_scenario scenario buys sells
    obtain ⟨⟨h₁, h₂, h₃, debit₁, buy₁, debit₂, buy₂⟩, _, _⟩ := clearMint_ok ran
    have paid₁ : h.Shifts column (fun _ => 0) h₁ :=
      .of_positions (Holdings.unfreezeDebit_positions debit₁)
    have paid₂ : h₂.Shifts column (fun _ => 0) h₃ :=
      .of_positions (Holdings.unfreezeDebit_positions debit₂)
    have both := (paid₁.trans (addVolume_tracked tracks buy₁)).trans
      (paid₂.trans (addVolume_tracked tracks buy₂))
    refine both.congr (fun k => ?_)
    rw [TradeResult.sold, TradeResult.bought, buy, sell]
    simp only [TradeScenario.types]
    rw [cashless .nativeBuy _ _ rfl, cashless .syntheticSell _ _ rfl]
    simp only [OriginalSide.buyType]
    ring
  | transferYes scenario ran =>
    obtain ⟨buy, sell⟩ := TradeResult.types_of_scenario scenario buys sells
    refine (clearTransfer_shifts tracks ran).congr (fun k => ?_)
    rw [TradeResult.sold, TradeResult.bought, buy, sell]
    simp only [TradeScenario.types]
    rw [cashless .nativeBuy _ _ rfl, buyless .nativeSell _ _ rfl, add_zero, zero_add]
    rfl
  | transferNo scenario ran =>
    obtain ⟨buy, sell⟩ := TradeResult.types_of_scenario scenario buys sells
    refine (clearTransfer_shifts tracks ran).congr (fun k => ?_)
    rw [TradeResult.sold, TradeResult.bought, buy, sell]
    simp only [TradeScenario.types]
    rw [cashless .syntheticSell _ _ rfl, buyless .syntheticBuy _ _ rfl, add_zero, zero_add]
    rfl
  | burn scenario ran =>
    obtain ⟨buy, sell⟩ := TradeResult.types_of_scenario scenario buys sells
    obtain ⟨yesRow, noRow, h₁, h₂, h₃, yesCostRel, noCostRel, gotYes, gotNo, _, _, sellYes,
      creditYes, sellNo, creditNo, _, _⟩ := clearBurn_ok ran
    obtain ⟨r, gotNo'⟩ : ∃ r, h₂.positions.get? (trade.buyUserId, trade.marketId) = some r := by
      rw [Holdings.addBalance_positions creditYes]
      exact Holdings.position_updatePosition sellYes gotNo
    have yes := (reduceVolume_tracked tracks gotYes sellYes).thenSame
      (.of_positions (Holdings.addBalance_positions creditYes))
    have no := (reduceVolume_tracked tracks gotNo' sellNo).thenSame
      (.of_positions (Holdings.addBalance_positions creditNo))
    refine (yes.trans no).congr (fun k => ?_)
    rw [TradeResult.sold, TradeResult.bought, buy, sell]
    simp only [TradeScenario.types]
    rw [buyless .syntheticBuy _ _ rfl, buyless .nativeSell _ _ rfl]
    simp only [OriginalSide.sellType]
    ring

theorem collectFee_positions {feeBps fee : Int}
    (done : collectFee trade feeBps h = .ok (fee, h')) : h'.positions = h.positions := by
  cases (collectFee_ok done).2 with
  | fromFrozen h₁ _ debit credit =>
    exact (Holdings.addBalance_positions credit).trans (Holdings.unfreezeDebit_positions debit)
  | fromProceeds h₁ _ debit credit =>
    exact (Holdings.addBalance_positions credit).trans (Holdings.addBalance_positions debit)

theorem executeNetting_shifts {userId : UserId} {marketId : MarketId} {qty : Int}
    (tracks : Tracks column b s n)
    (done : executeNettingIfNeeded userId marketId market h = .ok (qty, market', h')) :
    h.Shifts column
      (fun k => if k.userId = userId ∧ k.marketId = marketId then -(n * qty) else 0) h' := by
  rcases executeNettingIfNeeded_ok done with ⟨_, rfl, _, rfl⟩ |
    ⟨row, h₁, yesCostRel, noCostRel, _, got, _, _, _, _, net, credit, _⟩
  · exact (Holdings.Shifts.of_positions rfl).congr (fun k => by simp)
  · have moves : ∀ (r : PositionRow) side,
        column ((r.netted qty yesCostRel noCostRel).holding side) =
          column (r.holding side) + -(n * qty) := by
      intro r side
      cases side <;> exact tracks.netted _ _ _
    have netted := Holdings.updatePosition_shifts net moves
      (fun none _ => by rw [got] at none; cases none)
    exact netted.thenSame (.of_positions (Holdings.addBalance_positions credit))

end Settle

end PredictionMarket
