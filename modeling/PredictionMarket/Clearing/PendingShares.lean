/- PredictionMarket/Clearing/PendingShares
   digest: What each clearing step takes out of the pending columns of the positions. -/

import PredictionMarket.Clearing.Columns

set_option autoImplicit false
set_option relaxedAutoImplicit false

namespace PredictionMarket

open Library

namespace Holdings

variable {h h' h'' : Holdings} {userId : UserId} {marketId : MarketId}

def pendingOf (h : Holdings) (k : ShareKey) : Int :=
  (h.positions.get? (k.userId, k.marketId)).elim 0 (fun r => (r.holding k.side).pendingSell)

/-- The positions after each pending column has lost what `x` says. -/
def Unpends (h : Holdings) (x : ShareKey → Int) (h' : Holdings) : Prop :=
  ∀ k, h'.pendingOf k = h.pendingOf k - x k

namespace Unpends

variable {x y : ShareKey → Int}

theorem of_positions (same : h'.positions = h.positions) : Unpends h (fun _ => 0) h' := by
  intro k
  rw [pendingOf, same, sub_zero]
  rfl

theorem trans (first : Unpends h x h') (second : Unpends h' y h'') :
    Unpends h (fun k => x k + y k) h'' := by
  intro k
  rw [second, first, sub_sub]

theorem congr (unpends : Unpends h x h') (same : ∀ k, x k = y k) : Unpends h y h' := by
  intro k
  rw [unpends, same]

theorem thenSame (first : Unpends h x h') (second : Unpends h' (fun _ => 0) h'') :
    Unpends h x h'' := (first.trans second).congr (fun _ => add_zero _)

end Unpends

theorem updatePosition_unpends {f : PositionRow → PositionRow} {x : OriginalSide → Int}
    (done : h.updatePosition userId marketId f = .ok h')
    (moves : ∀ r side, h.positions.get? (userId, marketId) = some r →
      ((f r).holding side).pendingSell = (r.holding side).pendingSell - x side)
    (there : h.positions.get? (userId, marketId) = none → ∀ side, x side = 0) :
    Unpends h (fun k => if k.userId = userId ∧ k.marketId = marketId then x k.side else 0) h' := by
  intro k
  unfold pendingOf
  rw [Table.get?_update? (updatePosition_ok done).2]
  by_cases here : k.userId = userId ∧ k.marketId = marketId
  · obtain ⟨rfl, rfl⟩ := here
    simp only [and_self, if_true]
    cases got : h.positions.get? (k.userId, k.marketId) with
    | none => simp [there got]
    | some r => simp [moves r k.side got]
  · simp [here, Prod.ext_iff]

private theorem addPending_unpends {side : OriginalSide} {qty : Int}
    (done : h.addPending side userId marketId (-qty) = .ok h')
    (there : h.positions.get? (userId, marketId) = none → qty = 0) :
    Unpends h (side.sellType.sold userId marketId qty) h' := by
  have moved := updatePosition_unpends (x := fun s => if s = side then qty else 0) done
    (fun r s _ => by
      cases side <;> cases s <;> simp [PositionRow.modify, PositionRow.holding, sub_eq_add_neg])
    (fun none s => by simp [there none])
  refine moved.congr (fun k => ?_)
  rw [BookType.sold_sellType]
  exact atSide side k qty

theorem takePending_unpends {side : OriginalSide} {qty : Int}
    (done : h.addPending side userId marketId (-qty) = .ok h') (nonneg : 0 ≤ qty)
    (covered : qty ≤ h.pendingOf ⟨userId, marketId, side⟩) :
    Unpends h (side.sellType.sold userId marketId qty) h' := by
  refine addPending_unpends done (fun none => ?_)
  simp only [pendingOf, none, Option.elim_none] at covered
  omega

end Holdings

section Settle

variable {trade : TradeResult} {market market' : MarketState} {h h' : Holdings}

private theorem pendingSell_tracks : Tracks Holding.pendingSell 0 1 0 := by
  constructor
  · rfl
  · intro c qty cost
    simp [Holding.bought]
  · intro c qty released
    simp only [Holding.sold]
    omega
  · intro c qty released
    simp

theorem settleTrade_unpends {pnl : RealizedPnl}
    (done : settleTrade trade market h = .ok (pnl, market', h'))
    (buys : trade.buyBookType.direction = .buy) (sells : trade.sellBookType.direction = .sell) :
    h.Unpends trade.sold h' := by
  intro k
  have shifted : h'.pendingOf k = h.pendingOf k + (0 * trade.bought k - 1 * trade.sold k) :=
    settleTrade_shifts pendingSell_tracks done buys sells k
  omega

theorem collectFee_unpends {feeBps fee : Int} (done : collectFee trade feeBps h = .ok (fee, h')) :
    h.Unpends (fun _ => 0) h' := .of_positions (collectFee_positions done)

theorem executeNetting_unpends {userId : UserId} {marketId : MarketId} {qty : Int}
    (done : executeNettingIfNeeded userId marketId market h = .ok (qty, market', h')) :
    h.Unpends (fun _ => 0) h' := by
  intro k
  have shifted : h'.pendingOf k = h.pendingOf k +
      if k.userId = userId ∧ k.marketId = marketId then -(0 * qty) else 0 :=
    executeNetting_shifts pendingSell_tracks done k
  show h'.pendingOf k = h.pendingOf k - 0
  split at shifted <;> omega

end Settle

end PredictionMarket
