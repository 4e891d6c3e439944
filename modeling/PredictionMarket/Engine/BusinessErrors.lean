/- PredictionMarket/Engine/BusinessErrors
   digest: Only the checks before matching raise business errors; what follows fails in other ways. -/

import PredictionMarket.Engine.PlaceOrder

set_option autoImplicit false
set_option relaxedAutoImplicit false

namespace PredictionMarket

open Library

variable {α β : Type}

def NoApp (x : Except Err α) : Prop := ∀ e, x ≠ .error (.app e)

namespace NoApp

private theorem ok (a : α) : NoApp (.ok a : Except Err α) := fun _ raised => by cases raised

private theorem error {e : Err} (other : ∀ d, e ≠ .app d) : NoApp (.error e : Except Err α) := by
  intro d raised
  exact other d (Except.error.inj raised)

private theorem bind {x : Except Err α} {f : α → Except Err β} (first : NoApp x)
    (rest : ∀ a, NoApp (f a)) : NoApp (x >>= f) := by
  intro e raised
  cases x with
  | error d => exact first e (congrArg _ (Except.error.inj raised))
  | ok a => exact rest a e raised

private theorem ite {p : Prop} [Decidable p] {x y : Except Err α} (yes : NoApp x) (no : NoApp y) :
    NoApp (if p then x else y) := by
  split
  · exact yes
  · exact no

end NoApp

section Statements

variable {h : Holdings} {db : Db} {userId : UserId} {marketId : MarketId}

private theorem updateAccount_noApp (f : AccountRow → AccountRow) : NoApp
    (h.updateAccount userId f) := by
  unfold Holdings.updateAccount
  split
  · exact .ok _
  · exact .error (by simp)

private theorem updatePosition_noApp (f : PositionRow → PositionRow) :
    NoApp (h.updatePosition userId marketId f) := by
  unfold Holdings.updatePosition
  split
  · exact .ok _
  · exact .error (by simp)

private theorem addVolume_noApp (side : OriginalSide) (qty cost : Int) :
    NoApp (h.addVolume side userId marketId qty cost) := by
  unfold Holdings.addVolume
  split
  · exact .ok _
  · exact .error (by simp)

private theorem addBalanceTo_noApp (amount : Int) (missing : String) :
    NoApp (h.addBalanceTo userId amount missing) := by
  unfold Holdings.addBalanceTo
  split
  · exact .error (by simp)
  · exact updateAccount_noApp _

private theorem onHoldings_noApp {f : Holdings → Except Err Holdings}
    (run : NoApp (f db.holdings)) :
    NoApp (db.onHoldings f) := run.bind (fun _ => .ok _)

private theorem updateStatus_noApp (order : Order) : NoApp (db.updateStatus order) := by
  unfold Db.updateStatus
  split
  · exact .ok _
  · exact .error (by simp)

private theorem updateMakerStatus_noApp (trade : TradeResult) : NoApp
    (updateMakerStatus trade db) := by
  unfold updateMakerStatus
  split
  · exact .ok _
  · exact updateStatus_noApp _

private theorem writeTrade_noApp (row : TradeRow) : NoApp (db.writeTrade row) := by
  unfold Db.writeTrade
  exact .ite (.ok _) (.error (by simp))

private theorem flushMarket_noApp (market : MarketState) : NoApp (db.flushMarket market) := by
  unfold Db.flushMarket
  split
  · exact .ok _
  · exact .error (by simp)

end Statements

section Clearing

variable {trade : TradeResult} {market : MarketState} {h : Holdings}

private theorem clearTransfer_noApp (side : OriginalSide) (payer holder : UserId) (unitPrice : Int)
    (missing : String) : NoApp (clearTransfer side payer holder unitPrice missing trade market h) := by
  unfold clearTransfer
  refine (updateAccount_noApp _).bind (fun h₁ => (addVolume_noApp _ _ _).bind (fun h₂ => ?_))
  split
  · exact .error (by simp)
  · exact (updatePosition_noApp _).bind (fun _ => (updateAccount_noApp _).bind (fun _ => .ok _))

private theorem settleTrade_noApp : NoApp (settleTrade trade market h) := by
  unfold settleTrade
  split
  · unfold clearMint
    exact (updateAccount_noApp _).bind (fun _ => (addVolume_noApp _ _ _).bind (fun _ =>
      (updateAccount_noApp _).bind (fun _ => (addVolume_noApp _ _ _).bind (fun _ => .ok _))))
  · exact (clearTransfer_noApp _ _ _ _ _).bind (fun _ => .ok _)
  · exact (clearTransfer_noApp _ _ _ _ _).bind (fun _ => .ok _)
  · unfold clearBurn
    split
    · exact .error (by simp)
    · simp only
      split
      · exact .error (by simp)
      · exact (updatePosition_noApp _).bind (fun _ => (addBalanceTo_noApp _ _).bind (fun _ =>
          (updatePosition_noApp _).bind (fun _ => (addBalanceTo_noApp _ _).bind (fun _ => .ok _))))

private theorem collectFee_noApp (feeBps : Int) : NoApp (collectFee trade feeBps h) := by
  unfold collectFee
  refine NoApp.bind (.ite ?_ ?_) (fun _ => .ok _)
  · exact (updateAccount_noApp _).bind (fun _ => updateAccount_noApp _)
  · exact (updateAccount_noApp _).bind (fun _ => updateAccount_noApp _)

private theorem executeNetting_noApp (userId : UserId) (marketId : MarketId) :
    NoApp (executeNettingIfNeeded userId marketId market h) := by
  unfold executeNettingIfNeeded
  refine .ite (.ok _) ?_
  unfold doNetting
  refine .ite (.ok _) ?_
  split
  · exact .ok _
  · exact .ite (.ok _)
      ((updatePosition_noApp _).bind (fun _ => (updateAccount_noApp _).bind (fun _ => .ok _)))

private theorem verifyInvariants_noApp : NoApp (verifyInvariantsAfterTrade market h) := by
  unfold verifyInvariantsAfterTrade
  refine .ite (.error (by simp)) (.ite (.error (by simp)) (.ite (.error (by simp)) (.ok _)))

end Clearing

section Placement

variable {order : Order} {market : MarketState} {db : Db}

private theorem clearFill_noApp (trade : TradeResult) : NoApp
    (clearFill order trade market db) := by
  unfold clearFill
  exact settleTrade_noApp.bind (fun _ => (updateStatus_noApp _).bind (fun _ =>
    (updateMakerStatus_noApp _).bind (fun _ => (collectFee_noApp _).bind (fun _ =>
      (writeTrade_noApp _).bind (fun _ => (executeNetting_noApp _ _).bind (fun _ => .ok _))))))

/-- By induction on the fills. -/
private theorem clearFills_noApp (trades : List TradeResult) (n : Int) :
    NoApp (clearFills order trades n market db) := by
  induction trades generalizing order n market db with
  | nil => exact .ok _
  | cons trade trades ih => exact (clearFill_noApp trade).bind (fun _ => ih _)

private theorem unfreezeRemainder_noApp : NoApp (unfreezeRemainder order db) := by
  unfold unfreezeRemainder
  split
  · exact (onHoldings_noApp (updateAccount_noApp _)).bind (fun _ => .ok _)
  · exact onHoldings_noApp (updatePosition_noApp _)
  · exact onHoldings_noApp (updatePosition_noApp _)

/-- The self-trade error needs a skipped self-trade. -/
private theorem finalizeOrder_noApp : NoApp (finalizeOrder order 0 db) := by
  unfold finalizeOrder
  refine .ite ?_ (.ok _)
  split
  · exact .ite (.ok _) (.ok _)
  · simp only [lt_irrefl, and_false, if_false]
    exact unfreezeRemainder_noApp.bind (fun _ => (updateStatus_noApp _).bind (fun _ => .ok _))

private theorem clearAndFlush_noApp (matched : Matched) : NoApp
    (clearAndFlush matched market db) := by
  unfold clearAndFlush
  refine (clearFills_noApp _ _).bind (fun r => finalizeOrder_noApp.bind (fun s => ?_))
  obtain ⟨order', db'⟩ := s
  have flushes : NoApp (do
      let db ← db'.flushMarket r.2.2.1
      pure (Placed.mk order' matched.trades r.2.1, db)) :=
    (flushMarket_noApp _).bind (fun _ => .ok _)
  exact .ite (verifyInvariants_noApp.bind (fun _ => flushes)) flushes

/-- A business error of a placement comes before the book is touched. -/
theorem placeOrderInner_app {draft : OrderDraft} {ob ob' : OrderBook} {e : AppError}
    (raised : placeOrderInner draft ob db = (.error (.app e), ob')) :
    acceptOrder draft db = .error (.app e) ∧ ob' = ob := by
  unfold placeOrderInner at raised
  split at raised
  · next d refused =>
    obtain ⟨same, rfl⟩ := Prod.mk.inj raised
    exact ⟨refused.trans (congrArg _ (Except.error.inj same)), rfl⟩
  · exact absurd (Prod.mk.inj raised).1 (clearAndFlush_noApp _ e)

end Placement

end PredictionMarket
