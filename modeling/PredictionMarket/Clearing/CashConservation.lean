/- PredictionMarket/Clearing/CashConservation
   digest: Clearing neither makes nor loses cash as long as whoever is paid has an account. -/

import PredictionMarket.Clearing.CostConservation
import PredictionMarket.Clearing.FrozenFunds

set_option autoImplicit false
set_option relaxedAutoImplicit false

namespace PredictionMarket

open Library

namespace Holdings

variable {h h' h'' : Holdings} {userId : UserId}

/-- The same accounts, with `x` more cash in all of them together. -/
structure Earns (h : Holdings) (x : Int) (h' : Holdings) : Prop where
  total : h'.totalBalance = h.totalBalance + x
  accounts : ∀ user, h'.HasAccount user ↔ h.HasAccount user

namespace Earns

variable {x y : Int}

theorem of_accounts (same : h'.accounts = h.accounts) : Earns h 0 h' := by
  constructor
  · rw [totalBalance, same, add_zero]
    rfl
  · intro user
    rw [HasAccount, same]
    rfl

theorem trans (first : Earns h x h') (second : Earns h' y h'') : Earns h (x + y) h'' := by
  constructor
  · rw [second.total, first.total, add_assoc]
  · intro user
    rw [second.accounts, first.accounts]

end Earns

private theorem updateAccount_earns {f : AccountRow → AccountRow} {x : Int}
    (done : h.updateAccount userId f = .ok h') (there : h.HasAccount userId)
    (shift : ∀ a, (f a).availableBalance + (f a).frozenBalance =
      a.availableBalance + a.frozenBalance + x) : Earns h x h' :=
  ⟨totalBalance_updateAccount done there shift, hasAccount_updateAccount done⟩

theorem unfreezeDebit_earns {unfreeze refund : Int}
    (done : h.unfreezeDebit userId unfreeze refund = .ok h') (there : h.HasAccount userId) :
    Earns h (refund - unfreeze) h' :=
  updateAccount_earns done there (fun a => by simp only; omega)

theorem addBalance_earns {amount : Int} (done : h.addBalance userId amount = .ok h')
    (there : h.HasAccount userId) : Earns h amount h' :=
  updateAccount_earns done there (fun a => by simp only; omega)

/-- A credit without an account to go to is lost. -/
theorem addBalance_lost {amount : Int} (done : h.addBalance userId amount = .ok h')
    (none : ¬ h.HasAccount userId) : h'.totalBalance = h.totalBalance := by
  have absent : h.accounts.get? userId = Option.none := by simpa [HasAccount] using none
  rw [totalBalance, Table.sum_update? (updateAccount_ok done).2, absent, Option.elim_none, add_zero]
  rfl

end Holdings

def cash (s : ClearingState) : Int := s.2.totalBalance + s.1.reserveBalance

section Steps

variable {trade : TradeResult} {market market' : MarketState} {h h' : Holdings}

private theorem clearMint_cash {pnl : RealizedPnl} (buyer : h.HasAccount trade.buyUserId)
    (seller : h.HasAccount trade.sellUserId)
    (done : clearMint trade market h = .ok (pnl, market', h')) :
    cash (market', h') = cash (market, h) ∧ ∀ user, h'.HasAccount user ↔ h.HasAccount user := by
  obtain ⟨⟨h₁, h₂, h₃, debit₁, buy₁, debit₂, buy₂⟩, _, rfl⟩ := clearMint_ok done
  have first := (Holdings.unfreezeDebit_earns debit₁ buyer).trans
    (.of_accounts (Holdings.addVolume_ok buy₁).1)
  have second := (Holdings.unfreezeDebit_earns debit₂ ((first.accounts _).mpr seller)).trans
    (.of_accounts (Holdings.addVolume_ok buy₂).1)
  have value : trade.price * trade.quantity + (100 - trade.price) * trade.quantity =
      trade.quantity * 100 := by ring
  have both := first.trans second
  refine ⟨?_, both.accounts⟩
  unfold cash
  simp only [both.total]
  omega

private theorem clearTransfer_cash {side : OriginalSide} {payer holder : UserId}
    {unitPrice pnl : Int}
    {missing : String} (pays : h.HasAccount payer) (holds : h.HasAccount holder)
    (done : clearTransfer side payer holder unitPrice missing trade market h =
      .ok (pnl, market', h')) :
    cash (market', h') = cash (market, h) ∧ ∀ user, h'.HasAccount user ↔ h.HasAccount user := by
  obtain ⟨h₁, h₂, h₃, row, debit, buy, _, sell, credit, _, rfl⟩ := clearTransfer_ok done
  have paid := ((Holdings.unfreezeDebit_earns debit pays).trans
    (.of_accounts (Holdings.addVolume_ok buy).1)).trans
    (.of_accounts (Holdings.updatePosition_ok sell).1)
  have both := paid.trans (Holdings.addBalance_earns credit ((paid.accounts _).mpr holds))
  refine ⟨?_, both.accounts⟩
  unfold cash
  simp only [both.total]
  omega

private theorem clearBurn_cash {pnl : RealizedPnl} (buyer : h.HasAccount trade.buyUserId)
    (seller : h.HasAccount trade.sellUserId)
    (done : clearBurn trade market h = .ok (pnl, market', h')) :
    cash (market', h') = cash (market, h) ∧ ∀ user, h'.HasAccount user ↔ h.HasAccount user := by
  obtain ⟨yesRow, noRow, h₁, h₂, h₃, yesCostRel, noCostRel, _, _, _, _, sellYes, creditYes,
    sellNo, creditNo, _, rfl⟩ := clearBurn_ok done
  have sold₁ : h.Earns 0 h₁ := .of_accounts (Holdings.updatePosition_ok sellYes).1
  have first := sold₁.trans
    (Holdings.addBalance_earns creditYes ((sold₁.accounts _).mpr seller))
  have sold₂ : h.Earns _ h₃ := first.trans (.of_accounts (Holdings.updatePosition_ok sellNo).1)
  have both := sold₂.trans (Holdings.addBalance_earns creditNo ((sold₂.accounts _).mpr buyer))
  have value : trade.price * trade.quantity + (100 - trade.price) * trade.quantity =
      100 * trade.quantity := by ring
  refine ⟨?_, both.accounts⟩
  unfold cash
  simp only [both.total]
  omega

theorem settleTrade_cash {pnl : RealizedPnl} (buyer : h.HasAccount trade.buyUserId)
    (seller : h.HasAccount trade.sellUserId)
    (done : settleTrade trade market h = .ok (pnl, market', h')) :
    cash (market', h') = cash (market, h) ∧ ∀ user, h'.HasAccount user ↔ h.HasAccount user := by
  cases settleTrade_ok done with
  | mint _ ran => exact clearMint_cash buyer seller ran
  | transferYes _ ran => exact clearTransfer_cash buyer seller ran
  | transferNo _ ran => exact clearTransfer_cash seller buyer ran
  | burn _ ran => exact clearBurn_cash buyer seller ran

theorem executeNetting_cash {userId : UserId} {marketId : MarketId} {qty : Int}
    (done : executeNettingIfNeeded userId marketId market h = .ok (qty, market', h')) :
    (cash (market', h') = cash (market, h) ↔
      h.HasAccount userId ∨ h.netting? userId marketId = none) ∧
      ∀ user, h'.HasAccount user ↔ h.HasAccount user := by
  rcases executeNettingIfNeeded_ok done with ⟨idle, _, rfl, rfl⟩ |
    ⟨row, h₁, yesCostRel, noCostRel, busy, _, _, positive, _, _, net, credit, rfl⟩
  · exact ⟨⟨fun _ => Or.inr idle, fun _ => rfl⟩, fun _ => Iff.rfl⟩
  · have netted : h.Earns 0 h₁ := .of_accounts (Holdings.updatePosition_ok net).1
    refine ⟨?_, fun user =>
      (Holdings.hasAccount_updateAccount credit user).trans (netted.accounts user)⟩
    simp only [busy, reduceCtorEq, or_false]
    unfold cash
    by_cases there : h.HasAccount userId
    · have both := netted.trans
        (Holdings.addBalance_earns credit ((netted.accounts _).mpr there))
      simp only [both.total, there, iff_true]
      omega
    · have lost := Holdings.addBalance_lost credit (fun here => there ((netted.accounts _).mp here))
      simp only [lost, netted.total, there, iff_false]
      omega

end Steps

def Payable : ClearingState → ClearingOp → Prop
  | (_, h), .fill trade => h.HasAccount trade.buyUserId ∧ h.HasAccount trade.sellUserId
  | (market, h), .netting userId =>
    h.HasAccount userId ∨ h.netting? userId market.id = none

private theorem clearingStep_cash {s s' : ClearingState} {op : ClearingOp}
    (step : Guarded Payable clearingStep s op s') : cash s' = cash s := by
  obtain ⟨payable, step⟩ := step
  obtain ⟨market, h⟩ := s
  obtain ⟨market', h'⟩ := s'
  cases op with
  | netting userId =>
    obtain ⟨qty, done⟩ := step
    exact (executeNetting_cash done).1.mpr payable
  | fill trade =>
    obtain ⟨_, pnl, done⟩ := step
    exact (settleTrade_cash payable.1 payable.2 done).1

/-- Cash conservation: a fill between users with accounts conserves cash, a
netting does so exactly when there is an account for what it refunds, and so does
every sequence of these. -/
theorem cash_conserved (market : MarketState) (h : Holdings) :
    (∀ trade pnl market' h', h.HasAccount trade.buyUserId → h.HasAccount trade.sellUserId →
      settleTrade trade market h = .ok (pnl, market', h') →
      cash (market', h') = cash (market, h)) ∧
    (∀ userId marketId qty market' h',
      executeNettingIfNeeded userId marketId market h = .ok (qty, market', h') →
      (cash (market', h') = cash (market, h) ↔
        h.HasAccount userId ∨ h.netting? userId marketId = none)) ∧
    ∀ ops s', Run (Guarded Payable clearingStep) (market, h) ops s' →
      cash s' = cash (market, h) := by
  refine ⟨?_, ?_, ?_⟩
  · intro trade pnl market' h' buyer seller done
    exact (settleTrade_cash buyer seller done).1
  · intro userId marketId qty market' h' done
    exact (executeNetting_cash done).1
  · intro ops s' run
    exact run.preserves (P := fun t => cash t = cash (market, h))
      (fun _ _ _ step before => (clearingStep_cash step).trans before) rfl

/-- A sale above cost, and the netting of the buyer after it. -/
theorem sale_keeps_cash : ∃ s', Run (Guarded Payable clearingStep) (tenPairsMarket, tenPairs)
    [.fill saleAboveCost, .netting "buyer"] s' ∧ cash s' = cash (tenPairsMarket, tenPairs) := by
  obtain ⟨r, n, cleared, netted⟩ := sale_clears
  have buyer : tenPairs.HasAccount "buyer" := rfl
  have seller : tenPairs.HasAccount "seller" := rfl
  have still := (settleTrade_cash buyer seller cleared).2
  have run : Run (Guarded Payable clearingStep) (tenPairsMarket, tenPairs)
      [.fill saleAboveCost, .netting "buyer"] (n.2.1, n.2.2) :=
    .cons (t := (r.2.1, r.2.2)) ⟨⟨buyer, seller⟩, rfl, r.1, cleared⟩
      (.single ⟨Or.inl ((still "buyer").mpr buyer), n.1, netted⟩)
  exact ⟨_, run, (cash_conserved tenPairsMarket tenPairs).2.2 _ _ run⟩

section Example

def orphanPairs : Holdings where
  accounts := Table.empty.add "seller" ⟨0, 0, true⟩ rfl AccountRow.check_empty
  positions := Table.empty.add ("orphan", "m") ⟨⟨10, 500, 0⟩, ⟨10, 500, 0⟩⟩ rfl (by decide)

/-- The refund of a netting goes to no account and leaves the reserve. -/
theorem netting_without_account_loses_cash :
    ¬ ∀ userId market h qty market' h',
      executeNettingIfNeeded userId market.id market h = .ok (qty, market', h') →
      cash (market', h') = cash (market, h) := by
  intro claim
  have sums : (executeNettingIfNeeded "orphan" "m" tenPairsMarket orphanPairs).map (fun r =>
      cash (r.2.1, r.2.2)) = .ok 0 := by rfl
  cases netted : executeNettingIfNeeded "orphan" "m" tenPairsMarket orphanPairs with
  | error e => simp [netted, Except.map] at sums
  | ok r =>
    have kept : cash (r.2.1, r.2.2) = 1000 := claim _ _ _ r.1 r.2.1 r.2.2 netted
    simp only [netted, Except.map, Except.ok.injEq, kept] at sums
    cases sums

end Example

end PredictionMarket
