/- PredictionMarket/Clearing/FrozenFunds
   digest: What settlement, fee and netting of one fill draw from the frozen balances. -/

import PredictionMarket.Clearing.Inversion
import PredictionMarket.Clearing.FeeCollector

set_option autoImplicit false
set_option relaxedAutoImplicit false

namespace PredictionMarket

open Library

namespace Holdings

variable {h h' : Holdings} {userId : UserId}

def frozenOf (h : Holdings) (user : UserId) : Int :=
  ((h.accounts.get? user).map AccountRow.frozenBalance).getD 0

def HasAccount (h : Holdings) (user : UserId) : Prop := (h.accounts.get? user).isSome = true

structure SameFrozen (h h' : Holdings) : Prop where
  frozen : ∀ user, h'.frozenOf user = h.frozenOf user
  accounts : ∀ user, h'.HasAccount user ↔ h.HasAccount user

namespace SameFrozen

variable {h'' : Holdings}

theorem of_accounts (same : h'.accounts = h.accounts) : SameFrozen h h' := by
  constructor
  · intro user
    rw [frozenOf, same]
    rfl
  · intro user
    rw [HasAccount, same]
    rfl

theorem refl (h : Holdings) : SameFrozen h h := of_accounts rfl

theorem trans (first : SameFrozen h h') (second : SameFrozen h' h'') : SameFrozen h h'' := by
  constructor
  · intro user
    rw [second.frozen, first.frozen]
  · intro user
    rw [second.accounts, first.accounts]

end SameFrozen

private theorem frozenOf_updateAccount {f : AccountRow → AccountRow}
    (done : h.updateAccount userId f = .ok h') (user : UserId) :
    h'.frozenOf user = if user = userId then
        ((h.accounts.get? userId).map (fun a => (f a).frozenBalance)).getD 0
      else h.frozenOf user := by
  unfold frozenOf
  rw [Table.get?_update? (updateAccount_ok done).2]
  by_cases same : user = userId
  · simp [same, Option.map_map, Function.comp_def]
  · simp [same]

theorem hasAccount_updateAccount {f : AccountRow → AccountRow}
    (done : h.updateAccount userId f = .ok h') (user : UserId) :
    h'.HasAccount user ↔ h.HasAccount user := by
  have same := isSome_updateAccount done user
  constructor
  · intro there
    exact same.symm.trans there
  · intro there
    exact same.trans there

theorem addBalance_sameFrozen {amount : Int} (done : h.addBalance userId amount = .ok h') :
    SameFrozen h h' := by
  constructor
  · intro user
    rw [frozenOf_updateAccount done]
    split
    · next same =>
      subst same
      rfl
    · rfl
  · exact hasAccount_updateAccount done

/-- The accounts after each user's frozen balance has lost what `drawn` says.
Only users with an account have anything to lose. -/
structure Draws (h : Holdings) (drawn : UserId → Int) (h' : Holdings) : Prop where
  frozen : ∀ user, h.HasAccount user → h'.frozenOf user = h.frozenOf user - drawn user
  accounts : ∀ user, h'.HasAccount user ↔ h.HasAccount user

theorem frozenOf_of_none (none : ¬ h.HasAccount userId) : h.frozenOf userId = 0 := by
  have absent : h.accounts.get? userId = Option.none := by simpa [HasAccount] using none
  simp [frozenOf, absent]

theorem frozenOf_nonneg (h : Holdings) (user : UserId) : 0 ≤ h.frozenOf user := by
  unfold frozenOf
  cases got : h.accounts.get? user with
  | none => exact le_rfl
  | some a => exact (Table.check got).2

theorem frozenOf_eq_zero (zero : ∀ e ∈ h.accounts.rows, e.2.frozenBalance = 0) (user : UserId) :
    h.frozenOf user = 0 := by
  unfold frozenOf
  cases got : h.accounts.get? user with
  | none => rfl
  | some a => exact zero (user, a) (Table.mem_iff.mpr got)

theorem unfreezeDebit_draws {unfreeze refund : Int}
    (done : h.unfreezeDebit userId unfreeze refund = .ok h') :
    Draws h (fun user => if user = userId then unfreeze else 0) h' := by
  constructor
  · intro user there
    rw [frozenOf_updateAccount done]
    by_cases same : user = userId
    · subst same
      obtain ⟨a, got⟩ := Option.isSome_iff_exists.mp there
      simp [frozenOf, got]
    · simp [same]
  · exact hasAccount_updateAccount done

namespace Draws

variable {h'' : Holdings} {drawn drawn' : UserId → Int}

theorem of_same (same : SameFrozen h h') : Draws h (fun _ => 0) h' := by
  constructor
  · intro user _
    rw [same.frozen, sub_zero]
  · exact same.accounts

theorem trans (first : Draws h drawn h') (second : Draws h' drawn' h'') :
    Draws h (fun user => drawn user + drawn' user) h'' := by
  constructor
  · intro user there
    rw [second.frozen user ((first.accounts user).mpr there), first.frozen user there]
    omega
  · intro user
    rw [second.accounts, first.accounts]

theorem congr (draws : Draws h drawn h') (same : ∀ user, drawn user = drawn' user) :
    Draws h drawn' h' := (funext same : drawn = drawn') ▸ draws

theorem thenSame (first : Draws h drawn h') (second : SameFrozen h' h'') : Draws h drawn h'' :=
  (first.trans (of_same second)).congr (fun _ => add_zero _)

end Draws

private theorem addVolume_sameFrozen {side : OriginalSide} {marketId : MarketId} {qty cost : Int}
    (done : h.addVolume side userId marketId qty cost = .ok h') : SameFrozen h h' :=
  .of_accounts (addVolume_ok done).1

private theorem reduceVolume_sameFrozen {side : OriginalSide} {marketId : MarketId}
    {qty released : Int}
    (done : h.reduceVolume side userId marketId qty released = .ok h') : SameFrozen h h' :=
  .of_accounts (updatePosition_ok done).1

end Holdings

/-- Cash that one share of an order costs its user at YES price `price`. -/
def BookType.pays : BookType → Int → Int
  | .nativeBuy, price => price
  | .syntheticSell, price => 100 - price
  | .nativeSell, _ | .syntheticBuy, _ => 0

theorem BookType.pays_of_shares {b : BookType} (shares : b.paysCash = false) (price : Int) :
    b.pays price = 0 := by
  cases b with
  | nativeBuy => cases shares
  | syntheticSell => cases shares
  | nativeSell => rfl
  | syntheticBuy => rfl

theorem BookType.pays_nonneg (b : BookType) {price : Int} (low : 1 ≤ price) (high : price ≤ 99) :
    0 ≤ b.pays price := by
  cases b <;> simp only [pays] <;> omega

section Settle

variable {trade : TradeResult} {market market' : MarketState} {h h' : Holdings}

/-- What settlement draws from the frozen balance of `user`. -/
def TradeResult.drawn (trade : TradeResult) (user : UserId) : Int :=
  (if user = trade.buyUserId then trade.buyBookType.pays trade.price * trade.quantity else 0) +
    if user = trade.sellUserId then trade.sellBookType.pays trade.price * trade.quantity else 0

private theorem clearTransfer_draws {side : OriginalSide} {payer holder : UserId}
    {unitPrice pnl : Int} {missing : String}
    (done : clearTransfer side payer holder unitPrice missing trade market h =
      .ok (pnl, market', h')) :
    h.Draws (fun user => if user = payer then unitPrice * trade.quantity else 0) h' ∧
      market' = { market with pnlPool := market'.pnlPool } := by
  obtain ⟨h₁, h₂, h₃, row, debit, buy, got, sell, credit, gain, rfl⟩ := clearTransfer_ok done
  have moved := ((Holdings.addVolume_sameFrozen buy).trans
    (Holdings.reduceVolume_sameFrozen sell)).trans (Holdings.addBalance_sameFrozen credit)
  exact ⟨(Holdings.unfreezeDebit_draws debit).thenSame moved, rfl⟩

theorem settleTrade_draws {pnl : RealizedPnl}
    (done : settleTrade trade market h = .ok (pnl, market', h'))
    (buys : trade.buyBookType.direction = .buy) (sells : trade.sellBookType.direction = .sell) :
    h.Draws trade.drawn h' ∧ market'.takerFeeBps = market.takerFeeBps := by
  cases settleTrade_ok done with
  | mint scenario ran =>
    obtain ⟨buy, sell⟩ := TradeResult.types_of_scenario scenario buys sells
    obtain ⟨⟨h₁, h₂, h₃, debit₁, buy₁, debit₂, buy₂⟩, _, rfl⟩ := clearMint_ok ran
    have first := (Holdings.unfreezeDebit_draws debit₁).thenSame
      (Holdings.addVolume_sameFrozen buy₁)
    have second := (Holdings.unfreezeDebit_draws debit₂).thenSame
      (Holdings.addVolume_sameFrozen buy₂)
    refine ⟨(first.trans second).congr (fun user => ?_), rfl⟩
    simp [TradeResult.drawn, buy, sell, TradeScenario.types, BookType.pays]
  | transferYes scenario ran =>
    obtain ⟨buy, sell⟩ := TradeResult.types_of_scenario scenario buys sells
    obtain ⟨draws, same⟩ := clearTransfer_draws ran
    refine ⟨draws.congr (fun user => ?_), by rw [same]⟩
    simp [TradeResult.drawn, buy, sell, TradeScenario.types, BookType.pays]
  | transferNo scenario ran =>
    obtain ⟨buy, sell⟩ := TradeResult.types_of_scenario scenario buys sells
    obtain ⟨draws, same⟩ := clearTransfer_draws ran
    refine ⟨draws.congr (fun user => ?_), by rw [same]⟩
    simp [TradeResult.drawn, buy, sell, TradeScenario.types, BookType.pays]
  | burn scenario ran =>
    obtain ⟨buy, sell⟩ := TradeResult.types_of_scenario scenario buys sells
    obtain ⟨yesRow, noRow, h₁, h₂, h₃, yesCostRel, noCostRel, _, _, _, _, sellYes, creditYes,
      sellNo, creditNo, _, rfl⟩ := clearBurn_ok ran
    have same := ((Holdings.reduceVolume_sameFrozen sellYes).trans
      (Holdings.addBalance_sameFrozen creditYes)).trans
      ((Holdings.reduceVolume_sameFrozen sellNo).trans (Holdings.addBalance_sameFrozen creditNo))
    refine ⟨(Holdings.Draws.of_same same).congr (fun user => ?_), rfl⟩
    simp [TradeResult.drawn, buy, sell, TradeScenario.types, BookType.pays]

/-- What the fee step draws from the frozen balance of `user`. -/
def TradeResult.feeDrawn (trade : TradeResult) (feeBps : Int) (user : UserId) : Int :=
  if user = trade.takerUserId ∧ trade.takerBookType.paysCash = true then
    calcFee trade.feeBase feeBps
  else 0

theorem collectFee_draws {feeBps fee : Int} (done : collectFee trade feeBps h = .ok (fee, h')) :
    h.Draws (trade.feeDrawn feeBps) h' := by
  obtain ⟨rfl, run⟩ := collectFee_ok done
  cases run with
  | fromFrozen h₁ cash debit credit =>
    have draws := (Holdings.unfreezeDebit_draws debit).thenSame
      (Holdings.addBalance_sameFrozen credit)
    exact draws.congr (fun user => by simp [TradeResult.feeDrawn, cash])
  | fromProceeds h₁ shares debit credit =>
    have same := (Holdings.addBalance_sameFrozen debit).trans
      (Holdings.addBalance_sameFrozen credit)
    exact (Holdings.Draws.of_same same).congr (fun user => by simp [TradeResult.feeDrawn, shares])

theorem executeNetting_sameFrozen {userId : UserId} {marketId : MarketId} {qty : Int}
    (done : executeNettingIfNeeded userId marketId market h = .ok (qty, market', h')) :
    h.SameFrozen h' ∧ market'.takerFeeBps = market.takerFeeBps := by
  rcases executeNettingIfNeeded_ok done with ⟨_, _, rfl, rfl⟩ |
    ⟨row, h₁, yesCostRel, noCostRel, _, _, rfl, _, _, _, net, credit, rfl⟩
  · exact ⟨.refl _, rfl⟩
  · have netted := Holdings.SameFrozen.of_accounts (Holdings.updatePosition_ok net).1
    exact ⟨netted.trans (Holdings.addBalance_sameFrozen credit), rfl⟩

end Settle

end PredictionMarket
