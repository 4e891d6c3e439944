/- PredictionMarket/Clearing/Frames
   digest: Every clearing step is made of statements on the rows of its own users in one market. -/

import PredictionMarket.Clearing.Inversion
import PredictionMarket.Clearing.FeeCollector

set_option autoImplicit false
set_option relaxedAutoImplicit false

namespace PredictionMarket

open Library

/-- A relation that goes through a sequence of statements of clearing on the rows of some
users in one market. Only charged users lose available cash by a statement. -/
structure Respected (users charged : UserId → Prop) (m : MarketId)
    (R : Holdings → Holdings → Prop) : Prop where
  refl : ∀ h, R h h
  trans : ∀ {h h' h''}, R h h' → R h' h'' → R h h''
  debit : ∀ {h h' user unfreeze refund}, users user → 0 ≤ refund ∨ charged user →
    Holdings.unfreezeDebit h user unfreeze refund = .ok h' → R h h'
  credit : ∀ {h h' user amount}, users user → 0 ≤ amount ∨ charged user →
    Holdings.addBalance h user amount = .ok h' → R h h'
  buy : ∀ {h h' side user qty cost}, users user →
    Holdings.addVolume h side user m qty cost = .ok h' → R h h'
  update : ∀ {h h' user f}, users user → Holdings.updatePosition h user m f = .ok h' → R h h'

namespace Respected

variable {users charged : UserId → Prop} {m : MarketId} {R : Holdings → Holdings → Prop}
  {trade : TradeResult} {market market' : MarketState} {h h' : Holdings}

private theorem clearTransfer (respected : Respected users charged m R) {side : OriginalSide}
    {payer holder : UserId} {unitPrice pnl : Int} {missing : String} (pays : users payer)
    (holds : users holder) (here : trade.marketId = m) (value : 0 ≤ unitPrice * trade.quantity)
    (done : clearTransfer side payer holder unitPrice missing trade market h =
      .ok (pnl, market', h')) : R h h' := by
  subst here
  obtain ⟨h₁, h₂, h₃, row, debit, buy, _, sell, credit, _, _⟩ := clearTransfer_ok done
  have paid := respected.trans (respected.debit pays (Or.inl le_rfl) debit)
    (respected.buy pays buy)
  exact respected.trans paid (respected.trans (respected.update holds sell)
    (respected.credit holds (Or.inl value) credit))

theorem settleTrade (respected : Respected users charged m R) {pnl : RealizedPnl}
    (buyer : users trade.buyUserId) (seller : users trade.sellUserId) (here : trade.marketId = m)
    (price : 1 ≤ trade.price ∧ trade.price ≤ 99) (quantity : 0 < trade.quantity)
    (done : settleTrade trade market h = .ok (pnl, market', h')) : R h h' := by
  have value : 0 ≤ trade.price * trade.quantity := mul_nonneg (by omega) quantity.le
  have rest : 0 ≤ (100 - trade.price) * trade.quantity := mul_nonneg (by omega) quantity.le
  cases settleTrade_ok done with
  | mint _ ran =>
    subst here
    obtain ⟨⟨h₁, h₂, h₃, debit₁, buy₁, debit₂, buy₂⟩, _, _⟩ := clearMint_ok ran
    have first := respected.trans (respected.debit buyer (Or.inl le_rfl) debit₁)
      (respected.buy buyer buy₁)
    have second := respected.trans (respected.debit seller (Or.inl le_rfl) debit₂)
      (respected.buy seller buy₂)
    exact respected.trans first second
  | transferYes _ ran => exact respected.clearTransfer buyer seller here value ran
  | transferNo _ ran => exact respected.clearTransfer seller buyer here rest ran
  | burn _ ran =>
    subst here
    obtain ⟨yesRow, noRow, h₁, h₂, h₃, yesCostRel, noCostRel, _, _, _, _, sellYes, creditYes,
      sellNo, creditNo, _, _⟩ := clearBurn_ok ran
    have yes := respected.trans (respected.update seller sellYes)
      (respected.credit seller (Or.inl value) creditYes)
    have no := respected.trans (respected.update buyer sellNo)
      (respected.credit buyer (Or.inl rest) creditNo)
    exact respected.trans yes no

theorem collectFee (respected : Respected users charged m R) {feeBps fee : Int}
    (taker : users trade.takerUserId) (takerPays : charged trade.takerUserId)
    (platform : users PLATFORM_FEE_USER_ID) (platformPays : charged PLATFORM_FEE_USER_ID)
    (done : collectFee trade feeBps h = .ok (fee, h')) : R h h' := by
  cases (collectFee_ok done).2 with
  | fromFrozen h₁ _ debit credit =>
    exact respected.trans (respected.debit taker (Or.inr takerPays) debit)
      (respected.credit platform (Or.inr platformPays) credit)
  | fromProceeds h₁ _ debit credit =>
    exact respected.trans (respected.credit taker (Or.inr takerPays) debit)
      (respected.credit platform (Or.inr platformPays) credit)

theorem executeNetting (respected : Respected users charged m R) {userId : UserId} {qty : Int}
    (user : users userId)
    (done : executeNettingIfNeeded userId m market h = .ok (qty, market', h')) : R h h' := by
  rcases executeNettingIfNeeded_ok done with ⟨_, _, _, rfl⟩ |
    ⟨row, h₁, yesCostRel, noCostRel, _, _, _, some_, _, _, net, credit, _⟩
  · exact respected.refl _
  · have value : 0 ≤ qty * 100 := mul_nonneg some_.le (by decide)
    exact respected.trans (respected.update user net)
      (respected.credit user (Or.inl value) credit)

end Respected

namespace Holdings

variable {h h' h'' : Holdings}

def SameSwitches (h h' : Holdings) : Prop := ∀ user,
  (h'.accounts.get? user).map AccountRow.autoNettingEnabled =
    (h.accounts.get? user).map AccountRow.autoNettingEnabled

namespace SameSwitches

theorem of_accounts (same : h'.accounts = h.accounts) : SameSwitches h h' :=
  fun user => by rw [same]

theorem trans (first : SameSwitches h h') (second : SameSwitches h' h'') : SameSwitches h h'' :=
  fun user => (second user).trans (first user)

private theorem updateAccount {userId : UserId} {f : AccountRow → AccountRow}
    (done : h.updateAccount userId f = .ok h')
    (keeps : ∀ a, (f a).autoNettingEnabled = a.autoNettingEnabled) : SameSwitches h h' := by
  intro user
  rw [get?_updateAccount done]
  by_cases same : user = userId
  · subst same
    cases h.accounts.get? user <;> simp [keeps]
  · rw [if_neg same]

private theorem unfreezeDebit {userId : UserId} {unfreeze refund : Int}
    (done : h.unfreezeDebit userId unfreeze refund = .ok h') : SameSwitches h h' :=
  updateAccount done (fun _ => rfl)

end SameSwitches

theorem sameSwitches_respected (m : MarketId) :
    Respected (fun _ => True) (fun _ => True) m SameSwitches where
  refl _ := .of_accounts rfl
  trans := SameSwitches.trans
  debit _ _ done := SameSwitches.unfreezeDebit done
  credit _ _ done := SameSwitches.updateAccount done (fun _ => rfl)
  buy _ done := .of_accounts (addVolume_ok done).1
  update _ done := .of_accounts (updatePosition_ok done).1

/-- Nothing but rows of some users changes, and of their positions only those in one
market. -/
structure Touches (users : UserId → Prop) (m : MarketId) (h h' : Holdings) : Prop where
  accounts : ∀ user, ¬ users user → h'.accounts.get? user = h.accounts.get? user
  positions : ∀ user market, ¬ (users user ∧ market = m) →
    h'.positions.get? (user, market) = h.positions.get? (user, market)

namespace Touches

variable {users : UserId → Prop} {m : MarketId}

private theorem updateAccount {userId : UserId} {f : AccountRow → AccountRow}
    (touched : users userId)
    (done : h.updateAccount userId f = .ok h') : Touches users m h h' := by
  constructor
  · intro user other
    have distinct : user ≠ userId := fun same => other (same ▸ touched)
    rw [get?_updateAccount done, if_neg distinct]
  · intro user market _
    rw [(updateAccount_ok done).1]

private theorem key_ne {userId user : UserId} {market : MarketId} (touched : users userId)
    (other : ¬ (users user ∧ market = m)) : (user, market) ≠ (userId, m) := by
  intro same
  obtain ⟨rfl, rfl⟩ := Prod.mk.inj same
  exact other ⟨touched, rfl⟩

end Touches

theorem touches_respected (users : UserId → Prop) (m : MarketId) :
    Respected users (fun _ => True) m (Touches users m) where
  refl _ := ⟨fun _ _ => rfl, fun _ _ _ => rfl⟩
  trans first second :=
    ⟨fun user other => (second.accounts user other).trans (first.accounts user other),
      fun user market other =>
        (second.positions user market other).trans (first.positions user market other)⟩
  debit touched _ done := .updateAccount touched done
  credit touched _ done := .updateAccount touched done
  buy touched done := by
    obtain ⟨same, upserted⟩ := addVolume_ok done
    refine ⟨fun user _ => by rw [same], fun user market other => ?_⟩
    rw [Table.get?_upsert? upserted, if_neg (Touches.key_ne touched other)]
  update touched done := by
    obtain ⟨same, updated⟩ := updatePosition_ok done
    refine ⟨fun user _ => by rw [same], fun user market other => ?_⟩
    rw [Table.get?_update? updated, if_neg (Touches.key_ne touched other)]

end Holdings

end PredictionMarket
