/- PredictionMarket/Clearing/FeeCollector
   digest: The fee step of a fill, and when it neither makes nor loses money. -/

import PredictionMarket.Clearing.Statements
import Mathlib.Data.Rat.Floor

set_option autoImplicit false
set_option relaxedAutoImplicit false

namespace PredictionMarket

open Library

def collectFeeFromFrozen (takerUserId : UserId) (actualFee maxFee : Int) (h : Holdings) :
    Except Err Holdings := do
  let refund := maxFee - actualFee
  let h ← h.unfreezeDebit takerUserId actualFee refund
  h.addBalance PLATFORM_FEE_USER_ID actualFee

def collectFeeFromProceeds (takerUserId : UserId) (actualFee : Int) (h : Holdings) :
    Except Err Holdings := do
  let h ← h.addBalance takerUserId (-actualFee)
  h.addBalance PLATFORM_FEE_USER_ID actualFee

namespace TradeResult

def takerIsBuyer (trade : TradeResult) : Bool := trade.takerOrderId = trade.buyOrderId

def takerBookType (trade : TradeResult) : BookType :=
  if trade.takerIsBuyer then trade.buyBookType else trade.sellBookType

def takerUserId (trade : TradeResult) : UserId :=
  if trade.takerIsBuyer then trade.buyUserId else trade.sellUserId

def feeBase (trade : TradeResult) : Int :=
  getFeeTradeValue trade.takerBookType trade.price trade.quantity trade.buyOriginalPrice

end TradeResult

/-- The fee step of one fill; the collected fee goes on the trade's row. -/
def collectFee (trade : TradeResult) (feeBps : Int) (h : Holdings) :
    Except Err (Int × Holdings) := do
  let actualFee := calcFee trade.feeBase feeBps
  let maxFee := calcMaxFee trade.feeBase
  let h ← (if trade.takerBookType.paysCash then
      collectFeeFromFrozen trade.takerUserId actualFee maxFee h
    else collectFeeFromProceeds trade.takerUserId actualFee h : Except Err Holdings)
  return (actualFee, h)

inductive FeeRun (trade : TradeResult) (fee maxFee : Int) (h h' : Holdings) : Prop
  | fromFrozen (h₁ : Holdings) (cash : trade.takerBookType.paysCash = true)
      (debit : h.unfreezeDebit trade.takerUserId fee (maxFee - fee) = .ok h₁)
      (credit : h₁.addBalance PLATFORM_FEE_USER_ID fee = .ok h')
  | fromProceeds (h₁ : Holdings) (shares : trade.takerBookType.paysCash = false)
      (debit : h.addBalance trade.takerUserId (-fee) = .ok h₁)
      (credit : h₁.addBalance PLATFORM_FEE_USER_ID fee = .ok h')

theorem collectFee_ok {trade : TradeResult} {feeBps fee : Int} {h h' : Holdings}
    (done : collectFee trade feeBps h = .ok (fee, h')) :
    fee = calcFee trade.feeBase feeBps ∧
      FeeRun trade fee (calcMaxFee trade.feeBase) h h' := by
  simp only [collectFee, bind_eq_ok, pure_eq_ok, Prod.mk.injEq] at done
  obtain ⟨h₁, collected, rfl, rfl⟩ := done
  refine ⟨rfl, ?_⟩
  split at collected
  · next cash =>
    simp only [collectFeeFromFrozen, bind_eq_ok] at collected
    obtain ⟨h₂, debit, credit⟩ := collected
    exact .fromFrozen h₂ cash debit credit
  · next shares =>
    simp only [collectFeeFromProceeds, bind_eq_ok] at collected
    obtain ⟨h₂, debit, credit⟩ := collected
    exact .fromProceeds h₂ (Bool.eq_false_iff.mpr shares) debit credit

theorem calcFee_eq_ceil (value bps : Int) :
    calcFee value bps = ⌈(value * bps : ℚ) / 10000⌉ := by
  have ceil := Rat.ceil_intCast_div_natCast (value * bps) 10000
  push_cast at ceil
  rw [ceil, calcFee, Int.fdiv_eq_ediv_of_nonneg _ (by decide)]
  omega

theorem calcMaxFee_eq_calcFee (value : Int) : calcMaxFee value = calcFee value TAKER_FEE_BPS := rfl

theorem calcFee_mono {value value' bps : Int} (rate : 0 ≤ bps) (le : value ≤ value') :
    calcFee value bps ≤ calcFee value' bps := by
  have scaled := mul_le_mul_of_nonneg_right le rate
  unfold calcFee
  rw [Int.fdiv_eq_ediv_of_nonneg _ (by decide), Int.fdiv_eq_ediv_of_nonneg _ (by decide)]
  omega

theorem calcFee_nonneg {value bps : Int} (rate : 0 ≤ bps) (nonneg : 0 ≤ value) :
    0 ≤ calcFee value bps := by
  have zero : calcFee 0 bps = 0 := by simp [calcFee]
  rw [← zero]
  exact calcFee_mono rate nonneg

namespace Holdings

variable {h h' : Holdings} {userId : UserId}

def totalBalance (h : Holdings) : Int :=
  h.accounts.sum (fun _ a => a.availableBalance + a.frozenBalance)

theorem totalBalance_updateAccount {f : AccountRow → AccountRow} {x : Int}
    (done : h.updateAccount userId f = .ok h') (there : (h.accounts.get? userId).isSome)
    (shift : ∀ a, (f a).availableBalance + (f a).frozenBalance =
      a.availableBalance + a.frozenBalance + x) :
    h'.totalBalance = h.totalBalance + x := by
  obtain ⟨a, got⟩ := Option.isSome_iff_exists.mp there
  unfold totalBalance
  rw [Table.sum_update? (updateAccount_ok done).2, got, Option.elim_some, shift]
  omega

theorem isSome_updateAccount {f : AccountRow → AccountRow}
    (done : h.updateAccount userId f = .ok h') (user : UserId) :
    (h'.accounts.get? user).isSome = (h.accounts.get? user).isSome := by
  rw [Table.get?_update? (updateAccount_ok done).2]
  by_cases same : user = userId
  · simp [same]
  · simp [same]

private theorem totalBalance_debit_credit {h₁ : Holdings} {f : AccountRow → AccountRow}
    {x fee : Int}
    (debit : h.updateAccount userId f = .ok h₁)
    (credit : h₁.addBalance PLATFORM_FEE_USER_ID fee = .ok h')
    (taker : (h.accounts.get? userId).isSome)
    (platform : (h.accounts.get? PLATFORM_FEE_USER_ID).isSome)
    (shift : ∀ a, (f a).availableBalance + (f a).frozenBalance =
      a.availableBalance + a.frozenBalance + x) :
    h'.totalBalance = h.totalBalance + x + fee := by
  have still : (h₁.accounts.get? PLATFORM_FEE_USER_ID).isSome :=
    (isSome_updateAccount debit _).trans platform
  rw [totalBalance_updateAccount (x := fee) credit still (fun a => by simp only; omega),
    totalBalance_updateAccount debit taker shift]

end Holdings

/-- A fee taken out of frozen funds changes the total by what the refund differs
from zero; one taken out of proceeds never changes it. -/
theorem collectFee_totalBalance {trade : TradeResult} {feeBps fee : Int} {h h' : Holdings}
    (done : collectFee trade feeBps h = .ok (fee, h'))
    (taker : (h.accounts.get? trade.takerUserId).isSome)
    (platform : (h.accounts.get? PLATFORM_FEE_USER_ID).isSome) :
    h'.totalBalance = h.totalBalance +
      if trade.takerBookType.paysCash then calcMaxFee trade.feeBase - calcFee trade.feeBase feeBps
      else 0 := by
  obtain ⟨rfl, run⟩ := collectFee_ok done
  cases run with
  | fromFrozen h₁ cash debit credit =>
    rw [Holdings.totalBalance_debit_credit debit credit taker platform
      (x := calcMaxFee trade.feeBase - calcFee trade.feeBase feeBps -
        calcFee trade.feeBase feeBps) (fun a => by simp only; omega), if_pos cash]
    omega
  | fromProceeds h₁ shares debit credit =>
    rw [Holdings.totalBalance_debit_credit debit credit taker platform
      (x := -calcFee trade.feeBase feeBps) (fun a => by simp only; omega),
      if_neg (by simp [shares])]
    omega

/-- The market's rate and the rate of the freeze round up to the same fee, for a
taker that pays out of frozen funds. -/
def TradeResult.RatesAgree (trade : TradeResult) (feeBps : Int) : Prop :=
  match trade.takerBookType with
  | .nativeSell | .syntheticBuy => True
  | .nativeBuy => ⌈(trade.price * trade.quantity * feeBps : ℚ) / 10000⌉ =
      ⌈(trade.price * trade.quantity * 20 : ℚ) / 10000⌉
  | .syntheticSell => ⌈(trade.buyOriginalPrice * trade.quantity * feeBps : ℚ) / 10000⌉ =
      ⌈(trade.buyOriginalPrice * trade.quantity * 20 : ℚ) / 10000⌉

/-- The fee step keeps the sum of all balances exactly when the two rates agree
on the fee, or the taker is paid in cash. -/
theorem fee_conserves_money_iff {trade : TradeResult} {feeBps fee : Int} {h h' : Holdings}
    (taker : (h.accounts.get? trade.takerUserId).isSome)
    (platform : (h.accounts.get? PLATFORM_FEE_USER_ID).isSome)
    (done : collectFee trade feeBps h = .ok (fee, h')) :
    h'.totalBalance = h.totalBalance ↔ trade.RatesAgree feeBps := by
  have ceilings : ∀ value : Int, calcMaxFee value - calcFee value feeBps = 0 ↔
      ⌈(value * feeBps : ℚ) / 10000⌉ = ⌈(value * 20 : ℚ) / 10000⌉ := by
    intro value
    rw [calcMaxFee_eq_calcFee, calcFee_eq_ceil, calcFee_eq_ceil, sub_eq_zero, eq_comm]
    rfl
  rw [collectFee_totalBalance done taker platform, add_eq_left]
  unfold TradeResult.RatesAgree TradeResult.feeBase
  cases trade.takerBookType with
  | nativeSell => simp [BookType.paysCash]
  | syntheticBuy => simp [BookType.paysCash]
  | nativeBuy =>
    simpa [BookType.paysCash, getFeeTradeValue] using ceilings (trade.price * trade.quantity)
  | syntheticSell =>
    simpa [BookType.paysCash, getFeeTradeValue] using
      ceilings (trade.buyOriginalPrice * trade.quantity)

section Example

private def takerAndPlatform : Holdings where
  accounts := (Table.empty.add "taker" ⟨0, 1000, true⟩ rfl (by decide)).add
    PLATFORM_FEE_USER_ID ⟨0, 0, false⟩ (by decide) (by decide)
  positions := .empty

private def fiftyDollars : TradeResult :=
  ⟨1, 2, "taker", "maker", "m", 50, 100, .nativeBuy, .nativeSell, 50, 2, 1⟩

private theorem collectFee_fiftyDollars (feeBps : Int)
    (clears : (collectFee fiftyDollars feeBps takerAndPlatform).isOk = true) :
    ∃ fee h', collectFee fiftyDollars feeBps takerAndPlatform = .ok (fee, h') := by
  obtain ⟨⟨fee, h'⟩, done⟩ := exists_of_isOk clears
  exact ⟨fee, h', done⟩

end Example

theorem fee_conserved_at_twenty_bps :
    ∃ fee h', collectFee fiftyDollars 20 takerAndPlatform = .ok (fee, h') ∧
      h'.totalBalance = takerAndPlatform.totalBalance := by
  obtain ⟨fee, h', done⟩ := collectFee_fiftyDollars 20 (by rfl)
  exact ⟨fee, h', done, (fee_conserves_money_iff (by decide) (by decide) done).mpr rfl⟩

/-- A market without fees gives the taker ten cents that nobody pays. -/
theorem fee_free_market_makes_money :
    ¬ ∀ trade feeBps h fee h', 0 ≤ feeBps → feeBps ≤ 1000 →
      (h.accounts.get? (TradeResult.takerUserId trade)).isSome →
      (h.accounts.get? PLATFORM_FEE_USER_ID).isSome →
      collectFee trade feeBps h = .ok (fee, h') → h'.totalBalance = h.totalBalance := by
  intro claim
  obtain ⟨fee, h', done⟩ := collectFee_fiftyDollars 0 (by rfl)
  have kept := claim _ 0 _ _ _ (by decide) (by decide) (by decide) (by decide) done
  have moved := collectFee_totalBalance done (by decide) (by decide)
  rw [kept] at moved
  have gain : (if fiftyDollars.takerBookType.paysCash then
      calcMaxFee fiftyDollars.feeBase - calcFee fiftyDollars.feeBase 0 else 0) = 10 := by decide
  omega

end PredictionMarket
