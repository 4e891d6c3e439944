/- PredictionMarket/Admin/GlobalInvariants
   digest: The zero-sum check over accounts, reserves and deposits, and what moves its gap. -/

import PredictionMarket.Engine.AccountLedger
import PredictionMarket.Engine.CashFlow

set_option autoImplicit false
set_option relaxedAutoImplicit false

namespace PredictionMarket

open Library

/-- The process with the whole ledger, what the privileged services insert in a list of
its own. -/
structure Exchange where
  bank : Bank
  amm : List AmmRow

inductive ExchangeOp
  | deposit (userId : UserId) (amount : Int)
  | withdraw (userId : UserId) (amount : Int)
  | request (op : SessionOp)

namespace Exchange

def db (e : Exchange) : Db := e.bank.world.db

def session (e : Exchange) : Session := ⟨e.bank.world, e.amm⟩

def next (e : Exchange) : ExchangeOp → Exchange
  | .deposit userId amount => { e with bank := e.bank.next (.deposit userId amount) }
  | .withdraw userId amount => { e with bank := e.bank.next (.withdraw userId amount) }
  | .request op =>
    let after := e.session.next op
    { bank := e.bank.after after.world, amm := after.inserted }

end Exchange

def exchangeStep : Steps Exchange ExchangeOp := fun e op e' => e' = e.next op

def ExchangeOp.ByCustomer : ExchangeOp → Prop
  | .deposit userId _ | .withdraw userId _ => isHouse userId = false
  | .request op => op.ByCustomer

namespace AdminService

/-- `_USER_BALANCE_SQL` -/
def userBalances (h : Holdings) : Int :=
  h.accounts.sum (fun user a =>
    if isHouse user then 0 else a.availableBalance + a.frozenBalance)

/-- `_MARKET_RESERVE_SQL` -/
def marketReserves (db : Db) : Int := db.markets.sum (fun _ r => r.reserveBalance)

/-- `_NET_DEPOSIT_SQL`; the privileged services write entries of other types. -/
def netDeposits (entries : List LedgerEntry) : Int :=
  ((entries.filter (fun e => e.entryType = .deposit ∨ e.entryType = .withdraw)).map
    LedgerEntry.amount).sum

/-- INV-G. Without a row for the fees the query for them raises. -/
def verifyGlobalInvariants (b : Bank) : Option (List String) :=
  match b.world.db.holdings.accounts.get? PLATFORM_FEE_USER_ID with
  | none => none
  | some fees =>
    let userBal := userBalances b.world.db.holdings
    let marketReserve := marketReserves b.world.db
    let platformFee := fees.availableBalance
    let netDeposits := netDeposits b.entries
    let totalAssets := userBal + marketReserve + platformFee
    if totalAssets ≠ netDeposits then
      some [s!"INV-G violated: user_balances({userBal}) + market_reserves({marketReserve}) + " ++
        s!"platform_fee({platformFee}) = {totalAssets} != net_deposits={netDeposits}"]
    else some []

/-- The report of the checks on the ACTIVE markets and of INV-G: whether all of them
passed, and what those say that did not. -/
def verifyAllInvariants (b : Bank) : Option (Bool × List String) := do
  let globalViolations ← verifyGlobalInvariants b
  let violations := (marketViolations b.world.db).map Violation.message ++ globalViolations
  return (violations.length = 0, violations)

end AdminService

def Bank.gap (b : Bank) : Int :=
  AdminService.userBalances b.world.db.holdings + AdminService.marketReserves b.world.db +
    b.world.db.available PLATFORM_FEE_USER_ID - AdminService.netDeposits b.entries

section Gap

variable {b b' : Bank} {db db' : Db}

def Holdings.balanceOf (h : Holdings) (user : UserId) : Int :=
  (h.accounts.get? user).elim 0 (fun a => a.availableBalance + a.frozenBalance)

private theorem Holdings.totalBalance_house (h : Holdings) : h.totalBalance =
    AdminService.userBalances h + h.balanceOf SYSTEM_RESERVE_USER_ID +
      h.balanceOf PLATFORM_FEE_USER_ID := by
  unfold balanceOf
  rw [← Table.sum_single h.accounts, ← Table.sum_single h.accounts]
  unfold totalBalance AdminService.userBalances Table.sum
  rw [← List.sum_map_add, ← List.sum_map_add]
  congr 1
  apply List.map_congr_left
  rintro ⟨user, a⟩ _
  have distinct : SYSTEM_RESERVE_USER_ID ≠ PLATFORM_FEE_USER_ID := by decide
  by_cases reserve : user = SYSTEM_RESERVE_USER_ID
  · subst reserve
    simp [isHouse, distinct]
  · by_cases platform : user = PLATFORM_FEE_USER_ID
    · subst platform
      simp [isHouse, distinct.symm]
    · simp [isHouse, reserve, platform]

private theorem Bank.gap_eq (b : Bank) : b.gap = b.world.db.cash -
    b.world.db.holdings.balanceOf SYSTEM_RESERVE_USER_ID -
    b.world.db.holdings.frozenOf PLATFORM_FEE_USER_ID -
    AdminService.netDeposits b.entries := by
  have total := b.world.db.holdings.totalBalance_house
  unfold gap Db.cash Db.available AdminService.marketReserves
  rw [total]
  unfold Holdings.balanceOf Holdings.frozenOf
  cases b.world.db.holdings.accounts.get? PLATFORM_FEE_USER_ID with
  | none =>
    simp only [Option.elim_none, Option.map_none, Option.getD_none]
    omega
  | some a =>
    simp only [Option.elim_some, Option.map_some, Option.getD_some]
    omega

private theorem Holdings.Serves.house {users : UserId → Prop} {fees : Int} {h h' : Holdings}
    (serves : h.Serves users fees h') :
    h'.balanceOf SYSTEM_RESERVE_USER_ID = h.balanceOf SYSTEM_RESERVE_USER_ID ∧
      h'.frozenOf PLATFORM_FEE_USER_ID = h.frozenOf PLATFORM_FEE_USER_ID := by
  unfold balanceOf frozenOf
  rw [serves.reserve, serves.platform]
  refine ⟨rfl, ?_⟩
  rw [Option.map_map]
  rfl

/-- The gap moves by the cash that comes without a deposit. -/
private theorem Bank.gap_moves {users : UserId → Prop} {fees : Int}
    (serves : b.world.db.holdings.Serves users fees b'.world.db.holdings) :
    b'.gap - b.gap = b'.world.db.cash - b.world.db.cash -
      (AdminService.netDeposits b'.entries - AdminService.netDeposits b.entries) := by
  obtain ⟨reserve, platform⟩ := serves.house
  rw [gap_eq, gap_eq, reserve, platform]
  omega

private theorem AdminService.netDeposits_append (l l' : List LedgerEntry) :
    netDeposits (l ++ l') = netDeposits l + netDeposits l' := by
  simp [netDeposits]

private theorem AdminService.netDeposits_after (b : Bank) (w : World) :
    netDeposits (b.after w).entries = netDeposits b.entries := by
  unfold Bank.after
  rw [netDeposits_append, add_eq_left]
  unfold netDeposits
  rw [List.filter_eq_nil_iff.mpr]
  · rfl
  · intro entry member
    obtain ⟨r, _, rfl⟩ := List.mem_map.mp member
    simp [LedgerRow.toEntry]

private theorem AdminService.verifyGlobalInvariants_iff
    (platform : b.world.db.holdings.HasAccount PLATFORM_FEE_USER_ID) :
    verifyGlobalInvariants b = some [] ↔ b.gap = 0 := by
  obtain ⟨fees, got⟩ := Option.isSome_iff_exists.mp platform
  have gap : b.gap = userBalances b.world.db.holdings + marketReserves b.world.db +
      fees.availableBalance - netDeposits b.entries := by
    unfold Bank.gap Db.available
    rw [got, Option.elim_some]
  unfold verifyGlobalInvariants
  rw [got, gap]
  simp only
  split
  · next apart =>
    constructor
    · intro empty
      cases empty
    · intro zero
      omega
  · next together =>
    constructor
    · intro _
      omega
    · intro _
      rfl

end Gap

section Transfers

variable {b b' : Bank} {userId : UserId} {amount : Int}

/-- What a deposit and a withdrawal that went through have in common. -/
structure Bank.Transfers (userId : UserId) (amount : Int) (b b' : Bank) : Prop where
  account : b.world.db.holdings.HasAccount userId
  tables : b.world.db.onHoldings (fun h => h.addBalance userId amount) = .ok b'.world.db
  world : b'.world = { b.world with db := b'.world.db }
  net : AdminService.netDeposits b'.entries = AdminService.netDeposits b.entries + amount

private theorem AccountRepository.deposit_transfers {result : AccountRow × LedgerEntry}
    (done : AccountRepository.deposit userId amount b = .ok (result, b')) :
    b.Transfers userId amount b' := by
  simp only [deposit, bind_eq_ok] at done
  obtain ⟨db, credited, done⟩ := done
  split at done
  · cases done
  · next account got =>
    obtain ⟨_, rfl⟩ := Prod.mk.inj (pure_eq_ok.mp done)
    refine ⟨?_, credited, rfl, ?_⟩
    · obtain ⟨h, moved, rfl⟩ := Db.onHoldings_ok credited
      rw [← Holdings.hasAccount_updateAccount moved userId]
      simp only at got
      simp [Holdings.HasAccount, got]
    · simp [AdminService.netDeposits]

private theorem AccountRepository.withdraw_transfers {result : AccountRow × LedgerEntry}
    (done : AccountRepository.withdraw userId amount b = .ok (result, b')) :
    b.Transfers userId (-amount) b' := by
  unfold withdraw at done
  split at done
  · cases done
  · next before stored =>
    simp only at done
    split at done
    · cases done
    · simp only [bind_eq_ok] at done
      obtain ⟨db, debited, done⟩ := done
      split at done
      · cases done
      · next account got =>
        obtain ⟨_, rfl⟩ := Prod.mk.inj (pure_eq_ok.mp done)
        refine ⟨?_, debited, rfl, ?_⟩
        · simp [Holdings.HasAccount, stored]
        · simp [AdminService.netDeposits]

/-- A transfer is one statement on one account, which the ledger explains. -/
structure Bank.OneAccount (b b' : Bank) : Prop where
  serves : b.world.db.holdings.Serves b.world.db.Customer 0 b'.world.db.holdings
  gap : b'.gap = b.gap
  positions : b'.world.db.holdings.positions = b.world.db.holdings.positions
  markets : b'.world.db.markets = b.world.db.markets
  orders : b'.world.db.orders = b.world.db.orders
  trades : b'.world.db.trades = b.world.db.trades

private theorem Bank.Transfers.oneAccount (moved : b.Transfers userId amount b')
    (customer : isHouse userId = false) : b.OneAccount b' := by
  obtain ⟨h, credit, same⟩ := Db.onHoldings_ok moved.tables
  have serves : b.world.db.holdings.Serves b.world.db.Customer 0 b'.world.db.holdings := by
    rw [same]
    exact .updateAccount customer credit
  have total : b'.world.db.cash = b.world.db.cash + amount := by
    have earned := (Holdings.addBalance_earns credit moved.account).total
    unfold Db.cash
    rw [same]
    simp only [earned]
    omega
  have gaps := Bank.gap_moves serves
  have net := moved.net
  refine ⟨serves, by omega, ?_, by rw [same], by rw [same], by rw [same]⟩
  rw [same]
  exact Holdings.addBalance_positions credit

end Transfers

/-- Where a run may begin: no orders and no books, sound markets, and accounts and
positions of customers. -/
structure Exchange.Opening (e : Exchange) : Prop where
  session : e.session.Opening
  peopled : e.db.Peopled
  sound : e.db.MarketsSound

/-- After requests of customers that wrote `rows` into the trades table. -/
structure Exchange.Since (start : Exchange) (rows : List TradeRow) (e : Exchange) : Prop where
  accounted : e.bank.world.Accounted False
  peopled : e.db.Peopled
  sound : start.db.SoundSince e.db
  trades : e.db.trades = start.db.trades ++ rows
  serves : start.db.holdings.Serves start.db.Customer ((rows.map TradeRow.takerFee).sum)
    e.db.holdings
  gap : e.bank.gap = start.bank.gap + (rows.map TradeRow.leak).sum
  rates : ∀ r ∈ rows, r.makerFee = 0 ∧ ∃ market,
    start.db.markets.get? r.trade.marketId = some market ∧
      r.takerFee = r.trade.takerFee market.takerFeeBps
  stay : start.db.RatesStay e.db

section Runs

variable {start e e' : Exchange} {rows : List TradeRow}

private theorem Exchange.Opening.since (opening : e.Opening) : e.Since [] e := by
  refine ⟨opening.session.accounted, opening.peopled, ⟨opening.sound, fun m r got =>
    ⟨r, got, Or.inl ⟨rfl, rfl⟩⟩⟩, by simp, .refl _ _, by simp, by simp, .refl _⟩

private theorem Exchange.Since.transfers {b : Bank} {userId : UserId} {amount : Int}
    (since : start.Since rows e) (moved : e.bank.Transfers userId amount b)
    (customer : isHouse userId = false) : start.Since rows { e with bank := b } := by
  obtain ⟨serves, gap, positions, markets, orders, trades⟩ := moved.oneAccount customer
  have before : ∀ user, e.db.Customer user → start.db.Customer user := fun user customer =>
    ⟨customer.1, (since.serves.accounts user).mp customer.2⟩
  have known : ∀ m r, b.world.db.markets.get? m = some r → e.db.markets.get? m = some r := by
    intro m r got
    rwa [markets] at got
  constructor
  · rw [moved.world]
    refine since.accounted.tables orders (fun m active => ?_)
    unfold World.Active at *
    rwa [markets] at active
  · refine ⟨(serves.accounts _).mpr since.peopled.platform, fun user m there => ?_,
      fun id r got => ?_⟩
    · refine (since.peopled.holders user m ?_).keep serves
      exact positions ▸ there
    · refine (since.peopled.owners id r ?_).keep serves
      exact orders ▸ got
  · constructor
    · intro m r got
      have sound := since.sound.sound m r (known m r got)
      exact (sound.stays (congrArg (fun t => t.get? m) markets) (.of_positions positions)).sound
    · intro m r got
      obtain ⟨r', there, stays⟩ := since.sound.pools m r got
      exact ⟨r', markets ▸ there, stays⟩
  · exact trades.trans since.trades
  · exact (since.serves.trans (serves.mono before)).congr (add_zero _)
  · exact gap.trans since.gap
  · exact since.rates
  · exact fun m market got => since.stay m market (known m market got)

private theorem Exchange.Since.request {op : SessionOp} (since : start.Since rows e)
    (customer : op.ByCustomer) : ∃ rows', start.Since (rows ++ rows') (e.next (.request op)) := by
  have step : sessionStep e.session op (e.session.next op) := rfl
  obtain ⟨accounted, moved⟩ := sessionStep_moves step since.accounted
  obtain ⟨rows', books⟩ := sessionStep_books step customer since.accounted since.peopled
    since.sound.sound
  have stay := sessionStep_ratesStay step since.accounted
  have before : ∀ user, e.db.Customer user → start.db.Customer user := fun user customer =>
    ⟨customer.1, (since.serves.accounts user).mp customer.2⟩
  refine ⟨rows', accounted, books.peopled since.peopled, ?_, ?_, ?_, ?_, fun r member => ?_,
    since.stay.trans stay⟩
  · rcases moved with same | moves
    · have kept : (e.next (.request op)).db = e.db := same
      rw [kept]
      exact since.sound
    · exact moves.preserves (fun _ _ _ => moveStep_soundSince) since.sound
  · have written : (e.next (.request op)).db.trades = e.db.trades ++ rows' := books.trades
    rw [written, since.trades, List.append_assoc]
  · rw [List.map_append, List.sum_append]
    exact since.serves.trans (books.serves.mono before)
  · have gaps : (e.next (.request op)).bank.gap - e.bank.gap = _ := Bank.gap_moves books.serves
    have net : AdminService.netDeposits (e.next (.request op)).bank.entries = _ :=
      AdminService.netDeposits_after e.bank _
    have cash : (e.next (.request op)).bank.world.db.cash =
        e.bank.world.db.cash + (rows'.map TradeRow.leak).sum := books.cash
    rw [net, cash, since.gap] at gaps
    rw [List.map_append, List.sum_append]
    omega
  · rcases List.mem_append.mp member with earlier | later
    · exact since.rates r earlier
    · obtain ⟨free, market, got, fee⟩ := books.rates r later
      obtain ⟨market₀, was, same⟩ := since.stay _ market got
      exact ⟨free, market₀, was, same ▸ fee⟩

private theorem exchangeStep_since {op : ExchangeOp} (step : exchangeStep e op e')
    (customer : op.ByCustomer) (since : start.Since rows e) :
    ∃ rows', start.Since (rows ++ rows') e' := by
  obtain rfl := step
  have idle : ∃ rows', start.Since (rows ++ rows') e := ⟨[], by rwa [List.append_nil]⟩
  cases op with
  | deposit userId amount =>
    unfold Exchange.next Bank.next
    simp only
    split
    · next b' done =>
      refine ⟨[], ?_⟩
      rw [List.append_nil]
      exact since.transfers (AccountRepository.deposit_transfers done) customer
    · exact idle
  | withdraw userId amount =>
    unfold Exchange.next Bank.next
    simp only
    split
    · next b' done =>
      refine ⟨[], ?_⟩
      rw [List.append_nil]
      exact since.transfers (AccountRepository.withdraw_transfers done) customer
    · exact idle
  | request op => exact since.request customer

theorem Exchange.Opening.run {ops : List ExchangeOp} (opening : start.Opening)
    (run : Run (Guarded (fun _ op => op.ByCustomer) exchangeStep) start ops e) :
    ∃ rows, start.Since rows e := by
  refine run.preserves (P := fun e => ∃ rows, start.Since rows e) ?_ ⟨[], opening.since⟩
  rintro e op e' ⟨customer, step⟩ ⟨rows, since⟩
  obtain ⟨rows', later⟩ := exchangeStep_since step customer since
  exact ⟨rows ++ rows', later⟩

end Runs

/-- Deposits, withdrawals and requests of customers move the gap of INV-G by what the
fee steps of their fills leak and by nothing else, so that the check reports a
violation exactly when the leaks do not make up for the gap that was there. -/
theorem exchange_gap {e e' : Exchange} {ops : List ExchangeOp} (opening : e.Opening)
    (run : Run (Guarded (fun _ op => op.ByCustomer) exchangeStep) e ops e') :
    ∃ rows, e'.db.trades = e.db.trades ++ rows ∧
      e'.bank.gap = e.bank.gap + (rows.map TradeRow.leak).sum ∧
      (AdminService.verifyGlobalInvariants e'.bank = some [] ↔
        e.bank.gap + (rows.map TradeRow.leak).sum = 0) := by
  obtain ⟨rows, since⟩ := opening.run run
  refine ⟨rows, since.trades, since.gap, ?_⟩
  rw [AdminService.verifyGlobalInvariants_iff since.peopled.platform, since.gap]

private theorem TradeRow.leak_standard {r : TradeRow}
    (fee : r.takerFee = r.trade.takerFee TAKER_FEE_BPS) :
    r.leak = 0 := by
  unfold leak
  rw [fee, TradeResult.takerFee, calcMaxFee_eq_calcFee]
  simp

/-- If every market charges the rate that is frozen for, the admin check passes after
any deposits, withdrawals and requests of customers. -/
theorem exchange_verified {e e' : Exchange} {ops : List ExchangeOp} (opening : e.Opening)
    (balanced : e.bank.gap = 0)
    (standard : ∀ m r, e.db.markets.get? m = some r → r.takerFeeBps = TAKER_FEE_BPS)
    (run : Run (Guarded (fun _ op => op.ByCustomer) exchangeStep) e ops e') :
    AdminService.verifyAllInvariants e'.bank = some (true, []) := by
  obtain ⟨rows, since⟩ := opening.run run
  have dry : (rows.map TradeRow.leak).sum = 0 := by
    apply List.sum_eq_zero
    intro x listed
    obtain ⟨r, member, rfl⟩ := List.mem_map.mp listed
    obtain ⟨_, market, got, fee⟩ := since.rates r member
    rw [standard _ market got] at fee
    exact TradeRow.leak_standard fee
  have global : AdminService.verifyGlobalInvariants e'.bank = some [] := by
    rw [AdminService.verifyGlobalInvariants_iff since.peopled.platform, since.gap, balanced, dry]
    rfl
  have markets : AdminService.marketViolations e'.bank.world.db = [] :=
    AdminService.marketViolations_eq_nil since.sound.sound
  simp [AdminService.verifyAllInvariants, global, markets]

/-- The two users of `pairMarket`, and how their cash came in. -/
def pairExchange : Exchange where
  bank :=
    { world := pairMarket.world
      entries := [⟨"alice", .deposit, 6000, 6000, none⟩, ⟨"bob", .deposit, 6000, 6000, none⟩] }
  amm := []

theorem pairExchange_opening : pairExchange.Opening := by
  have alice : pairMarket.world.db.Customer "alice" := by decide
  have bob : pairMarket.world.db.Customer "bob" := by decide
  refine ⟨pairMarket_opening, ⟨by decide, fun user m there => ?_, fun id r got => ?_⟩,
    pairMarket_sound⟩
  · obtain ⟨r, got⟩ := Option.isSome_iff_exists.mp there
    have rows : pairMarket.world.db.holdings.positions.rows =
        [(("alice", "m"), ⟨⟨10, 500, 0⟩, ⟨10, 500, 0⟩⟩),
          (("bob", "m"), ⟨⟨10, 500, 0⟩, ⟨10, 500, 0⟩⟩)] := rfl
    have stored := Table.mem_iff.mpr got
    rw [show pairExchange.db.holdings.positions.rows = _ from rows] at stored
    rcases List.mem_pair.mp stored with same | same
    · rw [(Prod.mk.inj (Prod.mk.inj same).1).1]
      exact alice
    · rw [(Prod.mk.inj (Prod.mk.inj same).1).1]
      exact bob
  · cases got

def pairTrades : List ExchangeOp := [.deposit "bob" 100, .request sellFourYes, .request buyOneYes]

theorem pairTrades_run : ∃ e, Run (Guarded (fun _ op => op.ByCustomer) exchangeStep) pairExchange
    pairTrades e := by
  refine ⟨_, .cons ⟨?_, rfl⟩ (.cons ⟨?_, rfl⟩ (.single ⟨?_, rfl⟩))⟩
  · show isHouse "bob" = false
    decide
  · show isHouse "alice" = false
    decide
  · show isHouse "bob" = false
    decide

theorem pairExchange_gap : ∃ e rows, Run (Guarded (fun _ op => op.ByCustomer) exchangeStep)
      pairExchange pairTrades e ∧ e.db.trades = rows ∧
    (AdminService.verifyGlobalInvariants e.bank = some [] ↔
      (rows.map TradeRow.leak).sum = 0) := by
  obtain ⟨e, run⟩ := pairTrades_run
  obtain ⟨rows, trades, _, report⟩ := exchange_gap pairExchange_opening run
  have gap : pairExchange.bank.gap = 0 := by decide
  rw [gap, zero_add] at report
  exact ⟨e, rows, run, trades, report⟩

theorem pairExchange_verified : ∃ e, Run (Guarded (fun _ op => op.ByCustomer) exchangeStep)
      pairExchange pairTrades e ∧
    AdminService.verifyAllInvariants e.bank = some (true, []) := by
  obtain ⟨e, run⟩ := pairTrades_run
  refine ⟨e, run, exchange_verified pairExchange_opening (by decide) (fun m r got => ?_) run⟩
  have rows : pairExchange.db.markets.rows = [("m", ⟨.active, 2000, 0, 20, 20, 20, none⟩)] := rfl
  have stored := Table.mem_iff.mpr got
  rw [rows, List.mem_singleton] at stored
  rw [(Prod.mk.inj stored).2]
  rfl

end PredictionMarket
