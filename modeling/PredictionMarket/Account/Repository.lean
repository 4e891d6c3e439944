/- PredictionMarket/Account/Repository
   digest: The account repository: balances and pending shares moved under their WHERE clauses. -/

import PredictionMarket.Concurrency.Statements
import PredictionMarket.Engine.AccountLedger
import PredictionMarket.Library.GuardedUpdate

set_option autoImplicit false
set_option relaxedAutoImplicit false

namespace PredictionMarket

open Library ReadCommitted

namespace AccountRepository

/-- `UPDATE accounts ... RETURNING`, with the ledger entry made of the new row. -/
def recordUpdate (userId : UserId) (f : AccountRow → AccountRow) (entry : AccountRow → LedgerEntry)
    (missing : AppError) (b : Bank) : Except Err ((AccountRow × LedgerEntry) × Bank) := do
  let db ← b.world.db.onHoldings (fun h => h.updateAccount userId f)
  match db.holdings.accounts.get? userId with
  | none => throw (.app missing)
  | some account =>
    return ((account, entry account),
      ⟨{ b.world with db := db }, b.entries ++ [entry account]⟩)

def recordCovered (userId : UserId) (column : AccountRow → Int) (amount : Int)
    (f : AccountRow → AccountRow) (entry : AccountRow → LedgerEntry) (b : Bank) :
    Except Err ((AccountRow × LedgerEntry) × Bank) :=
  match b.world.db.holdings.accounts.get? userId with
  | none => throw (.app (insufficientBalanceError amount 0))
  | some before => do
    if column before < amount then
      throw (.app (insufficientBalanceError amount (column before)))
    recordUpdate userId f entry (insufficientBalanceError amount 0) b

/-- `_FREEZE_FUNDS_SQL`, with the ledger entry for it. -/
def freezeFunds (userId : UserId) (amount : Int) (refId : OrderId) (b : Bank) :
    Except Err ((AccountRow × LedgerEntry) × Bank) :=
  recordCovered userId AccountRow.availableBalance amount
    (fun a => { a with
      availableBalance := a.availableBalance - amount
      frozenBalance := a.frozenBalance + amount })
    (fun a => ⟨userId, .order .orderFreeze, -amount, a.availableBalance, some refId⟩) b

/-- `_UNFREEZE_FUNDS_SQL`, with the ledger entry for it. -/
def unfreezeFunds (userId : UserId) (amount : Int) (refId : OrderId) (b : Bank) :
    Except Err ((AccountRow × LedgerEntry) × Bank) :=
  recordCovered userId AccountRow.frozenBalance amount
    (fun a => { a with
      availableBalance := a.availableBalance + amount
      frozenBalance := a.frozenBalance - amount })
    (fun a => ⟨userId, .order .orderUnfreeze, amount, a.availableBalance, some refId⟩) b

def movePending (side : OriginalSide) (userId : UserId) (marketId : MarketId)
    (admits : Holding → Prop) [DecidablePred admits] (quantity : Int) (detail : String)
    (b : Bank) : Except Err (PositionRow × Bank) := do
  match b.world.db.holdings.positions.get? (userId, marketId) with
  | none => throw (.app (insufficientPositionError detail))
  | some before =>
    if ¬ admits (before.holding side) then throw (.app (insufficientPositionError detail))
    let db ← b.world.db.onHoldings (fun h => h.addPending side userId marketId quantity)
    match db.holdings.positions.get? (userId, marketId) with
    | none => throw (.app (insufficientPositionError detail))
    | some position => return (position, { b with world := { b.world with db := db } })

def freezePosition (side : OriginalSide) (userId : UserId) (marketId : MarketId) (quantity : Int)
    (detail : String) (b : Bank) : Except Err (PositionRow × Bank) :=
  movePending side userId marketId (fun c => quantity ≤ c.volume - c.pendingSell) quantity detail b

def unfreezePosition (side : OriginalSide) (userId : UserId) (marketId : MarketId)
    (quantity : Int) (detail : String) (b : Bank) : Except Err (PositionRow × Bank) :=
  movePending side userId marketId (fun c => quantity ≤ c.pendingSell) (-quantity) detail b

def freezeYesPosition (userId : UserId) (marketId : MarketId) (quantity : Int) (b : Bank) :
    Except Err (PositionRow × Bank) :=
  freezePosition .yes userId marketId quantity
    s!"Insufficient YES shares to freeze: need {quantity}" b

def unfreezeYesPosition (userId : UserId) (marketId : MarketId) (quantity : Int) (b : Bank) :
    Except Err (PositionRow × Bank) :=
  unfreezePosition .yes userId marketId quantity
    s!"Insufficient frozen YES shares to unfreeze: need {quantity}" b

def freezeNoPosition (userId : UserId) (marketId : MarketId) (quantity : Int) (b : Bank) :
    Except Err (PositionRow × Bank) :=
  freezePosition .no userId marketId quantity
    s!"Insufficient NO shares to freeze: need {quantity}" b

def unfreezeNoPosition (userId : UserId) (marketId : MarketId) (quantity : Int) (b : Bank) :
    Except Err (PositionRow × Bank) :=
  unfreezePosition .no userId marketId quantity
    s!"Insufficient frozen NO shares to unfreeze: need {quantity}" b

end AccountRepository

inductive WalletCall
  | deposit (userId : UserId) (amount : Int)
  | withdraw (userId : UserId) (amount : Int)
  | freezeFunds (userId : UserId) (amount : Int) (refId : OrderId)
  | unfreezeFunds (userId : UserId) (amount : Int) (refId : OrderId)
  | freezeYesPosition (userId : UserId) (marketId : MarketId) (quantity : Int)
  | unfreezeYesPosition (userId : UserId) (marketId : MarketId) (quantity : Int)
  | freezeNoPosition (userId : UserId) (marketId : MarketId) (quantity : Int)
  | unfreezeNoPosition (userId : UserId) (marketId : MarketId) (quantity : Int)

inductive WalletResult
  | account (row : AccountRow) (entry : LedgerEntry)
  | position (row : PositionRow)
  deriving DecidableEq

namespace WalletCall

def execute (b : Bank) : WalletCall → Except Err (WalletResult × Bank)
  | .deposit userId amount => ofAccount (AccountRepository.deposit userId amount b)
  | .withdraw userId amount => ofAccount (AccountRepository.withdraw userId amount b)
  | .freezeFunds userId amount refId =>
    ofAccount (AccountRepository.freezeFunds userId amount refId b)
  | .unfreezeFunds userId amount refId =>
    ofAccount (AccountRepository.unfreezeFunds userId amount refId b)
  | .freezeYesPosition userId marketId quantity =>
    ofPosition (AccountRepository.freezeYesPosition userId marketId quantity b)
  | .unfreezeYesPosition userId marketId quantity =>
    ofPosition (AccountRepository.unfreezeYesPosition userId marketId quantity b)
  | .freezeNoPosition userId marketId quantity =>
    ofPosition (AccountRepository.freezeNoPosition userId marketId quantity b)
  | .unfreezeNoPosition userId marketId quantity =>
    ofPosition (AccountRepository.unfreezeNoPosition userId marketId quantity b)
where
  ofAccount (outcome : Except Err ((AccountRow × LedgerEntry) × Bank)) :
      Except Err (WalletResult × Bank) :=
    outcome.map (fun r => (.account r.1.1 r.1.2, r.2))
  ofPosition (outcome : Except Err (PositionRow × Bank)) : Except Err (WalletResult × Bank) :=
    outcome.map (fun r => (.position r.1, r.2))

def onAccount (userId : UserId) (admits : AccountRow → Prop) [DecidablePred admits]
    (f : AccountRow → AccountRow) (entry : AccountRow → LedgerEntry)
    (refuse : Option AccountRow → AppError) :
    GuardedUpdate DbKey DbKey.Row LedgerEntry Err WalletResult where
  key := .account userId
  admits := fun a => admits a
  write := fun a => if AccountRow.Check (f a) then .ok (f a) else .error .integrity
  refuse := fun row => .app (refuse row)
  entries := fun a => [entry a]
  result := fun a => .account a (entry a)

def covered (userId : UserId) (column : AccountRow → Int) (amount : Int)
    (f : AccountRow → AccountRow) (entry : AccountRow → LedgerEntry) :
    GuardedUpdate DbKey DbKey.Row LedgerEntry Err WalletResult :=
  onAccount userId (fun a => amount ≤ column a) f entry
    (fun row => insufficientBalanceError amount (row.elim 0 column))

def onPosition (side : OriginalSide) (userId : UserId) (marketId : MarketId)
    (admits : Holding → Prop) [DecidablePred admits] (quantity : Int) (detail : String) :
    GuardedUpdate DbKey DbKey.Row LedgerEntry Err WalletResult where
  key := .position userId marketId
  admits := fun r => admits (PositionRow.holding r side)
  write := fun r =>
    let r' := PositionRow.modify r side (fun c => { c with pendingSell := c.pendingSell + quantity })
    if r'.Check then .ok r' else .error .integrity
  refuse := fun _ => .app (insufficientPositionError detail)
  entries := fun _ => []
  result := .position

def update : WalletCall → GuardedUpdate DbKey DbKey.Row LedgerEntry Err WalletResult
  | .deposit userId amount =>
    onAccount userId (fun _ => True)
      (fun a => { a with availableBalance := a.availableBalance + amount })
      (fun a => ⟨userId, .deposit, amount, a.availableBalance, none⟩)
      (fun _ => internalError s!"Account not found for user {userId}")
  | .withdraw userId amount =>
    covered userId AccountRow.availableBalance amount
      (fun a => { a with availableBalance := a.availableBalance + -amount })
      (fun a => ⟨userId, .withdraw, -amount, a.availableBalance, none⟩)
  | .freezeFunds userId amount refId =>
    covered userId AccountRow.availableBalance amount
      (fun a => { a with
        availableBalance := a.availableBalance - amount
        frozenBalance := a.frozenBalance + amount })
      (fun a => ⟨userId, .order .orderFreeze, -amount, a.availableBalance, some refId⟩)
  | .unfreezeFunds userId amount refId =>
    covered userId AccountRow.frozenBalance amount
      (fun a => { a with
        availableBalance := a.availableBalance + amount
        frozenBalance := a.frozenBalance - amount })
      (fun a => ⟨userId, .order .orderUnfreeze, amount, a.availableBalance, some refId⟩)
  | .freezeYesPosition userId marketId quantity =>
    onPosition .yes userId marketId (fun c => quantity ≤ c.volume - c.pendingSell) quantity
      s!"Insufficient YES shares to freeze: need {quantity}"
  | .unfreezeYesPosition userId marketId quantity =>
    onPosition .yes userId marketId (fun c => quantity ≤ c.pendingSell) (-quantity)
      s!"Insufficient frozen YES shares to unfreeze: need {quantity}"
  | .freezeNoPosition userId marketId quantity =>
    onPosition .no userId marketId (fun c => quantity ≤ c.volume - c.pendingSell) quantity
      s!"Insufficient NO shares to freeze: need {quantity}"
  | .unfreezeNoPosition userId marketId quantity =>
    onPosition .no userId marketId (fun c => quantity ≤ c.pendingSell) (-quantity)
      s!"Insufficient frozen NO shares to unfreeze: need {quantity}"

end WalletCall

def Bank.asRows (r : WalletResult × Bank) : WalletResult × Rows DbKey DbKey.Row × List LedgerEntry :=
  (r.1, r.2.world.db.rows, r.2.entries)

section Alone

variable {b : Bank} {userId : UserId} {marketId : MarketId} {amount : Int}

private theorem recordUpdate_stored {a : AccountRow} (f : AccountRow → AccountRow)
    (entry : AccountRow → LedgerEntry) (missing : AppError)
    (got : b.world.db.holdings.accounts.get? userId = some a) :
    (¬ (f a).Check ∧
        AccountRepository.recordUpdate userId f entry missing b = .error .integrity) ∨
      (f a).Check ∧ ∃ b', AccountRepository.recordUpdate userId f entry missing b =
          .ok ((f a, entry (f a)), b') ∧
        b'.world.db.rows = Function.update b.world.db.rows (.account userId) (some (f a)) ∧
        b'.entries = b.entries ++ [entry (f a)] := by
  have row : b.world.db.rows (.account userId) = some a := got
  have statement : b.world.db.OnRow (.account userId)
      (fun row => orIntegrity (Table.rowUpdate? AccountRow.Check f row))
      (b.world.db.onHoldings (fun h => h.updateAccount userId f)) := onRow_account f
  simp only [Db.OnRow, row, Table.rowUpdate?] at statement
  unfold AccountRepository.recordUpdate
  by_cases ok : (f a).Check
  · rw [if_pos ok] at statement
    obtain ⟨_, _, fails⟩ | ⟨db', r, done, written, rows⟩ := statement
    · cases fails
    · obtain rfl := Except.ok.inj written
      have new : db'.rows (.account userId) = some (f a) := by rw [rows, Function.update_self]
      have stored : db'.holdings.accounts.get? userId = some (f a) := new
      refine Or.inr ⟨ok, ⟨{ b.world with db := db' }, b.entries ++ [entry (f a)]⟩, ?_, rows, rfl⟩
      rw [done]
      simp only [bind, Except.bind, stored]
      rfl
  · rw [if_neg ok] at statement
    obtain ⟨_, done, fails⟩ | ⟨_, _, _, written, _⟩ := statement
    · obtain rfl := Except.error.inj fails
      refine Or.inl ⟨ok, ?_⟩
      rw [done]
      rfl
    · cases written

private theorem recordUpdate_absent (f : AccountRow → AccountRow) (entry : AccountRow → LedgerEntry)
    (missing : AppError) (gone : b.world.db.holdings.accounts.get? userId = none) :
    AccountRepository.recordUpdate userId f entry missing b = .error (.app missing) := by
  have row : b.world.db.rows (.account userId) = none := gone
  have statement : b.world.db.OnRow (.account userId)
      (fun row => orIntegrity (Table.rowUpdate? AccountRow.Check f row))
      (b.world.db.onHoldings (fun h => h.updateAccount userId f)) := onRow_account f
  simp only [Db.OnRow, row, Table.rowUpdate?] at statement
  obtain ⟨_, _, fails⟩ | ⟨db', r, done, written, rows⟩ := statement
  · cases fails
  · obtain rfl := Except.ok.inj written
    have none_ : db'.rows (.account userId) = none := by rw [rows, Function.update_self]
    have absent : db'.holdings.accounts.get? userId = none := none_
    rw [AccountRepository.recordUpdate, done]
    simp only [bind, Except.bind, absent]
    rfl

private theorem onAccount_alone {admits : AccountRow → Prop} [DecidablePred admits]
    {f : AccountRow → AccountRow} {entry : AccountRow → LedgerEntry}
    {refuse : Option AccountRow → AppError} (missing : AppError) :
    (WalletCall.onAccount userId admits f entry refuse).program.alone b.world.db.rows b.entries =
      Except.map Bank.asRows (match b.world.db.holdings.accounts.get? userId with
        | none => .error (.app (refuse none))
        | some a =>
          if admits a then
            WalletCall.execute.ofAccount (AccountRepository.recordUpdate userId f entry missing b)
          else .error (.app (refuse (some a)))) := by
  rw [GuardedUpdate.program_alone, GuardedUpdate.locked_alone]
  cases got : b.world.db.holdings.accounts.get? userId with
  | none =>
    have row : b.world.db.rows (.account userId) = none := got
    simp only [WalletCall.onAccount, row]
    rfl
  | some a =>
    have row : b.world.db.rows (.account userId) = some a := got
    simp only [WalletCall.onAccount, row, decide_eq_true_eq]
    by_cases admitted : admits a
    · rw [if_pos admitted, if_pos admitted]
      obtain ⟨fails, done⟩ | ⟨ok, b', done, rows, entries⟩ :=
        recordUpdate_stored f entry missing got
      · rw [if_neg fails, done]
        rfl
      · rw [if_pos ok, done]
        simp only [Except.map, WalletCall.execute.ofAccount, Bank.asRows, rows, entries]
    · rw [if_neg admitted, if_neg admitted]
      rfl

private theorem covered_alone {column : AccountRow → Int} {f : AccountRow → AccountRow}
    {entry : AccountRow → LedgerEntry} :
    (WalletCall.covered userId column amount f entry).program.alone b.world.db.rows b.entries =
      Except.map Bank.asRows (WalletCall.execute.ofAccount
        (AccountRepository.recordCovered userId column amount f entry b)) := by
  rw [WalletCall.covered, onAccount_alone (insufficientBalanceError amount 0),
    AccountRepository.recordCovered]
  cases b.world.db.holdings.accounts.get? userId with
  | none => rfl
  | some a =>
    simp only [Option.elim_some]
    by_cases short : column a < amount
    · rw [if_pos short, if_neg (not_le.mpr short)]
      rfl
    · rw [if_neg short, if_pos (not_lt.mp short)]

private theorem onPosition_alone {side : OriginalSide} {admits : Holding → Prop}
    [DecidablePred admits]
    {quantity : Int} {detail : String} :
    (WalletCall.onPosition side userId marketId admits quantity detail).program.alone
        b.world.db.rows b.entries =
      Except.map Bank.asRows (WalletCall.execute.ofPosition
        (AccountRepository.movePending side userId marketId admits quantity detail b)) := by
  rw [GuardedUpdate.program_alone, GuardedUpdate.locked_alone, AccountRepository.movePending]
  cases got : b.world.db.holdings.positions.get? (userId, marketId) with
  | none =>
    have row : b.world.db.rows (.position userId marketId) = none := got
    simp only [WalletCall.onPosition, row]
    rfl
  | some r =>
    have row : b.world.db.rows (.position userId marketId) = some r := got
    simp only [WalletCall.onPosition, row, decide_eq_true_eq]
    by_cases admitted : admits (r.holding side)
    · generalize moved : r.modify side
        (fun c => { c with pendingSell := c.pendingSell + quantity }) = r'
      have statement : b.world.db.OnRow (.position userId marketId)
          (fun row => orIntegrity (Table.rowUpdate? PositionRow.Check (fun r => r.modify side
            (fun c => { c with pendingSell := c.pendingSell + quantity })) row))
          (b.world.db.onHoldings (fun h => h.addPending side userId marketId quantity)) :=
        onRow_position rfl (b.world.db.holdings.positions.update?_row (userId, marketId) _)
      simp only [Db.OnRow, row, Table.rowUpdate?, moved] at statement
      rw [if_pos admitted]
      by_cases ok : r'.Check
      · rw [if_pos ok] at statement ⊢
        obtain ⟨_, _, fails⟩ | ⟨db', r'', done, written, rows⟩ := statement
        · cases fails
        · obtain rfl := Except.ok.inj written
          have new : db'.rows (.position userId marketId) = some r' := by
            rw [rows, Function.update_self]
          have stored : db'.holdings.positions.get? (userId, marketId) = some r' := new
          rw [done]
          simp only [admitted, not_true_eq_false, if_false, bind, Except.bind, pure, Except.pure,
            stored, WalletCall.execute.ofPosition, Except.map, Bank.asRows, List.append_nil, rows]
      · rw [if_neg ok] at statement ⊢
        obtain ⟨_, done, fails⟩ | ⟨_, _, _, written, _⟩ := statement
        · obtain rfl := Except.error.inj fails
          rw [done]
          simp only [admitted, not_true_eq_false, if_false]
          rfl
        · cases written
    · rw [if_neg admitted]
      simp only [admitted, not_false_eq_true, if_true]
      rfl

theorem WalletCall.update_alone (call : WalletCall) (b : Bank) :
    call.update.program.alone b.world.db.rows b.entries =
      (call.execute b).map Bank.asRows := by
  cases call with
  | deposit userId amount =>
    rw [update, onAccount_alone (internalError s!"Account not found for user {userId}"), execute]
    cases got : b.world.db.holdings.accounts.get? userId with
    | none =>
      have missing := recordUpdate_absent
        (fun a => { a with availableBalance := a.availableBalance + amount })
        (fun a => ⟨userId, .deposit, amount, a.availableBalance, none⟩)
        (internalError s!"Account not found for user {userId}") got
      exact congrArg (fun r => Except.map Bank.asRows (execute.ofAccount r)) missing.symm
    | some a => rfl
  | withdraw userId amount => exact covered_alone
  | freezeFunds userId amount refId => exact covered_alone
  | unfreezeFunds userId amount refId => exact covered_alone
  | freezeYesPosition userId marketId quantity => exact onPosition_alone
  | unfreezeYesPosition userId marketId quantity => exact onPosition_alone
  | freezeNoPosition userId marketId quantity => exact onPosition_alone
  | unfreezeNoPosition userId marketId quantity => exact onPosition_alone

end Alone

end PredictionMarket
