/- PredictionMarket/Concurrency/Statements
   digest: The rows of the tables one by one, and statements that write one of them. -/

import PredictionMarket.Engine.Database
import PredictionMarket.Library.ReadCommitted

set_option autoImplicit false
set_option relaxedAutoImplicit false

namespace PredictionMarket

open Library ReadCommitted

inductive DbKey
  | order (id : OrderId)
  | account (userId : UserId)
  | market (marketId : MarketId)
  | position (userId : UserId) (marketId : MarketId)
  deriving DecidableEq

@[reducible] def DbKey.Row : DbKey → Type
  | .order _ => OrderRow
  | .account _ => AccountRow
  | .market _ => MarketRow
  | .position _ _ => PositionRow

def Db.rows (db : Db) : Rows DbKey DbKey.Row
  | .order id => db.orders.get? id
  | .account userId => db.holdings.accounts.get? userId
  | .market marketId => db.markets.get? marketId
  | .position userId marketId => db.holdings.positions.get? (userId, marketId)

def orIntegrity {α : Type} : Option α → Except Err α
  | some a => .ok a
  | none => .error .integrity

theorem orIntegrity_ok {α : Type} {a : Option α} {b : α} (done : orIntegrity a = .ok b) :
    a = some b := by
  cases a with
  | none => cases done
  | some a => exact congrArg some (Except.ok.inj done)

/-- A statement on the row under `k` does what `run` does to the tables. -/
def Db.OnRow (db : Db) (k : DbKey) (f : Option k.Row → Except Err (Option k.Row))
    (run : Except Err Db) : Prop :=
  (∃ e, run = .error e ∧ f (db.rows k) = .error e) ∨
    ∃ db' r, run = .ok db' ∧ f (db.rows k) = .ok r ∧ db'.rows = Function.update db.rows k r

theorem Db.OnRow.alone {β ρ : Type} {db : Db} {k : DbKey}
    {f : Option k.Row → Except Err (Option k.Row)} {run : Except Err Db}
    {next : Program DbKey DbKey.Row β Err ρ} {log : List β} (onRow : db.OnRow k f run) :
    Program.alone (.update k f (fun _ => next)) db.rows log =
      run >>= fun db' => next.alone db'.rows log := by
  rw [Program.alone]
  obtain ⟨e, rfl, fails⟩ | ⟨db', r, rfl, written, rows⟩ := onRow
  · rw [fails]
    rfl
  · rw [written]
    show next.alone _ _ = next.alone db'.rows _
    rw [rows]

private theorem row_cases {κ ρ : Type} {ok : ρ → Prop} [DecidableEq κ] {t : Table κ ρ ok}
    {k : κ} {updated : Option (Table κ ρ ok)} {row : Option (Option ρ)}
    (effect : updated.map Table.get? = row.map (Function.update t.get? k)) :
    (updated = none ∧ row = none) ∨
      ∃ t' r, updated = some t' ∧ row = some r ∧ t'.get? = Function.update t.get? k r := by
  cases updated with
  | none =>
    cases row with
    | none => exact Or.inl ⟨rfl, rfl⟩
    | some r => cases effect
  | some t' =>
    cases row with
    | none => cases effect
    | some r => exact Or.inr ⟨t', r, rfl, rfl, Option.some.inj effect⟩

section OnRow

variable {db : Db} {userId : UserId} {marketId : MarketId} {id : OrderId}

private theorem onRow_order (f : OrderRow → OrderRow) :
    db.OnRow (.order id) (fun row => orIntegrity (Table.rowUpdate? OrderRow.Check f row))
      (match db.orders.update? id f with
        | some orders => .ok { db with orders := orders }
        | none => .error .integrity) := by
  have effect := db.orders.update?_row id f
  obtain ⟨failed, row⟩ | ⟨t, r, updated, row, get⟩ := row_cases effect
  · exact Or.inl ⟨.integrity, by rw [failed], by simp [Db.rows, row, orIntegrity]⟩
  · refine Or.inr ⟨{ db with orders := t }, r, by rw [updated],
      by simp [Db.rows, row, orIntegrity], ?_⟩
    funext k
    cases k with
    | order j =>
      simp only [Db.rows, get]
      by_cases here : j = id
      · subst here
        simp
      · simp [here]
        rfl
    | account u => rfl
    | market m => rfl
    | position u m => rfl

theorem onRow_account (f : AccountRow → AccountRow) :
    db.OnRow (.account userId) (fun row => orIntegrity (Table.rowUpdate? AccountRow.Check f row))
      (db.onHoldings (fun h => h.updateAccount userId f)) := by
  have effect := db.holdings.accounts.update?_row userId f
  obtain ⟨failed, row⟩ | ⟨t, r, updated, row, get⟩ := row_cases effect
  · refine Or.inl ⟨.integrity, ?_, by simp [Db.rows, row, orIntegrity]⟩
    simp [Db.onHoldings, Holdings.updateAccount, failed]
  · refine Or.inr ⟨{ db with holdings := { db.holdings with accounts := t } }, r, ?_,
      by simp [Db.rows, row, orIntegrity], ?_⟩
    · simp only [Db.onHoldings, Holdings.updateAccount, updated]
      rfl
    · funext k
      cases k with
      | account u =>
        simp only [Db.rows, get]
        by_cases here : u = userId
        · subst here
          simp
        · simp [here]
          rfl
      | order j => rfl
      | market m => rfl
      | position u m => rfl

private theorem onRow_market (f : MarketRow → MarketRow) :
    db.OnRow (.market marketId) (fun row => orIntegrity (Table.rowUpdate? MarketRow.Check f row))
      (match db.markets.update? marketId f with
        | some markets => .ok { db with markets := markets }
        | none => .error .integrity) := by
  have effect := db.markets.update?_row marketId f
  obtain ⟨failed, row⟩ | ⟨t, r, updated, row, get⟩ := row_cases effect
  · exact Or.inl ⟨.integrity, by rw [failed], by simp [Db.rows, row, orIntegrity]⟩
  · refine Or.inr ⟨{ db with markets := t }, r, by rw [updated],
      by simp [Db.rows, row, orIntegrity], ?_⟩
    funext k
    cases k with
    | market m =>
      simp only [Db.rows, get]
      by_cases here : m = marketId
      · subst here
        simp
      · simp [here]
        rfl
    | order j => rfl
    | account u => rfl
    | position u m => rfl

theorem onRow_position {f : Option PositionRow → Option (Option PositionRow)}
    {updated : Option (Table (UserId × MarketId) PositionRow PositionRow.Check)}
    {run : Holdings → Except Err Holdings}
    (runs : run db.holdings = match updated with
      | some positions => .ok { db.holdings with positions := positions }
      | none => .error .integrity)
    (effect : updated.map Table.get? = (f (db.holdings.positions.get? (userId, marketId))).map
      (Function.update db.holdings.positions.get? (userId, marketId))) :
    db.OnRow (.position userId marketId) (fun row => orIntegrity (f row))
      (db.onHoldings run) := by
  obtain ⟨rfl, row⟩ | ⟨t, r, rfl, row, get⟩ := row_cases effect
  · refine Or.inl ⟨.integrity, ?_, by simp [Db.rows, row, orIntegrity]⟩
    simp [Db.onHoldings, runs]
  · refine Or.inr ⟨{ db with holdings := { db.holdings with positions := t } }, r, ?_,
      by simp [Db.rows, row, orIntegrity], ?_⟩
    · simp only [Db.onHoldings, runs]
      rfl
    · funext k
      cases k with
      | order j => rfl
      | account u => rfl
      | market m => rfl
      | position u m =>
        simp only [Db.rows, get]
        by_cases here : u = userId ∧ m = marketId
        · obtain ⟨rfl, rfl⟩ := here
          simp
        · have pair : (u, m) ≠ (userId, marketId) := by simpa using here
          have key : DbKey.position u m ≠ .position userId marketId := by simpa using here
          rw [Function.update_of_ne pair, Function.update_of_ne key]
          rfl

end OnRow

section Statements

variable {β ρ : Type} {next : Program DbKey DbKey.Row β Err ρ} {db : Db} {log : List β}
  {userId : UserId} {marketId : MarketId} {id : OrderId}

def updateOrder (id : OrderId) (f : OrderRow → OrderRow) (next : Program DbKey DbKey.Row β Err ρ) :
    Program DbKey DbKey.Row β Err ρ :=
  .update (.order id) (fun row => orIntegrity (Table.rowUpdate? OrderRow.Check f row))
    (fun _ => next)

def updateAccount (userId : UserId) (f : AccountRow → AccountRow)
    (next : Program DbKey DbKey.Row β Err ρ) : Program DbKey DbKey.Row β Err ρ :=
  .update (.account userId) (fun row => orIntegrity (Table.rowUpdate? AccountRow.Check f row))
    (fun _ => next)

def addBalance (userId : UserId) (amount : Int) (next : Program DbKey DbKey.Row β Err ρ) :
    Program DbKey DbKey.Row β Err ρ :=
  updateAccount userId (fun a => { a with availableBalance := a.availableBalance + amount }) next

def updateMarket (marketId : MarketId) (f : MarketRow → MarketRow)
    (next : Program DbKey DbKey.Row β Err ρ) : Program DbKey DbKey.Row β Err ρ :=
  .update (.market marketId) (fun row => orIntegrity (Table.rowUpdate? MarketRow.Check f row))
    (fun _ => next)

def updatePosition (userId : UserId) (marketId : MarketId) (f : PositionRow → PositionRow)
    (next : Program DbKey DbKey.Row β Err ρ) : Program DbKey DbKey.Row β Err ρ :=
  .update (.position userId marketId)
    (fun row => orIntegrity (Table.rowUpdate? PositionRow.Check f row)) (fun _ => next)

theorem updateOrder_alone (f : OrderRow → OrderRow) :
    (updateOrder id f next).alone db.rows log =
      (match db.orders.update? id f with
        | some orders => .ok { db with orders := orders }
        | none => .error .integrity : Except Err Db) >>= fun db => next.alone db.rows log :=
  (onRow_order _).alone

theorem updateAccount_alone (f : AccountRow → AccountRow) :
    (updateAccount userId f next).alone db.rows log =
      db.onHoldings (fun h => h.updateAccount userId f) >>= fun db => next.alone db.rows log :=
  (onRow_account _).alone

theorem addBalance_alone (amount : Int) : (addBalance userId amount next).alone db.rows log =
    db.onHoldings (fun h => h.addBalance userId amount) >>= fun db =>
      next.alone db.rows log :=
  updateAccount_alone _

theorem updateMarket_alone (f : MarketRow → MarketRow) :
    (updateMarket marketId f next).alone db.rows log =
      (match db.markets.update? marketId f with
        | some markets => .ok { db with markets := markets }
        | none => .error .integrity : Except Err Db) >>= fun db => next.alone db.rows log :=
  (onRow_market _).alone

theorem updatePosition_alone (f : PositionRow → PositionRow) :
    (updatePosition userId marketId f next).alone db.rows log =
      db.onHoldings (fun h => h.updatePosition userId marketId f) >>= fun db =>
        next.alone db.rows log :=
  (onRow_position rfl (db.holdings.positions.update?_row (userId, marketId) f)).alone

end Statements

end PredictionMarket
