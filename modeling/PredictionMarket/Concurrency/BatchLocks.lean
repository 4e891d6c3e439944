/- PredictionMarket/Concurrency/BatchLocks
   digest: The locks of batch cancels and placements on one market, and when they deadlock. -/

import PredictionMarket.Domain.Types
import PredictionMarket.Library.Run
import PredictionMarket.Library.WaitFor
import Mathlib.Data.Prod.Lex
import Mathlib.Tactic.FinCases

set_option autoImplicit false
set_option relaxedAutoImplicit false

namespace PredictionMarket.BatchLocks

open Library

/-- The rows that a statement of the two requests locks until commit. -/
inductive RowKey
  | order (id : OrderId)
  | account (userId : UserId)
  | position (userId : UserId)
  | market
  deriving DecidableEq

def RowKey.orderId? : RowKey → Option OrderId
  | .order id => some id
  | _ => none

def orderIds (rows : List RowKey) : List OrderId := rows.filterMap RowKey.orderId?

@[simp] theorem mem_orderIds {rows : List RowKey} {id : OrderId} :
    id ∈ orderIds rows ↔ .order id ∈ rows := by
  rw [orderIds, List.mem_filterMap]
  constructor
  · rintro ⟨k, member, here⟩
    cases k with
    | order j => rwa [← Option.some.inj here]
    | account _ | position _ | market => cases here
  · exact fun member => ⟨_, member, rfl⟩

/-- Where a request is. Order ids stand in the order in which a scan of the
orders table meets them. -/
inductive Stage
  /-- `batch_cancel` before its SELECT ... FOR UPDATE. -/
  | batchStart
  /-- The SELECT has found `orders` and still has to lock `todo`; with nothing
  left it waits at `async with lock`. -/
  | selecting (orders todo : List OrderId)
  /-- `batch_cancel` inside the lock, with the rows its UPDATEs still touch. -/
  | cancelling (todo : List RowKey)
  /-- `place_order` at `async with lock`. -/
  | placeStart
  /-- `place_order` inside the lock, before the book is matched. -/
  | matching (todo : List RowKey)
  /-- `place_order` after `match_order`, with the rows its UPDATEs still touch. -/
  | filling (todo : List RowKey)
  /-- Outside the lock, before the commit. -/
  | unlocked
  | ended
  deriving DecidableEq

def Stage.nextRow : Stage → Option RowKey
  | .selecting _ (id :: _) => some (.order id)
  | .cancelling (k :: _) | .matching (k :: _) | .filling (k :: _) => some k
  | _ => none

/-- Waiting at `async with lock`. -/
def Stage.queued : Stage → Bool
  | .selecting _ [] | .placeStart => true
  | _ => false

def Stage.locked : Stage → Bool
  | .cancelling _ | .matching _ | .filling _ => true
  | _ => false

def Stage.selects : Stage → Bool
  | .selecting _ _ => true
  | _ => false

def Stage.unfilled : Stage → List RowKey
  | .filling todo => todo
  | _ => []

structure State (n : Nat) where
  lock : Option (Fin n)
  rows : Locks RowKey (Fin n)
  book : List OrderId
  stage : Fin n → Stage

inductive Op
  /-- The SELECT finds the active orders of the user. -/
  | scan (orders : List OrderId)
  /-- It locks the next of them. -/
  | lockRow
  /-- Enter the lock; `assets` are the balance rows that the request updates first
  (a placement) or last (a batch cancel). -/
  | enter (assets : List RowKey)
  /-- The next UPDATE inside the lock. -/
  | update
  /-- `match_order`: the rows its fills update, the makers filled up, the rest. -/
  | matchOrder (rows : List RowKey) (filled : List OrderId) (rest : Option OrderId)
  | release
  | commit
  /-- A statement fails and the request rolls back. -/
  | fail
  deriving DecidableEq

namespace State

variable {n : Nat}

def goTo (s : State n) (t : Fin n) (stage : Stage) : State n :=
  { s with stage := Function.update s.stage t stage }

def lockRow? (s : State n) (t : Fin n) (k : RowKey) (next : Stage) : Option (State n) :=
  (s.rows.take? k t).map (fun rows => { s with rows := rows }.goTo t next)

/-- One step of a request; `none` is a step it cannot take, or has to wait for. -/
def exec (s : State n) (t : Fin n) (op : Op) : Option (State n) :=
  match s.stage t, op with
  | .batchStart, .scan orders =>
    if orders = [] then some (s.goTo t .unlocked)
    else if orders.Pairwise (· < ·) then some (s.goTo t (.selecting orders orders)) else none
  | .selecting orders (id :: todo), .lockRow => s.lockRow? t (.order id) (.selecting orders todo)
  | .selecting orders [], .enter assets =>
    if s.lock = none ∧ orderIds assets = [] then
      some ({ s with lock := some t, book := s.book.filter (· ∉ orders) }.goTo t
        (.cancelling (orders.map RowKey.order ++ assets)))
    else none
  | .placeStart, .enter assets =>
    if s.lock = none ∧ orderIds assets = [] then
      some ({ s with lock := some t }.goTo t (.matching assets))
    else none
  | .matching (k :: todo), .update => s.lockRow? t k (.matching todo)
  | .matching [], .matchOrder rows filled rest =>
    if (∀ id ∈ orderIds rows, id ∈ s.book) ∧ ∀ id ∈ filled, id ∈ orderIds rows then
      some ({ s with book := s.book.filter (· ∉ filled) ++ rest.toList }.goTo t (.filling rows))
    else none
  | .cancelling (k :: todo), .update => s.lockRow? t k (.cancelling todo)
  | .filling (k :: todo), .update => s.lockRow? t k (.filling todo)
  | .cancelling [], .release | .filling [], .release =>
    some ({ s with lock := none }.goTo t .unlocked)
  | .unlocked, .commit => some ({ s with rows := s.rows.release t }.goTo t .ended)
  | .ended, _ => none
  | stage, .fail =>
    some ({ s with
      lock := if stage.locked then none else s.lock
      rows := s.rows.release t
      book := match stage with
        | .matching _ | .filling _ => []
        | _ => s.book }.goTo t .ended)
  | _, _ => none

def Unfinished (s : State n) (t : Fin n) : Prop := s.stage t ≠ .ended

/-- The next step of `t` needs a lock or a row that `u` holds. -/
def WaitsFor (s : State n) (t u : Fin n) : Prop :=
  u ≠ t ∧ (((s.stage t).queued = true ∧ s.lock = some u) ∨
    ∃ k, (s.stage t).nextRow = some k ∧ s.rows k = some u)

def Fresh (s : State n) : Prop :=
  s.lock = none ∧ (∀ k, s.rows k = none) ∧ ∀ t, s.stage t = .batchStart ∨ s.stage t = .placeStart

def Deadlocked (s : State n) : Prop := Library.Deadlocked s.Unfinished s.WaitsFor

end State

def step {n : Nat} : Steps (State n) (Fin n × Op) := stepsOf (fun s a => s.exec a.1 a.2)

/-- No row is matched while a batch cancel that has yet to enter the lock holds
it, and none is locked by such a batch while a placement has yet to update it. -/
def Untangled {n : Nat} (s : State n) : Fin n × Op → Prop
  | (_, .matchOrder rows _ _) =>
    ∀ id, .order id ∈ rows → ∀ b, s.rows (.order id) = some b → (s.stage b).selects = false
  | (t, .lockRow) =>
    ∀ id, (s.stage t).nextRow = some (.order id) → ∀ p, .order id ∉ (s.stage p).unfilled
  | _ => True

section Steps

variable {n : Nat} {s s' : State n} {t u : Fin n} {op : Op}

inductive Stage.Next : Stage → RowKey → Stage → Prop
  | select {orders todo : List OrderId} {id : OrderId} :
      Next (.selecting orders (id :: todo)) (.order id) (.selecting orders todo)
  | cancel {todo : List RowKey} {k : RowKey} : Next (.cancelling (k :: todo)) k (.cancelling todo)
  | prepare {todo : List RowKey} {k : RowKey} : Next (.matching (k :: todo)) k (.matching todo)
  | fill {todo : List RowKey} {k : RowKey} : Next (.filling (k :: todo)) k (.filling todo)

/-- What one step does to the lock, the rows and the stage of its request. -/
inductive Moves (s : State n) (t : Fin n) (op : Op) (s' : State n) : Prop
  | scan {orders : List OrderId} (at_ : s.stage t = .batchStart)
      (ascending : orders.Pairwise (· < ·)) (lock : s'.lock = s.lock) (rows : s'.rows = s.rows)
      (stage : s'.stage = Function.update s.stage t (.selecting orders orders))
  | row {k : RowKey} {next : Stage} (isNext : (s.stage t).Next k next)
      (isSelect : op = .lockRow ∨ (s.stage t).selects = false)
      (lock : s'.lock = s.lock) (rows : s.rows.take? k t = some s'.rows)
      (stage : s'.stage = Function.update s.stage t next)
  | enterBatch {orders : List OrderId} {assets : List RowKey}
      (at_ : s.stage t = .selecting orders []) (free : s.lock = none)
      (assetsOnly : orderIds assets = []) (lock : s'.lock = some t) (rows : s'.rows = s.rows)
      (stage : s'.stage =
        Function.update s.stage t (.cancelling (orders.map RowKey.order ++ assets)))
  | enterPlace {assets : List RowKey} (at_ : s.stage t = .placeStart) (free : s.lock = none)
      (assetsOnly : orderIds assets = []) (lock : s'.lock = some t) (rows : s'.rows = s.rows)
      (stage : s'.stage = Function.update s.stage t (.matching assets))
  | matched {rows : List RowKey} {filled : List OrderId} {rest : Option OrderId}
      (isMatch : op = .matchOrder rows filled rest) (at_ : s.stage t = .matching [])
      (lock : s'.lock = s.lock) (same : s'.rows = s.rows)
      (stage : s'.stage = Function.update s.stage t (.filling rows))
  | leave (inside : (s.stage t).locked = true) (lock : s'.lock = none) (rows : s'.rows = s.rows)
      (stage : s'.stage = Function.update s.stage t .unlocked)
  | skip (at_ : s.stage t = .batchStart) (lock : s'.lock = s.lock) (rows : s'.rows = s.rows)
      (stage : s'.stage = Function.update s.stage t .unlocked)
  | finish (lock : s'.lock = if (s.stage t).locked then none else s.lock)
      (rows : s'.rows = s.rows.release t)
      (stage : s'.stage = Function.update s.stage t .ended)

private theorem moves_of_lockRow {k : RowKey} {next : Stage} (isNext : (s.stage t).Next k next)
    (isSelect : op = .lockRow ∨ (s.stage t).selects = false)
    (done : s.lockRow? t k next = some s') : Moves s t op s' := by
  obtain ⟨rows, took, rfl⟩ := Option.map_eq_some_iff.mp done
  exact .row isNext isSelect rfl took rfl

private theorem exec_moves (done : s.exec t op = some s') : Moves s t op s' := by
  unfold State.exec at done
  split at done
  · next here =>
    split at done
    · cases done
      exact .skip here rfl rfl rfl
    · split at done
      · next ascending =>
        cases done
        exact .scan here ascending rfl rfl rfl
      · cases done
  · next here =>
    exact moves_of_lockRow (by rw [here]; exact .select) (Or.inl rfl) done
  · next here =>
    split at done
    · next free =>
      cases done
      exact .enterBatch here free.1 free.2 rfl rfl rfl
    · cases done
  · next here =>
    split at done
    · next free =>
      cases done
      exact .enterPlace here free.1 free.2 rfl rfl rfl
    · cases done
  · next here =>
    exact moves_of_lockRow (by rw [here]; exact .prepare) (Or.inr (by rw [here]; rfl)) done
  · next here =>
    split at done
    · cases done
      exact .matched rfl here rfl rfl rfl
    · cases done
  · next here =>
    exact moves_of_lockRow (by rw [here]; exact .cancel) (Or.inr (by rw [here]; rfl)) done
  · next here =>
    exact moves_of_lockRow (by rw [here]; exact .fill) (Or.inr (by rw [here]; rfl)) done
  · next here =>
    cases done
    exact .leave (by rw [here]; rfl) rfl rfl rfl
  · next here =>
    cases done
    exact .leave (by rw [here]; rfl) rfl rfl rfl
  · next here =>
    cases done
    exact .finish (by rw [here]; rfl) rfl rfl
  · cases done
  · next here =>
    cases done
    exact .finish rfl rfl rfl
  · cases done

end Steps

/-- The rows that a request can hold in each stage: before the lock only a batch
cancel holds any, and these are order rows that its SELECT has passed. -/
def Stage.MayHold : Stage → RowKey → Prop
  | .selecting _ todo, k => ∃ id, k = .order id ∧ ∀ j ∈ todo, id < j
  | .cancelling _, _ | .matching _, _ | .filling _, _ | .unlocked, _ => True
  | .batchStart, _ | .placeStart, _ | .ended, _ => False

/-- What the statements left in a stage can meet: a SELECT goes up in the table,
and a batch cancel inside the lock holds its order rows. -/
def Stage.Wf (held : RowKey → Prop) : Stage → Prop
  | .selecting orders todo => todo.Pairwise (· < ·) ∧ ∀ id ∈ orders, id ∈ todo ∨ held (.order id)
  | .cancelling todo => ∀ id, .order id ∈ todo → held (.order id)
  | .matching todo => ∀ id, .order id ∉ todo
  | _ => True

structure State.Inv {n : Nat} (s : State n) : Prop where
  lock : ∀ t, s.lock = some t ↔ (s.stage t).locked = true
  owners : ∀ k t, s.rows k = some t → (s.stage t).MayHold k
  stages : ∀ t, (s.stage t).Wf (fun k => s.rows k = some t)
  clear : ∀ p id, .order id ∈ (s.stage p).unfilled →
    ∀ b, s.rows (.order id) = some b → (s.stage b).selects = false

section Invariant

variable {n : Nat} {s s' : State n} {t u : Fin n} {op : Op}

private theorem State.Fresh.inv (fresh : s.Fresh) : s.Inv := by
  obtain ⟨unlocked, free, start⟩ := fresh
  refine ⟨fun t => ?_, fun k t held => ?_, fun t => ?_, fun p id todo => ?_⟩
  · rcases start t with here | here <;> simp [unlocked, here, Stage.locked]
  · rw [free k] at held
    cases held
  · rcases start t with here | here <;> simp [here, Stage.Wf]
  · rcases start p with here | here <;> simp [here, Stage.unfilled] at todo

private theorem Stage.Wf.mono {held held' : RowKey → Prop} {stage : Stage} (wf : stage.Wf held)
    (more : ∀ k, held k → held' k) : stage.Wf held' := by
  cases stage with
  | selecting orders todo =>
    exact ⟨wf.1, fun i member => (wf.2 i member).imp_right (more _)⟩
  | cancelling todo => exact fun id member => more _ (wf id member)
  | matching _ => exact wf
  | batchStart | placeStart | filling _ | unlocked | ended => exact trivial

private theorem Stage.Next.same {stage next : Stage} {k : RowKey} (isNext : stage.Next k next) :
    next.locked = stage.locked ∧ next.selects = stage.selects ∧
      ∀ j ∈ next.unfilled, j ∈ stage.unfilled := by
  cases isNext with
  | select | cancel | prepare => exact ⟨rfl, rfl, fun _ => id⟩
  | fill => exact ⟨rfl, rfl, fun _ => List.mem_cons_of_mem _⟩

private theorem Stage.Next.nextRow {stage next : Stage} {k : RowKey} (isNext : stage.Next k next) :
    stage.nextRow = some k := by
  cases isNext <;> rfl

private theorem Stage.Next.mayHold {stage next : Stage} {k j : RowKey} {held : RowKey → Prop}
    (isNext : stage.Next k next) (wf : stage.Wf held) (may : j = k ∨ stage.MayHold j) :
    next.MayHold j := by
  cases isNext with
  | select =>
    rcases may with rfl | ⟨i, rfl, below⟩
    · exact ⟨_, rfl, (List.pairwise_cons.mp wf.1).1⟩
    · exact ⟨i, rfl, fun j member => below j (List.mem_cons_of_mem _ member)⟩
  | cancel | prepare | fill => exact trivial

private theorem Stage.Next.wf {stage next : Stage} {k : RowKey} {held : RowKey → Prop}
    (isNext : stage.Next k next) (wf : stage.Wf held) :
    next.Wf (fun j => j = k ∨ held j) := by
  cases isNext with
  | select =>
    refine ⟨(List.pairwise_cons.mp wf.1).2, fun i member => ?_⟩
    rcases wf.2 i member with todo | own
    · rcases List.mem_cons.mp todo with rfl | later
      · exact Or.inr (Or.inl rfl)
      · exact Or.inl later
    · exact Or.inr (Or.inr own)
  | cancel => exact fun i member => Or.inr (wf i (List.mem_cons_of_mem _ member))
  | prepare => exact fun i member => wf i (List.mem_cons_of_mem _ member)
  | fill => exact trivial

private theorem State.Inv.lock_step (inv : s.Inv) (moves : Moves s t op s') (u : Fin n) :
    s'.lock = some u ↔ (s'.stage u).locked = true := by
  have owned := inv.lock
  cases moves with
  | scan here _ lock _ stage | skip here lock _ stage | matched _ here lock _ stage =>
    rw [lock, stage, owned, Function.update_apply]
    split
    · next self => rw [self, here]; rfl
    · rfl
  | row isNext _ lock _ stage =>
    rw [lock, stage, owned, Function.update_apply]
    split
    · next self => rw [self, isNext.same.1]
    · rfl
  | enterBatch _ free _ lock _ stage | enterPlace _ free _ lock _ stage =>
    rw [lock, stage, Function.update_apply]
    split
    · next self => simp [self, Stage.locked]
    · next other => simp [← owned, free, Ne.symm other]
  | leave inside lock _ stage =>
    rw [lock, stage, Function.update_apply]
    split
    · simp [Stage.locked]
    · next other => simp [← owned, (owned t).mpr inside, Ne.symm other]
  | finish lock _ stage =>
    rw [lock, stage, Function.update_apply]
    by_cases inside : (s.stage t).locked = true
    · rw [if_pos inside]
      split
      · simp [Stage.locked]
      · next other => simp [← owned, (owned t).mpr inside, Ne.symm other]
    · rw [if_neg inside]
      split
      · next self =>
        rw [self, owned]
        exact ⟨fun held => absurd held inside, fun done => Bool.noConfusion done⟩
      · exact owned u

private theorem State.Inv.owners_step (inv : s.Inv) (moves : Moves s t op s') (k : RowKey)
    (u : Fin n)
    (held : s'.rows k = some u) : (s'.stage u).MayHold k := by
  have owned := inv.owners k u
  cases moves with
  | scan here _ _ rows stage | skip here _ rows stage | enterPlace here _ _ _ rows stage =>
    rw [rows] at held
    rw [stage, Function.update_apply]
    split
    · next self =>
      rw [self, here] at owned
      exact absurd (owned (self ▸ held)) id
    · exact owned held
  | row isNext _ _ took stage =>
    rw [stage, Function.update_apply]
    split
    · next self =>
      subst self
      refine isNext.mayHold (inv.stages u) ?_
      exact ((Locks.take?_get took).mp held).imp And.left (fun old => owned old.2)
    · next other => exact owned ((Locks.take?_other took other).mp held)
  | enterBatch _ _ _ _ rows stage | matched _ _ _ rows stage | leave _ _ rows stage =>
    rw [rows] at held
    rw [stage, Function.update_apply]
    split
    · exact trivial
    · exact owned held
  | finish _ rows stage =>
    rw [rows, Locks.release_get] at held
    rw [stage, Function.update_of_ne held.1]
    exact owned held.2

private theorem State.Inv.stages_step (inv : s.Inv) (moves : Moves s t op s') (u : Fin n) :
    (s'.stage u).Wf (fun k => s'.rows k = some u) := by
  have wf := inv.stages u
  cases moves with
  | scan _ ascending _ rows stage =>
    rw [stage, rows, Function.update_apply]
    split
    · exact ⟨ascending, fun _ member => Or.inl member⟩
    · exact wf
  | row isNext _ _ took stage =>
    rw [stage, Function.update_apply]
    split
    · next self =>
      subst self
      refine (isNext.wf wf).mono (fun j held => ?_)
      rcases held with rfl | held
      · exact Locks.take?_own took
      · exact Locks.take?_keeps took held
    · exact wf.mono (fun _ => Locks.take?_keeps took)
  | enterBatch here _ assetsOnly _ rows stage =>
    rw [stage, rows, Function.update_apply]
    split
    · next self =>
      subst self
      rw [here] at wf
      intro id member
      rcases List.mem_append.mp member with own | asset
      · obtain ⟨i, scanned, same⟩ := List.mem_map.mp own
        rw [← same]
        exact (wf.2 i scanned).resolve_left List.not_mem_nil
      · rw [← mem_orderIds, assetsOnly] at asset
        cases asset
    · exact wf
  | enterPlace _ _ assetsOnly _ rows stage =>
    rw [stage, rows, Function.update_apply]
    split
    · intro id member
      rw [← mem_orderIds, assetsOnly] at member
      cases member
    · exact wf
  | matched _ _ _ rows stage | skip _ _ rows stage | leave _ _ rows stage =>
    rw [stage, rows, Function.update_apply]
    split
    · exact trivial
    · exact wf
  | finish _ rows stage =>
    rw [stage, Function.update_apply]
    split
    · exact trivial
    · next other => exact wf.mono (fun j held => rows ▸ Locks.release_get.mpr ⟨other, held⟩)

/-- This is where the guard is needed: at the match and at the row locks of a
SELECT. -/
private theorem State.Inv.clear_step (inv : s.Inv) (untangled : Untangled s (t, op))
    (moves : Moves s t op s') (p : Fin n) (id : OrderId)
    (todo : .order id ∈ (s'.stage p).unfilled) (b : Fin n)
    (held : s'.rows (.order id) = some b) : (s'.stage b).selects = false := by
  have clear := inv.clear p id
  cases moves with
  | scan here _ _ rows stage =>
    rw [rows] at held
    rw [stage, Function.update_apply] at todo ⊢
    have idle : ∀ k, s.rows k ≠ some t := fun k own => by
      have may := inv.owners k t own
      rw [here] at may
      exact may
    split
    · next self => exact absurd (self ▸ held) (idle _)
    · split at todo
      · cases todo
      · exact clear todo b held
  | row isNext isSelect _ took stage =>
    rw [stage, Function.update_apply] at todo ⊢
    have before : .order id ∈ (s.stage p).unfilled := by
      split at todo
      · next self => exact self ▸ isNext.same.2.2 _ todo
      · exact todo
    rcases (Locks.take?_get took).mp held with ⟨here, rfl⟩ | ⟨_, old⟩
    · rw [if_pos rfl, isNext.same.2.1]
      rcases isSelect with rfl | outside
      · exact absurd before (untangled id (here ▸ isNext.nextRow) p)
      · exact outside
    · split
      · next self => exact isNext.same.2.1.trans (self ▸ clear before b old)
      · exact clear before b old
  | matched isMatch _ _ rows stage =>
    rw [rows] at held
    rw [stage, Function.update_apply] at todo ⊢
    split
    · rfl
    · split at todo
      · subst isMatch
        exact untangled id todo b held
      · exact clear todo b held
  | enterBatch _ _ _ _ rows stage | enterPlace _ _ _ _ rows stage | leave _ _ rows stage
  | skip _ _ rows stage =>
    rw [rows] at held
    rw [stage, Function.update_apply] at todo ⊢
    split at todo
    · cases todo
    · split
      · rfl
      · exact clear todo b held
  | finish _ rows stage =>
    rw [rows, Locks.release_get] at held
    rw [stage, Function.update_of_ne held.1]
    rw [stage, Function.update_apply] at todo
    split at todo
    · cases todo
    · exact clear todo b held.2

private theorem State.Inv.step (inv : s.Inv) (untangled : Untangled s (t, op))
    (done : s.exec t op = some s') : s'.Inv := by
  have moves := exec_moves done
  exact ⟨inv.lock_step moves, inv.owners_step moves, inv.stages_step moves,
    inv.clear_step untangled moves⟩

/-- Inside the lock a request only waits for requests that have left it. -/
private theorem State.Inv.awaits_unlocked (inv : s.Inv) (inside : (s.stage t).locked = true)
    {k : RowKey}
    (next : (s.stage t).nextRow = some k) (held : s.rows k = some u) (other : u ≠ t) :
    s.stage u = .unlocked := by
  have may := inv.owners k u held
  have outside : (s.stage u).selects = false := by
    cases k with
    | order id =>
      have wf := inv.stages t
      cases here : s.stage t with
      | cancelling todo =>
        rw [here] at wf next
        cases todo with
        | nil => cases next
        | cons k todo =>
          cases next
          rw [wf id List.mem_cons_self] at held
          exact absurd (Option.some.inj held).symm other
      | matching todo =>
        rw [here] at wf next
        cases todo with
        | nil => cases next
        | cons k todo =>
          cases next
          exact absurd List.mem_cons_self (wf id)
      | filling todo =>
        rw [here] at next
        cases todo with
        | nil => cases next
        | cons k todo =>
          cases next
          exact inv.clear t id (by rw [here]; exact List.mem_cons_self) u held
      | batchStart | selecting _ _ | placeStart | unlocked | ended =>
        rw [here] at inside
        cases inside
    | account _ | position _ | market =>
      cases there : s.stage u with
      | selecting _ _ =>
        rw [there] at may
        obtain ⟨_, same, _⟩ := may
        cases same
      | _ => rfl
  have notInside : (s.stage u).locked ≠ true := fun both => by
    have first := (inv.lock t).mpr inside
    rw [(inv.lock u).mpr both] at first
    exact other (Option.some.inj first)
  cases there : s.stage u with
  | unlocked => rfl
  | selecting _ _ =>
    rw [there] at outside
    cases outside
  | cancelling _ | matching _ | filling _ =>
    rw [there] at notInside
    exact absurd rfl notInside
  | batchStart | placeStart | ended =>
    rw [there] at may
    exact may.elim

/-- How far a request is from its commit: a SELECT by the row it needs next, then
the queue, the lock, and the commit. -/
def Stage.rank : Stage → Nat ×ₗ Nat
  | .selecting _ (id :: _) => toLex (1, id)
  | .selecting _ [] => toLex (2, 0)
  | .cancelling _ | .matching _ | .filling _ => toLex (3, 0)
  | .unlocked => toLex (4, 0)
  | .batchStart | .placeStart | .ended => toLex (0, 0)

private theorem rank_lt_of_stage {a b i j : Nat} (before : a < b) :
    (toLex (a, i) : Nat ×ₗ Nat) < toLex (b, j) :=
  Prod.Lex.toLex_lt_toLex.mpr (Or.inl before)

private theorem Stage.rank_of_locked {stage : Stage} (inside : stage.locked = true) :
    stage.rank = toLex (3, 0) := by
  cases stage <;> first | rfl | cases inside

private theorem State.Inv.climbs (inv : s.Inv) (waits : s.WaitsFor t u) :
    (s.stage t).rank < (s.stage u).rank := by
  obtain ⟨other, ⟨queued, held⟩ | ⟨k, next, held⟩⟩ := waits
  · rw [Stage.rank_of_locked ((inv.lock u).mp held)]
    cases here : s.stage t with
    | selecting orders todo =>
      cases todo with
      | nil => exact rank_lt_of_stage (by decide)
      | cons _ _ =>
        rw [here] at queued
        cases queued
    | placeStart => exact rank_lt_of_stage (by decide)
    | batchStart | cancelling _ | matching _ | filling _ | unlocked | ended =>
      rw [here] at queued
      cases queued
  · by_cases inside : (s.stage t).locked = true
    · rw [Stage.rank_of_locked inside, inv.awaits_unlocked inside next held other]
      exact rank_lt_of_stage (by decide)
    · have may := inv.owners k u held
      cases here : s.stage t with
      | selecting orders todo =>
        rw [here] at next
        cases todo with
        | nil => cases next
        | cons id todo =>
          cases next
          cases there : s.stage u with
          | selecting orders' todo' =>
            rw [there] at may
            obtain ⟨i, same, below⟩ := may
            cases same
            cases todo' with
            | nil => exact rank_lt_of_stage (by decide)
            | cons j todo' =>
              exact Prod.Lex.toLex_lt_toLex.mpr (Or.inr ⟨rfl, below j List.mem_cons_self⟩)
          | cancelling _ | matching _ | filling _ | unlocked =>
            exact rank_lt_of_stage (by decide)
          | batchStart | placeStart | ended =>
            rw [there] at may
            exact may.elim
      | cancelling _ | matching _ | filling _ =>
        rw [here] at inside
        exact absurd rfl inside
      | batchStart | placeStart | unlocked | ended =>
        rw [here] at next
        cases next

end Invariant

/-- In a run in which no batch cancel holds, before it enters the lock, a row that
a placement has matched and not yet updated, the requests never all wait for one
another. -/
theorem untangled_runs_never_deadlock {n : Nat} {s s' : State n} {as : List (Fin n × Op)}
    (fresh : s.Fresh) (run : Run (Guarded Untangled step) s as s') : ¬ s'.Deadlocked := by
  have inv : s'.Inv :=
    run.preserves (fun _ a _ moved kept => kept.step moved.1 moved.2) fresh.inv
  exact not_deadlocked_of_climbs (fun t => (s'.stage t).rank)
    (fun _ _ _ _ waits => inv.climbs waits)

def twoRequests : State 2 :=
  ⟨none, fun _ => none, [7], fun t => if t = 0 then .batchStart else .placeStart⟩

private theorem twoRequests_fresh : twoRequests.Fresh :=
  ⟨rfl, fun _ => rfl, fun t => by fin_cases t <;> simp [twoRequests]⟩

/-- The placement enters the lock while the batch cancel holds its row, and
matches nothing. -/
theorem placement_passes_held_row :
    ∃ s', Run (Guarded Untangled step) twoRequests
        [(0, .scan [7]), (0, .lockRow), (1, .enter [.account "bob", .market]), (1, .update),
          (1, .update), (1, .matchOrder [] [] (some 8))] s' ∧
      s'.WaitsFor 0 1 ∧ ¬ s'.Deadlocked := by
  have untouched : Untangled (twoRequests.goTo 0 (.selecting [7] [7])) (0, .lockRow) := by
    intro id _ p
    fin_cases p <;> simp [twoRequests, State.goTo, Stage.unfilled]
  have unmatched (s : State 2) : Untangled s (1, .matchOrder [] [] (some 8)) :=
    fun _ member => absurd member List.not_mem_nil
  obtain ⟨s', run, waits⟩ : ∃ s', Run (Guarded Untangled step) twoRequests
      [(0, .scan [7]), (0, .lockRow), (1, .enter [.account "bob", .market]), (1, .update),
        (1, .update), (1, .matchOrder [] [] (some 8))] s' ∧ s'.WaitsFor 0 1 :=
    ⟨_, .cons ⟨trivial, rfl⟩ (.cons ⟨untouched, rfl⟩ (.cons ⟨trivial, rfl⟩
      (.cons ⟨trivial, rfl⟩ (.cons ⟨trivial, rfl⟩ (.cons ⟨unmatched _, rfl⟩ (.nil _)))))),
      by decide, Or.inl ⟨rfl, rfl⟩⟩
  exact ⟨s', run, waits, untangled_runs_never_deadlock twoRequests_fresh run⟩

/-- The placement matches the row that the batch cancel holds. -/
theorem matched_row_deadlocks :
    ∃ as s', Run step twoRequests as s' ∧ s'.Deadlocked := by
  refine ⟨[(0, .scan [7]), (0, .lockRow), (1, .enter [.account "bob", .market]), (1, .update),
    (1, .update), (1, .matchOrder [.order 7] [7] none)], _, Run.ofExec rfl, ⟨0, ?_⟩, ?_⟩
  · simp [State.Unfinished, twoRequests, State.goTo, Function.update]
  · intro t _
    fin_cases t
    · exact ⟨1, by simp [State.Unfinished, State.goTo], by decide, Or.inl ⟨rfl, rfl⟩⟩
    · exact ⟨0, by simp [State.Unfinished, State.goTo], by decide, Or.inr ⟨.order 7, rfl, rfl⟩⟩

end PredictionMarket.BatchLocks
