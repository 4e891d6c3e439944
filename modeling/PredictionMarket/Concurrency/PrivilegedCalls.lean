/- PredictionMarket/Concurrency/PrivilegedCalls
   digest: Concurrent privileged mints and burns, and when a key is spent at most once. -/

import PredictionMarket.Concurrency.Statements
import PredictionMarket.Engine.PrivilegedMint

set_option autoImplicit false
set_option relaxedAutoImplicit false

namespace PredictionMarket

open Library ReadCommitted

abbrev AmmProgram := Program DbKey DbKey.Row AmmRow Err AmmResult

/-! The statements of the two services, each before those that follow it. -/

/-- The idempotency check, a plain SELECT. -/
def checkKey (reference : AmmReference) (key : String) (next : AmmProgram) : AmmProgram :=
  .select (fun _ inserted =>
    if keyIn reference key inserted then .finish (.idempotentHit key) else next)

def requireStatus (next : AmmProgram) : Option MarketStatus → AmmProgram
  | none => .fail (.app ⟨3001, "Market not found", 404⟩)
  | some status =>
    if status = .active then next else .fail (.app ⟨3002, "Market is not active", 422⟩)

/-- The status check, a plain SELECT. -/
def checkActive (marketId : MarketId) (next : AmmProgram) : AmmProgram :=
  .select (fun rows _ => requireStatus next ((rows (.market marketId)).map MarketRow.status))

def addPairs (userId : UserId) (marketId : MarketId) (qty costHalf : Int) (next : AmmProgram) :
    AmmProgram :=
  .update (.position userId marketId)
    (fun row => orIntegrity (Table.rowUpsert? PositionRow.Check
      ⟨⟨qty, costHalf, 0⟩, ⟨qty, costHalf, 0⟩⟩
      (fun r => ⟨r.yes.bought qty costHalf, r.no.bought qty costHalf⟩) row))
    (fun _ => next)

def readInventory (userId : UserId) (marketId : MarketId) (quantity cents missing : Int) :
    AmmProgram :=
  .select (fun rows _ =>
    let position : Option PositionRow := rows (.position userId marketId)
    .select (fun rows _ =>
      let account : Option AccountRow := rows (.account userId)
      .finish (.done
        { marketId := marketId
          quantity := quantity
          cents := cents
          newYesInventory := (position.map (·.yes.volume)).getD missing
          newNoInventory := (position.map (·.no.volume)).getD missing
          remainingBalanceCents := (account.map AccountRow.availableBalance).getD 0 })))

/-- `execute_privileged_mint`, statement by statement, on a schema with `amount_cents` and
`price_cents`. -/
def mintProgram (userId : UserId) (marketId : MarketId) (quantity : Int)
    (idempotencyKey : String) : AmmProgram :=
  checkKey .ammMint idempotencyKey <|
  checkActive marketId <|
  -- SELECT ... FOR UPDATE
  .update (.account userId) .ok (fun account =>
    let costCents := quantity * COST_PER_SHARE_CENTS
    let available := (account.map AccountRow.availableBalance).getD 0
    if account.isNone ∨ available < costCents then
      .fail (.app ⟨2001, s!"Insufficient balance: need {costCents}, have {available}", 422⟩)
    else
      addBalance userId (-costCents) <|
      updateMarket marketId (fun r =>
        { r with
          reserveBalance := r.reserveBalance + costCents
          totalYesShares := r.totalYesShares + quantity
          totalNoShares := r.totalNoShares + quantity }) <|
      addPairs userId marketId quantity (quantity * INITIAL_FAIR_COST_PER_SHARE) <|
      .insert (.entry ⟨userId, .mintCost, -costCents, .ammMint, idempotencyKey⟩) <|
      .insert (.entry ⟨"SYSTEM", .mintReserveIn, costCents, .ammMint, idempotencyKey⟩) <|
      .insert (.trade ⟨marketId, userId, "SYSTEM", .mint, 50, quantity, 0, 0⟩) <|
      readInventory userId marketId quantity costCents quantity)

/-- `execute_privileged_burn`, on the same schema. -/
def burnProgram (userId : UserId) (marketId : MarketId) (quantity : Int)
    (idempotencyKey : String) : AmmProgram :=
  checkKey .ammBurn idempotencyKey <|
  checkActive marketId <|
  -- SELECT ... FOR UPDATE
  .update (.position userId marketId) .ok (fun position =>
    match position with
    | none => .fail (.app ⟨5001, "No positions found", 422⟩)
    | some row =>
      let maxBurnable := row.nettable
      if quantity > maxBurnable then
        .fail (.app ⟨5001,
          s!"Insufficient available shares: can burn max {maxBurnable}, requested {quantity}",
          422⟩)
      else
        let recoveryCents := quantity * RECOVERY_PER_SHARE_CENTS
        updatePosition userId marketId (fun r =>
          r.netted quantity (costRelease row.yes quantity) (costRelease row.no quantity)) <|
        updateMarket marketId (fun r =>
          { r with reserveBalance := r.reserveBalance - recoveryCents }) <|
        addBalance userId recoveryCents <|
        .insert (.entry ⟨userId, .burnRevenue, recoveryCents, .ammBurn, idempotencyKey⟩) <|
        .insert (.entry ⟨"SYSTEM", .burnReserveOut, -recoveryCents, .ammBurn, idempotencyKey⟩) <|
        .insert (.trade ⟨marketId, "SYSTEM", userId, .burn, 50, quantity, 0, 0⟩) <|
        readInventory userId marketId quantity recoveryCents 0)

def AmmCall.program (call : AmmCall) : AmmProgram :=
  match call.reference with
  | .ammMint => mintProgram call.userId call.marketId call.quantity call.idempotencyKey
  | .ammBurn => burnProgram call.userId call.marketId call.quantity call.idempotencyKey

section Alone

variable {next : AmmProgram} {db : Db} {log : List AmmRow} {userId : UserId}
  {marketId : MarketId}

private theorem checkActive_alone : (checkActive marketId next).alone db.rows log =
    requireActive marketId db >>= fun _ => next.alone db.rows log := by
  rw [checkActive, Program.alone, requireActive]
  simp only [Db.rows]
  cases db.markets.get? marketId with
  | none => rfl
  | some row =>
    by_cases active : row.status = .active <;> simp [requireStatus, active, Program.alone]

private theorem updateMarket_run (f : MarketRow → MarketRow) :
    (updateMarket marketId f next).alone db.rows log =
      db.updateMarket marketId f >>= fun db => next.alone db.rows log :=
  updateMarket_alone f

private theorem addPairs_alone (qty costHalf : Int) :
    (addPairs userId marketId qty costHalf next).alone db.rows log =
      db.onHoldings (fun h => h.addPairs userId marketId qty costHalf) >>= fun db =>
        next.alone db.rows log :=
  (onRow_position rfl (db.holdings.positions.upsert?_row (userId, marketId) _ _)).alone

private theorem readInventory_alone (e₁ e₂ e₃ : AmmRow) (quantity cents missing : Int) :
    Program.alone (.insert e₁ (.insert e₂ (.insert e₃
        (readInventory userId marketId quantity cents missing)))) db.rows log =
      .ok (.done (inventoryReport userId marketId quantity cents missing db.holdings),
        db.rows, log ++ [e₁, e₂, e₃]) := by
  rw [Program.alone, Program.alone, Program.alone, List.append_assoc, List.append_assoc]
  rfl

variable {s : AmmDb}

def AmmDb.asRows (r : AmmResult × AmmDb) : AmmResult × Rows DbKey DbKey.Row × List AmmRow :=
  (r.1, r.2.db.rows, r.2.inserted)

private theorem checkKey_alone (reference : AmmReference) (key : String) :
    (checkKey reference key next).alone s.db.rows s.inserted =
      if s.keyUsed reference key then .ok (.idempotentHit key, s.db.rows, s.inserted)
      else next.alone s.db.rows s.inserted := by
  rw [checkKey, Program.alone]
  show Program.alone (if s.keyUsed reference key then _ else next) _ _ = _
  split <;> rfl

private theorem mintProgram_alone (quantity : Int) (key : String) :
    (mintProgram userId marketId quantity key).alone s.db.rows s.inserted =
      (executePrivilegedMint userId marketId quantity key s).map AmmDb.asRows := by
  rw [mintProgram, checkKey_alone, executePrivilegedMint]
  split
  · rfl
  · rw [checkActive_alone, map_bind]
    apply bind_congr
    intro _
    simp only [Program.alone, Function.update_eq_self]
    have row : s.db.rows (.account userId) = s.db.holdings.accounts.get? userId := rfl
    by_cases short : (s.db.rows (.account userId)).isNone ∨
        ((s.db.rows (.account userId)).map AccountRow.availableBalance).getD 0 <
          quantity * COST_PER_SHARE_CENTS
    · rw [if_pos short, if_pos (by rwa [row] at short)]
      rfl
    · rw [if_neg short, if_neg (by rwa [row] at short), addBalance_alone, map_bind]
      apply bind_congr
      intro db₁
      rw [updateMarket_run, map_bind]
      apply bind_congr
      intro db₂
      rw [addPairs_alone, map_bind]
      apply bind_congr
      intro db₃
      rw [readInventory_alone]
      rfl

private theorem burnProgram_alone (quantity : Int) (key : String) :
    (burnProgram userId marketId quantity key).alone s.db.rows s.inserted =
      (executePrivilegedBurn userId marketId quantity key s).map AmmDb.asRows := by
  rw [burnProgram, checkKey_alone, executePrivilegedBurn]
  split
  · rfl
  · rw [checkActive_alone, map_bind]
    apply bind_congr
    intro _
    have stored : s.db.rows (.position userId marketId) =
      s.db.holdings.positions.get? (userId, marketId) := rfl
    simp only [Program.alone, Function.update_eq_self]
    simp only [stored]
    cases s.db.holdings.positions.get? (userId, marketId) with
    | none => rfl
    | some row =>
      simp only
      split
      · rfl
      · rw [updatePosition_alone]
        show _ = Except.map AmmDb.asRows (_ >>= _)
        rw [map_bind]
        apply bind_congr
        intro db₁
        rw [updateMarket_run, map_bind]
        apply bind_congr
        intro db₂
        rw [addBalance_alone, map_bind]
        apply bind_congr
        intro db₃
        rw [readInventory_alone]
        rfl

theorem AmmCall.program_alone (call : AmmCall) (s : AmmDb) :
    call.program.alone s.db.rows s.inserted = (call.execute s).map AmmDb.asRows := by
  unfold program execute
  cases call.reference with
  | ammMint => exact mintProgram_alone _ _
  | ammBurn => exact burnProgram_alone _ _

end Alone

/-- What a call may rely on while it runs: no call changes the status of a market or
makes an account, and nobody else spends the key. -/
structure KeyFacts (rows₀ : Rows DbKey DbKey.Row) (reference : AmmReference) (key : String)
    (used : Bool) (c : Rows DbKey DbKey.Row) (l : List AmmRow) : Prop where
  status : ∀ m, (c (.market m)).map MarketRow.status = (rows₀ (.market m)).map MarketRow.status
  account : ∀ u, (c (.account u)).isSome = (rows₀ (.account u)).isSome
  key : keyIn reference key l = used

section Settled

variable {rows₀ : Rows DbKey DbKey.Row} {reference : AmmReference} {key : String} {used : Bool}
  {held : Set DbKey} {next : AmmProgram} {userId : UserId} {marketId : MarketId}

private theorem checkKey_settled (settled : next.Settled (KeyFacts rows₀ reference key used) held) :
    (checkKey reference key next).Settled (KeyFacts rows₀ reference key used) held := by
  intro draft _ pending
  constructor
  · intro c l c' l' facts facts' _
    have same : keyIn reference key (l ++ pending) = keyIn reference key (l' ++ pending) := by
      have both := facts.key.trans facts'.key.symm
      unfold keyIn at both ⊢
      rw [List.any_append, List.any_append, both]
    show (if keyIn reference key _ then _ else _) = if keyIn reference key _ then _ else _
    rw [same]
  · intro c l _
    show Program.Settled _ (if keyIn reference key _ then _ else _) _
    split
    · trivial
    · exact settled

private theorem checkActive_settled
    (settled : next.Settled (KeyFacts rows₀ reference key used) held) :
    (checkActive marketId next).Settled (KeyFacts rows₀ reference key used) held := by
  intro draft _ pending
  constructor
  · intro c l c' l' facts facts' _
    have same : (overlay draft c (.market marketId)).map MarketRow.status =
        (overlay draft c' (.market marketId)).map MarketRow.status := by
      unfold overlay
      cases draft (.market marketId) with
      | none => exact (facts.status marketId).trans (facts'.status marketId).symm
      | some row => rfl
    exact congrArg (requireStatus next) same
  · intro c l _
    show Program.Settled _
      (requireStatus next ((overlay draft c (.market marketId)).map MarketRow.status)) _
    cases (overlay draft c (.market marketId)).map MarketRow.status with
    | none => trivial
    | some status =>
      rw [requireStatus]
      split
      · exact settled
      · trivial

private theorem updateMarket_settled {f : MarketRow → MarketRow}
    (settled : ∀ held', held ⊆ held' → next.Settled (KeyFacts rows₀ reference key used) held') :
    (updateMarket marketId f next).Settled (KeyFacts rows₀ reference key used) held := by
  refine ⟨fun _ => settled _ Set.subset_union_left, ?_⟩
  intro _ c l facts absent _
  refine Or.inr ⟨?_, settled _ subset_rfl⟩
  intro c' l' facts'
  have status := (facts'.status marketId).trans (facts.status marketId).symm
  rw [absent] at status
  exact Option.map_eq_none_iff.mp status

private theorem addBalance_settled {amount : Int}
    (settled : ∀ held', held ⊆ held' → .account userId ∈ held' ∨ rows₀ (.account userId) = none →
      next.Settled (KeyFacts rows₀ reference key used) held') :
    (addBalance userId amount next).Settled (KeyFacts rows₀ reference key used) held := by
  refine ⟨fun _ => settled _ Set.subset_union_left (Or.inl (Or.inr rfl)), ?_⟩
  intro _ c l facts absent _
  have never : rows₀ (.account userId) = none := by
    have presence := facts.account userId
    rw [absent] at presence
    simpa using presence.symm
  refine Or.inr ⟨?_, settled _ subset_rfl (Or.inr never)⟩
  intro c' l' facts'
  have presence := facts'.account userId
  rw [never] at presence
  simpa using presence

/-- The closing reads see rows that the call has locked, or an account that is not
there. -/
private theorem readInventory_settled {quantity cents missing : Int}
    (position : .position userId marketId ∈ held)
    (account : .account userId ∈ held ∨ rows₀ (.account userId) = none) :
    (readInventory userId marketId quantity cents missing).Settled
      (KeyFacts rows₀ reference key used) held := by
  intro draft locked pending
  constructor
  · intro c l c' l' _ _ _
    have same : overlay draft c (.position userId marketId) =
        overlay draft c' (.position userId marketId) := by
      apply overlay_congr
      intro free
      simpa [free] using locked _ position
    simp only [same]
  · intro _ _ _ draft locked pending
    constructor
    · intro c l c' l' facts facts' _
      have same : overlay draft c (.account userId) = overlay draft c' (.account userId) := by
        apply overlay_congr
        intro free
        obtain here | never := account
        · simpa [free] using locked _ here
        · have one := facts.account userId
          have two := facts'.account userId
          rw [never, Option.isSome_none, Option.isSome_eq_false_iff, Option.isNone_iff_eq_none]
            at one two
          rw [one, two]
      simp only [same]
    · intros
      trivial

private theorem addPairs_settled {qty costHalf : Int}
    (settled : ∀ held', held ⊆ held' → .position userId marketId ∈ held' →
      next.Settled (KeyFacts rows₀ reference key used) held') :
    (addPairs userId marketId qty costHalf next).Settled
      (KeyFacts rows₀ reference key used) held := by
  refine ⟨fun _ => settled _ Set.subset_union_left (Or.inr rfl), ?_⟩
  intro _ _ _ _ _ keeps
  -- an upsert never leaves a row absent
  unfold Table.rowUpsert? at keeps
  split at keeps <;> cases keeps

private theorem updatePosition_settled {f : PositionRow → PositionRow}
    (locked : .position userId marketId ∈ held)
    (settled : ∀ held', held ⊆ held' → next.Settled (KeyFacts rows₀ reference key used) held') :
    (updatePosition userId marketId f next).Settled (KeyFacts rows₀ reference key used) held :=
  ⟨fun _ => settled _ Set.subset_union_left, fun unlocked => absurd locked unlocked⟩

private theorem mintProgram_settled (quantity : Int) :
    (mintProgram userId marketId quantity key).Settled (KeyFacts rows₀ .ammMint key used) ∅ := by
  refine checkKey_settled (checkActive_settled ⟨?_, ?_⟩)
  · intro account
    simp only
    split
    · trivial
    · refine addBalance_settled ?_
      intro _ _ account
      refine updateMarket_settled ?_
      intro _ more
      refine addPairs_settled ?_
      intro _ more' position
      exact readInventory_settled position (account.imp_left (fun here => more' (more here)))
  · intro _ c l _ _ _
    exact Or.inl ⟨_, if_pos (Or.inl rfl)⟩

private theorem burnProgram_settled (quantity : Int) :
    (burnProgram userId marketId quantity key).Settled (KeyFacts rows₀ .ammBurn key used) ∅ := by
  refine checkKey_settled (checkActive_settled ⟨?_, ?_⟩)
  · intro position
    cases position with
    | none => trivial
    | some row =>
      simp only
      split
      · trivial
      · refine updatePosition_settled (Or.inr rfl) ?_
        intro _ more
        refine updateMarket_settled ?_
        intro _ more'
        refine addBalance_settled ?_
        intro _ more'' account
        exact readInventory_settled (more'' (more' (more (Or.inr rfl)))) account
  · intro _ c l _ _ _
    exact Or.inl ⟨_, rfl⟩

theorem AmmCall.program_settled (call : AmmCall) : call.program.Settled
    (KeyFacts rows₀ call.reference call.idempotencyKey used) ∅ := by
  unfold program
  cases call.reference with
  | ammMint => exact mintProgram_settled _
  | ammBurn => exact burnProgram_settled _

end Settled

def DbKey.Keeps : ∀ k : DbKey, Option k.Row → Option k.Row → Prop
  | .market _, row, row' => row'.map MarketRow.status = row.map MarketRow.status
  | .account _, row, row' => row'.isSome = row.isSome
  | .position _ _, _, _ | .order _, _, _ => True

theorem DbKey.Keeps.refl (k : DbKey) (row : Option k.Row) : k.Keeps row row := by
  cases k <;> simp [Keeps]

theorem DbKey.Keeps.trans (k : DbKey) (a b c : Option k.Row) (first : k.Keeps a b)
    (second : k.Keeps b c) : k.Keeps a c := by
  cases k with
  | account _ | market _ => exact Eq.trans second first
  | position _ _ | order _ => trivial

def AmmRow.FitsKey (reference : AmmReference) (key : String) : AmmRow → Prop
  | .entry e => e.referenceType = reference ∧ e.referenceId = key
  | .trade _ => True

section Writes

variable {kind : AmmRow → Prop} {next : AmmProgram} {userId : UserId} {marketId : MarketId}

private theorem checkKey_writes (reference : AmmReference) (key : String)
    (writes : next.Writes DbKey.Keeps kind) :
    (checkKey reference key next).Writes DbKey.Keeps kind := by
  intro rows log
  simp only
  split
  · trivial
  · exact writes

private theorem checkActive_writes (writes : next.Writes DbKey.Keeps kind) :
    (checkActive marketId next).Writes DbKey.Keeps kind := by
  intro rows log
  show (requireStatus next ((rows (.market marketId)).map MarketRow.status)).Writes _ _
  cases (rows (.market marketId)).map MarketRow.status with
  | none => trivial
  | some status =>
    rw [requireStatus]
    split
    · exact writes
    · trivial

private theorem addBalance_writes (amount : Int) (writes : next.Writes DbKey.Keeps kind) :
    (addBalance userId amount next).Writes DbKey.Keeps kind := by
  refine ⟨?_, fun _ => writes⟩
  intro row row' done
  obtain rfl := Table.rowUpdate?_eq_some (orIntegrity_ok done)
  simp [DbKey.Keeps]

private theorem updateMarket_writes {f : MarketRow → MarketRow}
    (status : ∀ r, (f r).status = r.status)
    (writes : next.Writes DbKey.Keeps kind) :
    (updateMarket marketId f next).Writes DbKey.Keeps kind := by
  refine ⟨?_, fun _ => writes⟩
  intro row row' done
  obtain rfl := Table.rowUpdate?_eq_some (orIntegrity_ok done)
  cases row with
  | none => rfl
  | some r => exact congrArg some (status r)

private theorem mintProgram_writes (quantity : Int) (key : String) :
    (mintProgram userId marketId quantity key).Writes DbKey.Keeps
      (AmmRow.FitsKey .ammMint key) := by
  refine checkKey_writes _ _ (checkActive_writes ⟨?_, ?_⟩)
  · intro row row' done
    obtain rfl := Except.ok.inj done
    rfl
  · intro account
    simp only
    split
    · trivial
    · refine addBalance_writes _ (updateMarket_writes (fun _ => rfl) ⟨fun _ _ _ => trivial, ?_⟩)
      intro _
      exact ⟨⟨rfl, rfl⟩, ⟨rfl, rfl⟩, trivial, fun _ _ _ _ => trivial⟩

private theorem burnProgram_writes (quantity : Int) (key : String) :
    (burnProgram userId marketId quantity key).Writes DbKey.Keeps
      (AmmRow.FitsKey .ammBurn key) := by
  refine checkKey_writes _ _ (checkActive_writes ⟨fun _ _ _ => trivial, ?_⟩)
  intro position
  cases position with
  | none => trivial
  | some row =>
    simp only
    split
    · trivial
    · refine ⟨fun _ _ _ => trivial, fun _ => updateMarket_writes (fun _ => rfl)
        (addBalance_writes _ ⟨⟨rfl, rfl⟩, ⟨rfl, rfl⟩, trivial, fun _ _ _ _ => trivial⟩)⟩

theorem AmmCall.program_writes (call : AmmCall) : call.program.Writes DbKey.Keeps
    (AmmRow.FitsKey call.reference call.idempotencyKey) := by
  unfold program
  cases call.reference with
  | ammMint => exact mintProgram_writes _ _
  | ammBurn => exact burnProgram_writes _ _

end Writes

end PredictionMarket
