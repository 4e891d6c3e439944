/- PredictionMarket/Engine/FeeBuffer
   digest: When the cash frozen for an order covers all that is ever drawn for it. -/

import PredictionMarket.Engine.LeftoverFunds

set_option autoImplicit false
set_option relaxedAutoImplicit false

namespace PredictionMarket

open Library

section Signs

variable {draft : OrderDraft} {ts : List TradeResult} {o : Order} {v v' : RestingOrders}

private theorem calcMaxFee_mono {value value' : Int} (le : value ≤ value') :
    calcMaxFee value ≤ calcMaxFee value' := by
  rw [calcMaxFee_eq_calcFee, calcMaxFee_eq_calcFee]
  exact calcFee_mono (by decide) le

private theorem Fills.pays_le (fills : Fills draft.accepted v ts o v')
    (cash : draft.accepted.bookType.paysCash = true) :
    ∀ t ∈ ts, draft.accepted.bookType.pays t.price ≤ draft.accepted.originalPrice := by
  have side : draft.accepted.bookDirection = draft.accepted.bookType.direction := by
    unfold OrderDraft.accepted OrderDraft.toOrder
    cases draft.originalSide <;> cases draft.originalDirection <;> rfl
  have limit : draft.accepted.bookType.pays draft.accepted.bookPrice =
      draft.accepted.originalPrice := draft.accepted_funds.2.2.2 cash
  generalize draft.accepted = a at *
  induction fills with
  | done => simp
  | @fill a a' v v' id r ts here stranger facing crosses wants rest ih =>
    refine List.forall_mem_cons.mpr ⟨?_, ih cash side limit⟩
    rw [tradeOf_price, ← limit]
    rw [side] at facing
    cases type : a.bookType with
    | nativeBuy =>
      rw [type] at facing
      rw [facing] at crosses
      exact crosses
    | syntheticSell =>
      rw [type] at facing
      rw [facing] at crosses
      exact Int.sub_le_sub_left crosses 100
    | nativeSell => rw [type] at cash; cases cash
    | syntheticBuy => rw [type] at cash; cases cash

private theorem Fills.improvement_nonneg (fills : Fills draft.accepted v ts o v')
    (cash : draft.accepted.bookType.paysCash = true) (quantity : ∀ t ∈ ts, 0 < t.quantity) :
    0 ≤ draft.accepted.improvement ts := by
  apply sum_map_nonneg
  intro t member
  have better := fills.pays_le cash t member
  exact mul_nonneg (sub_nonneg.mpr better) (quantity t member).le

private theorem Fills.bufferReleased_nonneg (fills : Fills draft.accepted v ts o v')
    (price : 1 ≤ draft.originalPrice) (quantity : ∀ t ∈ ts, 0 < t.quantity) :
    0 ≤ draft.accepted.bufferReleased o.remainingQuantity := by
  have taken : 0 ≤ (ts.map TradeResult.quantity).sum := by
    apply sum_map_nonneg
    intro t member
    exact (quantity t member).le
  obtain ⟨_, _, _, wants, _, total, _⟩ := draft.accepted_fields
  rw [fills.taken, wants] at taken
  unfold Order.bufferReleased
  apply sub_nonneg.mpr
  apply calcMaxFee_mono
  rw [total]
  exact mul_le_mul_of_nonneg_left (by omega) (le_trans (by decide) price)

private theorem Order.fees_eq_zero {feeBps : Int} (other : o.bookType ≠ .nativeBuy) :
    o.fees feeBps ts = 0 := by
  simp [Order.fees, other]

private theorem Db.totalGain_nonneg {db : Db} (makes : ∀ t ∈ ts, db.Makes False t) (user : UserId) :
    0 ≤ db.totalGain ts user := by
  apply sum_map_nonneg
  intro t member
  unfold Db.makerGain
  split
  · next row got =>
    split
    · unfold OrderRow.bufferUsed
      apply sub_nonneg.mpr
      apply calcMaxFee_mono
      have price := (Table.check got).1.1
      have quantity := (makes t member).quantity
      exact mul_le_mul_of_nonneg_left (by omega) (le_trans (by decide) price)
    · exact le_rfl
  · next gone => exact ((makes t member).row gone).elim

end Signs

section Life

variable {order : Order} {s s' : FillState} {id : OrderId} {r : Resting}

private theorem FillStep.users_ne (step : FillStep order s id r s') : order.userId ≠ r.userId := by
  obtain ⟨_, _, _, _, _, _, _, _, _, check⟩ := step.run.settled
  obtain ⟨_, _, _, _, _, users⟩ := check
  intro equal
  apply users
  unfold tradeOf
  cases r.direction with
  | sell => exact equal
  | buy => exact equal.symm

private theorem FillStep.check (step : FillStep order s id r s') :
    (1 ≤ r.price ∧ r.price ≤ 99) ∧ 0 < s.take r := by
  obtain ⟨_, _, _, _, _, _, _, _, _, check⟩ := step.run.settled
  obtain ⟨_, _, price, quantity, _⟩ := check
  rw [tradeOf_price] at price
  rw [tradeOf_quantity] at quantity
  exact ⟨price, quantity⟩

private theorem fills_takerDraws {ts : List TradeResult} (run : Run (fillSteps order) s ts s')
    (absent : s.book order.id = none) (there : s.db.holdings.HasAccount order.userId)
    (rate : 0 ≤ s.market.takerFeeBps) :
    s'.db.holdings.frozenOf order.userId = s.db.holdings.frozenOf order.userId -
        order.totalCost s.market.takerFeeBps ts ∧
      ∀ t ∈ ts, 0 ≤ order.cost s.market.takerFeeBps t := by
  induction run with
  | nil s => simp [Order.totalCost]
  | @cons s t u a as head tail ih =>
    obtain ⟨id, r, step, rfl⟩ := head
    have other : id ≠ order.id := by
      rintro rfl
      exact absurd (step.here.symm.trans absent) (by simp)
    obtain ⟨draws, same, _⟩ := step.draws other
    obtain ⟨price, quantity⟩ := step.check
    have still : t.book order.id = none := by
      rw [step.book]
      simp [RestingOrders.fill, other.symm, absent]
    obtain ⟨rest, nonneg⟩ := ih still ((draws.accounts _).mpr there) (by rw [same]; exact rate)
    rw [same] at rest nonneg
    refine ⟨?_, List.forall_mem_cons.mpr ⟨?_, nonneg⟩⟩
    · rw [rest, draws.frozen _ there, if_pos rfl, if_neg step.users_ne]
      simp only [Order.totalCost, List.map_cons, List.sum_cons]
      omega
    · unfold Order.cost
      rw [tradeOf_price, tradeOf_quantity]
      have value := mul_nonneg (order.bookType.pays_nonneg price.1 price.2) quantity.le
      have charged := calcFee_nonneg rate (mul_nonneg (le_trans (by decide) price.1) quantity.le)
      split <;> omega

private theorem fills_quantity {ts : List TradeResult} (run : Run (fillSteps order) s ts s') :
    ∀ t ∈ ts, 0 < t.quantity := by
  induction run with
  | nil s => simp
  | cons head _ ih =>
    obtain ⟨id, r, step, rfl⟩ := head
    refine List.forall_mem_cons.mpr ⟨?_, ih⟩
    rw [tradeOf_quantity]
    exact step.check.2

private theorem OrderRow.Funded.amount_filled {row : OrderRow} (funded : row.Funded)
    (ok : row.Check)
    (cash : row.bookType.paysCash = true) {qty : Int} (enough : qty ≤ row.remainingQuantity) :
    (row.filled qty).frozenAmount =
      freezeAmount (row.originalPrice * (row.remainingQuantity - qty)) := by
  have remaining := ok.quantity_sub_filled
  have funds : row.frozenAssetType = .funds := by
    rw [funded.asset]
    exact BookType.frozenAsset_eq_funds.mpr cash
  have price := funded.syncPrice cash
  unfold OrderRow.filled Order.filledBy
  simp only [rowToOrder, remaining]
  split
  · next used =>
    have none : row.remainingQuantity - qty = 0 := by omega
    simp only [OrderRow.progress, Order.syncFrozenAmount, funds, if_true, price, none]
  · simp only [OrderRow.progress, Order.syncFrozenAmount, funds, if_true, price]

/-- The later fills of a resting order, with other requests anywhere in between:
`left` is what was frozen for the order less all that its fills have drawn. -/
inductive MakerFills (id : OrderId) : Int → OrderRow → Int → OrderRow → Prop
  | done (left : Int) (row : OrderRow) : MakerFills id left row left row
  | fill {taker : Order} {s s' : FillState} {r : Resting} {left left' : Int} {row row' : OrderRow}
      (step : FillStep taker s id r s') (other : id ≠ taker.id)
      (there : s.db.holdings.HasAccount row.userId)
      (stored : s.db.orders.get? id = some row) (active : row.isActive = true)
      (enough : r.quantity ≤ row.remainingQuantity)
      (view : row.resting = { r with quantity := row.remainingQuantity })
      (rest : MakerFills id (left - (s.db.holdings.frozenOf row.userId -
        s'.db.holdings.frozenOf row.userId)) (row.filled (s.take r)) left' row') :
      MakerFills id left row left' row'

private theorem MakerFills.covers {left left' : Int} {row row' : OrderRow}
    (fills : MakerFills id left row left' row') (funded : row.Funded)
    (cash : row.bookType.paysCash = true) (covered : row.frozenAmount ≤ left) :
    row'.frozenAmount ≤ left' := by
  induction fills with
  | done left row => exact covered
  | @fill taker s s' r left left' row row' step other there stored active enough view rest ih =>
    have ok := Table.check stored
    have takes : s.take r ≤ row.remainingQuantity := le_trans (s.take_le r) enough
    apply ih (funded.filled _) cash
    have user : row.userId = r.userId := congrArg Resting.userId view
    have type : row.bookType = r.bookType := congrArg Resting.bookType view
    have price : row.bookPrice = r.price := congrArg Resting.price view
    have before := funded.amount active
    have stranger : row.userId ≠ taker.userId := by
      rw [user]
      exact step.users_ne.symm
    have drawn : (tradeOf taker id r (s.take r)).makerCost = row.originalPrice * s.take r := by
      unfold TradeResult.makerCost
      rw [(tradeOf_maker r _ other).2, tradeOf_price, tradeOf_quantity, ← type, ← price,
        funded.price cash]
    rw [funded.amount_filled ok cash takes, (step.draws other).1.frozen _ there, if_neg stranger,
      if_pos user, drawn]
    have smaller : calcMaxFee (row.originalPrice * (row.remainingQuantity - s.take r)) ≤
        calcMaxFee (row.originalPrice * row.remainingQuantity) := by
      apply calcMaxFee_mono
      have quantity := step.check.2
      exact mul_le_mul_of_nonneg_left (by omega) (le_trans (by decide) ok.1.1)
    rw [before, BookType.frozenFor, if_pos cash] at covered
    unfold freezeAmount at covered ⊢
    have split := mul_sub row.originalPrice row.remainingQuantity (s.take r)
    omega

end Life

/-- The fees of the fills stay within the price improvement and the buffer that
is not frozen again. Only a buyer of YES shares is charged on frozen funds. -/
def Order.FeesCovered (o : Order) (feeBps : Int) (matched : Matched) : Prop :=
  o.bookType = .nativeBuy → o.fees feeBps matched.trades ≤
    o.improvement matched.trades + o.bufferReleased matched.incoming.remainingQuantity

/-- After every fill of its life, what was frozen for an order, less all that its
fills have drawn, covers what is stored as frozen. `db` are the tables right
after the freeze, `db'` the ones after all fills as taker. -/
structure CoversFills (order : Order) (matched : Matched) (market : MarketState) (db db' : Db) :
    Prop where
  asTaker : ∀ ts us, matched.trades = ts ++ us → ts ≠ [] → ∀ o n market₁ db₁,
    clearFills matched.incoming ts 0 market db = .ok (o, n, market₁, db₁) →
    ∀ row, db₁.orders.get? order.id = some row → row.frozenAmount ≤ order.frozenAmount -
      (db.holdings.frozenOf order.userId - db₁.holdings.frozenOf order.userId)
  asMaker : ∀ row, db'.orders.get? order.id = some row → ∀ left row',
    MakerFills order.id (order.frozenAmount -
      (db.holdings.frozenOf order.userId - db'.holdings.frozenOf order.userId)) row left row' →
    row'.frozenAmount ≤ left

section Taker

variable {draft : OrderDraft} {v v' : RestingOrders} {ts us : List TradeResult} {o : Order}

private theorem Fills.split {p q : Order} {u w : RestingOrders} (fills : Fills p u (ts ++ us) q w) :
    ∃ m x, Fills p u ts m x ∧ Fills m x us q w := by
  induction ts generalizing p u with
  | nil => exact ⟨p, u, .done _ _, fills⟩
  | cons t ts ih =>
    cases fills with
    | fill here stranger facing crosses wants rest =>
      obtain ⟨m, x, first, second⟩ := ih rest
      exact ⟨m, x, .fill here stranger facing crosses wants first, second⟩

private theorem Fills.synced_amount (fills : Fills draft.accepted v ts o v')
    (cash : draft.accepted.bookType.paysCash = true) :
    o.synced.frozenAmount = freezeAmount (draft.originalPrice * o.remainingQuantity) := by
  have price := draft.insertedRow_funded.syncPrice cash
  have funds : draft.accepted.frozenAssetType = .funds :=
    BookType.frozenAsset_eq_funds.mpr cash
  rw [fills.incoming]
  simp only [Order.synced, Order.syncFrozenAmount, funds, if_true]
  exact congrArg (fun p => freezeAmount (p * o.remainingQuantity)) price

private theorem clearFills_taker {market market' : MarketState} {db db₁ db' : Db} {o' : Order}
    {n : Int}
    (fills : Fills draft.accepted v (ts ++ us) o v') (absent : v draft.id = none)
    (cash : draft.accepted.bookType.paysCash = true)
    (accepted : Accepted draft db draft.accepted market db₁)
    (cleared : clearFills o ts 0 market db₁ = .ok (o', n, market', db')) :
    draft.accepted.frozenAmount -
        (db₁.holdings.frozenOf draft.userId - db'.holdings.frozenOf draft.userId) =
      freezeAmount (draft.originalPrice * draft.quantity) -
        draft.accepted.totalCost market.takerFeeBps ts ∧
      (∀ t ∈ ts, 0 ≤ draft.accepted.cost market.takerFeeBps t) ∧
      db'.orders.get? draft.id = some (if ts = [] then
        Db.insertedRow draft.accepted draft.insertedAt
        else (Db.insertedRow draft.accepted draft.insertedAt).progress o.synced) := by
  obtain ⟨m, x, first, _⟩ := fills.split
  have same := fills.sameOrder
  have oid : o.id = draft.id := same.id.symm.trans draft.accepted_fields.1
  have user : o.userId = draft.userId := same.userId.symm.trans draft.accepted_fields.2.2.1
  have steps := clearFills_run first same cleared
  have there : db₁.holdings.HasAccount draft.userId := by
    have frozen := accepted.frozen
    unfold Frozen at frozen
    rw [if_pos cash] at frozen
    obtain ⟨a, got, _, moved⟩ := frozen
    rw [draft.accepted_fields.2.2.1] at got
    exact (Holdings.hasAccount_updateAccount moved _).mpr (by simp [Holdings.HasAccount, got])
  have rate : 0 ≤ market.takerFeeBps := by
    obtain ⟨row, got, _, rfl⟩ := accepted.active
    exact (Table.check got).2.2.2.2.2.1
  have start : v o.id = none := by
    rw [oid]
    exact absent
  have costs : o.cost market.takerFeeBps = draft.accepted.cost market.takerFeeBps := by
    unfold Order.cost
    rw [same.bookType]
  obtain ⟨drawn, nonneg⟩ := fills_takerDraws steps start (by rw [user]; exact there) rate
  have inserted : db₁.orders.get? o.id =
      some (Db.insertedRow draft.accepted draft.insertedAt) := by
    rw [accepted.get?_orders.2, oid, if_pos rfl]
  have stored := fills_takerRow steps start inserted
  rw [oid] at stored
  rw [user] at drawn
  refine ⟨?_, by rw [← costs]; exact nonneg, stored⟩
  rw [drawn, draft.accepted_funds.2.1, BookType.frozenFor, if_pos cash]
  unfold Order.totalCost
  rw [costs]
  simp only
  omega

/-- An order covers its fills exactly when the frozen cash leaves a residue. -/
private theorem coversFills_iff {market market' : MarketState} {db db₁ db' : Db} {o' : Order}
    {n : Int}
    {matched : Matched}
    (fills : Fills draft.accepted v matched.trades matched.incoming v')
    (absent : v draft.id = none) (cash : draft.accepted.bookType.paysCash = true)
    (accepted : Accepted draft db draft.accepted market db₁)
    (cleared : clearFills matched.incoming matched.trades 0 market db₁ =
      .ok (o', n, market', db')) :
    CoversFills draft.accepted matched market db₁ db' ↔
      0 ≤ draft.residue market.takerFeeBps matched := by
  have whole : Fills draft.accepted v (matched.trades ++ []) matched.incoming v' := by
    rwa [List.append_nil]
  obtain ⟨left, nonneg, stored⟩ := clearFills_taker whole absent cash accepted cleared
  have amount := fills.synced_amount cash
  have fields := draft.accepted_fields
  constructor
  · intro covers
    unfold OrderDraft.residue
    by_cases idle : matched.trades = []
    · have wants := (fills.progress.2.2.1 idle).1
      rw [idle, wants, fields.2.2.2.1]
      simp [Order.totalCost]
    · rw [if_neg idle] at stored
      have enough := covers.asTaker matched.trades [] (by simp) idle _ _ _ _ cleared _
        (by rw [fields.1]; exact stored)
      rw [fields.2.2.1, left] at enough
      have kept : matched.incoming.synced.frozenAmount ≤ _ := enough
      rw [amount] at kept
      omega
  · intro residue
    unfold OrderDraft.residue at residue
    constructor
    · intro ts us split some o n' market₁ db₁' prefixCleared row got
      rw [split] at fills
      obtain ⟨left', _, stored'⟩ := clearFills_taker fills absent cash accepted prefixCleared
      rw [fields.1, stored', if_neg some] at got
      obtain rfl := Option.some.inj got
      rw [fields.2.2.1, left']
      have kept : matched.incoming.synced.frozenAmount ≤ freezeAmount
          (draft.originalPrice * draft.quantity) -
            draft.accepted.totalCost market.takerFeeBps ts := by
        have later : 0 ≤ draft.accepted.totalCost market.takerFeeBps us := by
          apply sum_map_nonneg
          intro t member
          exact nonneg t (by rw [split]; exact List.mem_append_right _ member)
        have total : draft.accepted.totalCost market.takerFeeBps matched.trades =
            draft.accepted.totalCost market.takerFeeBps ts +
              draft.accepted.totalCost market.takerFeeBps us := by
          rw [split]
          simp [Order.totalCost]
        rw [amount]
        omega
      exact kept
    · intro row got left' row' life
      have taker := fills.takerRow accepted.quantity.1
      rw [fields.1, stored] at got
      rw [Option.some.inj got] at taker
      refine life.covers taker.funded (by rw [taker.bookType]; exact cash) ?_
      rw [fields.2.2.1, left, ← Option.some.inj got]
      by_cases idle : matched.trades = []
      · have wants := (fills.progress.2.2.1 idle).1
        rw [if_pos idle, idle]
        have start : (Db.insertedRow draft.accepted draft.insertedAt).frozenAmount =
            freezeAmount (draft.originalPrice * draft.quantity) := by
          have frozen := draft.accepted_funds.2.1
          rw [BookType.frozenFor, if_pos cash] at frozen
          exact frozen
        rw [start]
        simp [Order.totalCost]
      · rw [if_neg idle]
        have kept : matched.incoming.synced.frozenAmount ≤ freezeAmount
            (draft.originalPrice * draft.quantity) -
              draft.accepted.totalCost market.takerFeeBps matched.trades := by
          rw [amount]
          omega
        exact kept

end Taker

/-- Every placement that goes through covers its fees, and none fails in its
commit. -/
def FeesCovered (w : World) : FundsOp → Prop
  | .cancel .. | .resolve .. => True
  | .place req userId clock fault =>
    fault ≠ .commit ∧ (w.Places req userId clock fault →
      ∀ market, w.db.markets.get? req.marketId = some market →
        let order := (req.draft w.nextId userId clock).accepted
        order.FeesCovered market.takerFeeBps
          (matchOrder order (w.getOrCreateOrderbook req.marketId)))

/-- The frozen balance of every user covers what the user's active orders have
frozen, so that cancelling or resolving any of them releases no more than there
is. -/
def Db.Releasable (db : Db) : Prop :=
  ∀ user, db.holdings.HasAccount user → db.locked user ≤ db.holdings.frozenOf user

private theorem OrderDraft.residue_nonneg {draft : OrderDraft} {feeBps : Int} {matched : Matched}
    {v v' : RestingOrders} (fills : Fills draft.accepted v matched.trades matched.incoming v')
    (cash : draft.accepted.bookType.paysCash = true) (price : 1 ≤ draft.originalPrice)
    (quantity : ∀ t ∈ matched.trades, 0 < t.quantity) :
    0 ≤ draft.residue feeBps matched ↔ draft.accepted.FeesCovered feeBps matched := by
  rw [OrderDraft.residue_eq fills]
  unfold Order.FeesCovered
  have improvement := fills.improvement_nonneg cash quantity
  have buffer := fills.bufferReleased_nonneg price quantity
  by_cases native : draft.accepted.bookType = .nativeBuy
  · constructor
    · intro residue _
      omega
    · intro covered
      have enough := covered native
      omega
  · rw [Order.fees_eq_zero native]
    constructor
    · intro _ type
      exact absurd type native
    · intro _
      omega

private theorem Db.Releasable.of_fills {draft : OrderDraft} {feeBps : Int} {matched : Matched}
    {db db' : Db}
    {v v' : RestingOrders} (enough : db.Releasable)
    (fills : Fills draft.accepted v matched.trades matched.incoming v')
    (price : 1 ≤ draft.originalPrice) (covered : draft.accepted.FeesCovered feeBps matched)
    (makes : ∀ t ∈ matched.trades, db.Makes False t)
    (accounts : ∀ user, db'.holdings.HasAccount user ↔ db.holdings.HasAccount user)
    (spare : ∀ user, db.holdings.HasAccount user → db'.spare user = db.spare user +
      (if user = draft.userId ∧ draft.accepted.bookType.paysCash = true then
        draft.residue feeBps matched else 0) + db.totalGain matched.trades user) :
    db'.Releasable := by
  intro user there
  have before := (accounts user).mp there
  have gain := Db.totalGain_nonneg makes user
  have locked := enough user before
  have moved := spare user before
  unfold Db.spare at moved
  split at moved
  · next mine =>
    have residue := (OrderDraft.residue_nonneg fills mine.2 price
      (fun t member => (makes t member).quantity)).mpr covered
    omega
  · omega

theorem fundsStep_releasable {w w' : World} {op : FundsOp} (step : fundsStep w op w')
    (covered : FeesCovered w op) (acc : w.Accounted False) (enough : w.db.Releasable) :
    w'.Accounted False ∧ w'.db.Releasable := by
  have kept : w.db.SameSpare w'.db → w'.db.Releasable := by
    intro same user there
    have before := (same.accounts user).mp there
    have spare := same.spare user before
    have locked := enough user before
    unfold Db.spare at spare
    omega
  cases op with
  | cancel orderId userId fault =>
    obtain ⟨acc', same⟩ := OrderService.cancelOrder_accounted step acc
    exact ⟨acc', kept same⟩
  | resolve marketId outcome fault =>
    obtain ⟨acc', same⟩ := AdminService.resolveMarket_accounted step acc
    exact ⟨acc', kept same⟩
  | place req userId clock fault =>
    obtain ⟨acc', same | ⟨places, ob, v, shows, absent, backs, run⟩⟩ :=
      OrderService.placeOrder_accounted step acc (fun fails => absurd fails covered.1)
    · refine ⟨acc', ?_⟩
      rw [same]
      exact enough
    · obtain ⟨_, accounts, makes, market, got, spare⟩ := run.spare shows absent backs acc.funded
      obtain ⟨_, _, _, _, _, _, _, _, accepted, _⟩ := run.phases
      obtain ⟨v', fills, _⟩ := matchOrder_spec _ _ v shows.represents shows.exact
      exact ⟨acc', enough.of_fills fills accepted.price.1 (covered.2 places market got) makes
        accounts spare⟩

/-- Every release finds the cash it asks for: a cancel or a resolution in the
stored state, and the release of an IOC remainder after covered fills. -/
def World.ReleasesCovered (w : World) : Prop :=
  w.db.Releasable ∧ ∀ (req : PlaceOrderRequest) (userId : UserId) (clock : Clock) (order : Order)
      (market : MarketState) (db₁ : Db) (order' : Order) (n : Int) (market' : MarketState)
      (db₂ : Db),
    acceptOrder (req.draft w.nextId userId clock) w.db = .ok (order, market, db₁) →
    let matched := matchOrder order (w.getOrCreateOrderbook req.marketId)
    order.FeesCovered market.takerFeeBps matched →
    clearFills matched.incoming matched.trades 0 market db₁ = .ok (order', n, market', db₂) →
    db₂.Releasable

private theorem World.Accounted.releasesCovered {w : World} (acc : w.Accounted False)
    (enough : w.db.Releasable) : w.ReleasesCovered := by
  refine ⟨enough, ?_⟩
  intro req userId clock order market db₁ order' n market' db₂ accept matched covered cleared
  have accepted := acceptOrder_ok accept
  obtain rfl := accepted.order_eq
  obtain ⟨row, got, active, _⟩ := accepted.active
  obtain ⟨v, shows, backs, known⟩ := acc.books req.marketId ⟨row, got, active⟩
  have absent : v w.nextId = none := by
    cases here : v w.nextId with
    | none => rfl
    | some x => exact absurd (known _ _ here) (Nat.lt_irrefl _)
  obtain ⟨v', row', fills, after⟩ :=
    clearFills_cleared accepted cleared shows absent backs acc.funded
  exact enough.of_fills fills accepted.price.1 covered after.makes after.accounts after.spare

/-- What is frozen for an order covers its fills, as taker and later as maker,
exactly when the fees of its fills as taker stay within the price improvement
and the released buffer. Where all placements do so, releases never fail. -/
theorem frozen_covers_fills_iff {draft : OrderDraft} {ob : OrderBook} {v : RestingOrders}
    {db db₁ db₂ : Db} {order order' : Order} {market market' : MarketState} {n : Int}
    (shows : ob.Shows v) (absent : v draft.id = none)
    (accepted : acceptOrder draft db = .ok (order, market, db₁))
    (cash : order.bookType.paysCash = true)
    (cleared : clearFills (matchOrder order ob).incoming (matchOrder order ob).trades 0 market db₁ =
      .ok (order', n, market', db₂)) :
    (CoversFills order (matchOrder order ob) market db₁ db₂ ↔
        order.FeesCovered market.takerFeeBps (matchOrder order ob)) ∧
      ∀ w w' ops, World.Fresh w → Run (Guarded FeesCovered fundsStep) w ops w' →
        w'.ReleasesCovered := by
  have run := acceptOrder_ok accepted
  obtain rfl := run.order_eq
  obtain ⟨v', fills, _⟩ := matchOrder_spec draft.accepted ob v shows.represents shows.exact
  constructor
  · rw [coversFills_iff fills absent cash run cleared]
    refine OrderDraft.residue_nonneg fills cash run.price.1 (fun t member => ?_)
    have steps := clearFills_run fills fills.sameOrder cleared
    exact fills_quantity steps t member
  · intro w w' ops start steps
    have kept : w'.Accounted False ∧ w'.db.Releasable := steps.preserves
      (P := fun w => w.Accounted False ∧ w.db.Releasable)
      (fun _ _ _ step before => fundsStep_releasable step.2 step.1 before.1 before.2)
      ⟨start.accounted False, fun user _ => by
        have spare := start.spare user
        unfold Db.spare at spare
        omega⟩
    exact kept.1.releasesCovered kept.2

section Example

private def twoMarkets : World :=
  { twoTraders with
    db :=
      { twoTraders.db with
        markets := twoTraders.db.markets.add "n" ⟨.active, 0, 0, 0, 0, 10, none⟩ (by decide)
          (by decide) } }

private def placeAll (l : List (PlaceOrderRequest × UserId)) (w : World) : World :=
  l.foldl (fun w p => (OrderService.placeOrder p.1 p.2 ⟨0, 0⟩ .none w).2) w

private theorem accounted_placeAll {l : List (PlaceOrderRequest × UserId)} {w : World}
    (acc : w.Accounted False) : (placeAll l w).Accounted False := by
  induction l generalizing w with
  | nil => exact acc
  | cons p l ih =>
    have step : fundsStep w (.place p.1 p.2 ⟨0, 0⟩ .none)
      (OrderService.placeOrder p.1 p.2 ⟨0, 0⟩ .none w).2 := rfl
    exact ih (OrderService.placeOrder_accounted step acc (fun fails => by cases fails)).1

private def oneNoShare (clientOrderId : String) : PlaceOrderRequest :=
  ⟨clientOrderId, "m", .no, .buy, 99, 1, .gtc⟩

/-- Bob bids for three NO shares one by one, and alice has a bid in the other
market. -/
private def threeAsks : World :=
  placeAll [(oneNoShare "b1", "bob"), (oneNoShare "b2", "bob"), (oneNoShare "b3", "bob"),
    ({ buyTenYes with marketId := "n" }, "alice")] twoMarkets

private theorem threeAsks_shows : ∃ v, (threeAsks.getOrCreateOrderbook "m").Shows v ∧
    v threeAsks.nextId = none := by
  have fresh : twoMarkets.Fresh := by
    refine ⟨Holdings.frozenOf_eq_zero ?_, rfl, fun _ => rfl⟩
    decide
  have acc : threeAsks.Accounted False := accounted_placeAll (fresh.accounted False)
  have active : threeAsks.Active "m" := by
    have status : (threeAsks.db.markets.get? "m").map MarketRow.status = some .active := by
      decide +kernel
    exact Option.map_eq_some_iff.mp status
  obtain ⟨v, shows, _, known⟩ := acc.books "m" active
  refine ⟨v, shows, ?_⟩
  cases here : v threeAsks.nextId with
  | none => rfl
  | some x => exact absurd (known _ _ here) (Nat.lt_irrefl _)

private def fillBalance (draft : OrderDraft) (ob : OrderBook) (db : Db) :
    Option (Int × Int × Int) :=
  match acceptOrder draft db with
  | .error _ => none
  | .ok (order, market, db₁) =>
    let matched := matchOrder order ob
    match clearFills matched.incoming matched.trades 0 market db₁ with
    | .error _ => none
    | .ok (_, _, _, db₂) => (db₂.orders.get? order.id).map (fun row =>
      (row.frozenAmount, order.frozenAmount,
        db₁.holdings.frozenOf order.userId - db₂.holdings.frozenOf order.userId))

private theorem fillBalance_eq_some {draft : OrderDraft} {ob : OrderBook} {db : Db}
    {balance : Int × Int × Int} (computed : fillBalance draft ob db = some balance) :
    ∃ order market db₁ order' n market' db₂ row,
      acceptOrder draft db = .ok (order, market, db₁) ∧
      clearFills (matchOrder order ob).incoming (matchOrder order ob).trades 0 market db₁ =
        .ok (order', n, market', db₂) ∧
      db₂.orders.get? order.id = some row ∧ balance = (row.frozenAmount, order.frozenAmount,
        db₁.holdings.frozenOf order.userId - db₂.holdings.frozenOf order.userId) := by
  unfold fillBalance at computed
  split at computed
  · cases computed
  · next order market db₁ accepted =>
    simp only at computed
    split at computed
    · cases computed
    · next order' n market' db₂ cleared =>
      obtain ⟨row, got, rfl⟩ := Option.map_eq_some_iff.mp computed
      exact ⟨order, market, db₁, order', n, market', db₂, row, accepted, cleared, got, rfl⟩

end Example

theorem generous_bid_covered :
    ∃ order market db₁ db₂, order.bookType.paysCash = true ∧ CoversFills order
      (matchOrder order (threeAsks.getOrCreateOrderbook "m")) market db₁ db₂ := by
  obtain ⟨v, shows, absent⟩ := threeAsks_shows
  let draft := ({ buyTenYes with clientOrderId := "c2" }).draft threeAsks.nextId "alice" ⟨0, 0⟩
  have computed : fillBalance draft (threeAsks.getOrCreateOrderbook "m") threeAsks.db =
      some (281, 401, 6) := by decide +kernel
  obtain ⟨order, market, db₁, order', n, market', db₂, _, accepted, cleared, _⟩ :=
    fillBalance_eq_some computed
  have run := acceptOrder_ok accepted
  obtain rfl := run.order_eq
  have rate : market.takerFeeBps = 20 := by
    obtain ⟨row, got, _, rfl⟩ := run.active
    have stored : (threeAsks.db.markets.get? "m").map MarketRow.takerFeeBps = some 20 := by
      decide +kernel
    rw [show draft.marketId = "m" from rfl] at got
    rw [got] at stored
    exact Option.some.inj stored
  have covered : draft.accepted.FeesCovered market.takerFeeBps
      (matchOrder draft.accepted (threeAsks.getOrCreateOrderbook "m")) := by
    rw [rate]
    unfold Order.FeesCovered
    decide +kernel
  exact ⟨draft.accepted, market, db₁, db₂, rfl,
    (frozen_covers_fills_iff shows absent accepted rfl cleared).1.mpr covered⟩

/-- Three shares bought one by one at one cent: four cents are frozen, and three
fees of a cent each make the fills draw six. -/
theorem rounded_fees_overdraw :
    ¬ ∀ draft ob v db order market db₁ order' n market' db₂,
      OrderBook.Shows ob v → v (OrderDraft.id draft) = none →
      acceptOrder draft db = .ok (order, market, db₁) → order.bookType.paysCash = true →
      clearFills (matchOrder order ob).incoming (matchOrder order ob).trades 0 market db₁ =
        .ok (order', n, market', db₂) →
      CoversFills order (matchOrder order ob) market db₁ db₂ := by
  intro claim
  obtain ⟨v, shows, absent⟩ := threeAsks_shows
  let draft := PlaceOrderRequest.draft ⟨"c2", "m", .yes, .buy, 1, 3, .gtc⟩ threeAsks.nextId "alice"
    ⟨0, 0⟩
  have computed : fillBalance draft (threeAsks.getOrCreateOrderbook "m") threeAsks.db =
      some (0, 4, 6) := by decide +kernel
  obtain ⟨order, market, db₁, order', n, market', db₂, row, accepted, cleared, got, balance⟩ :=
    fillBalance_eq_some computed
  have run := acceptOrder_ok accepted
  obtain rfl := run.order_eq
  have covers := claim draft _ v _ _ market db₁ order' n market' db₂ shows absent accepted rfl
    cleared
  have some : (matchOrder draft.accepted (threeAsks.getOrCreateOrderbook "m")).trades ≠ [] := by
    decide +kernel
  have enough := covers.asTaker _ [] (List.append_nil _).symm some _ _ _ _ cleared row got
  simp only [Prod.mk.injEq] at balance
  obtain ⟨stored, frozen, drawn⟩ := balance
  rw [← stored, ← frozen, ← drawn] at enough
  exact absurd enough (by decide)

end PredictionMarket
