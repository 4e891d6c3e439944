/- PredictionMarket/Engine/NettingCoverage
   digest: Which placements leave somebody with a pair of shares that could be netted. -/

import PredictionMarket.Clearing.Frames
import PredictionMarket.Engine.PendingOrders
import PredictionMarket.Engine.TakerFee

set_option autoImplicit false
set_option relaxedAutoImplicit false

namespace PredictionMarket

open Library

def Holding.free (c : Holding) : Int := c.volume - c.pendingSell

private theorem Holding.free_tracks : Tracks Holding.free 1 0 1 := by
  constructor
  · rfl
  · intro c qty cost
    simp only [Holding.free, Holding.bought]
    omega
  · intro c qty released
    simp only [Holding.free, Holding.sold]
    omega
  · intro c qty released
    simp only [Holding.free]
    omega

namespace Holdings

variable {h h' : Holdings} {user : UserId} {m : MarketId}

def freeOf (h : Holdings) (k : ShareKey) : Int := h.columnOf Holding.free k

def pairsOf (h : Holdings) (user : UserId) (m : MarketId) : Int :=
  min (h.freeOf ⟨user, m, .yes⟩) (h.freeOf ⟨user, m, .no⟩)

def NetsAutomatically (h : Holdings) (user : UserId) : Prop :=
  user ≠ AMM_USER_ID ∧ ∃ a, h.accounts.get? user = some a ∧ a.autoNettingEnabled = true

def NettedOut (h : Holdings) (m : MarketId) : Prop :=
  ∀ user row, h.NetsAutomatically user → h.positions.get? (user, m) = some row → row.nettable ≤ 0

private theorem pairsOf_some {row : PositionRow} (got : h.positions.get? (user, m) = some row) :
    h.pairsOf user m = row.nettable := by
  simp only [pairsOf, freeOf, columnOf, got, Option.elim_some]
  rfl

private theorem nettedOut_iff :
    h.NettedOut m ↔ ∀ user, h.NetsAutomatically user → h.pairsOf user m ≤ 0 := by
  constructor
  · intro clear user on
    cases got : h.positions.get? (user, m) with
    | none => simp [pairsOf, freeOf, columnOf, got]
    | some row =>
      rw [pairsOf_some got]
      exact clear user row on got
  · intro clear user row on got
    rw [← pairsOf_some got]
    exact clear user on

private theorem freeOf_nonneg (h : Holdings) (k : ShareKey) : 0 ≤ h.freeOf k := by
  unfold freeOf columnOf
  cases got : h.positions.get? (k.userId, k.marketId) with
  | none => exact le_rfl
  | some row =>
    obtain ⟨_, _, _, covered⟩ := PositionRow.Check.holding (Table.check got) k.side
    exact sub_nonneg.mpr covered

private theorem SameSwitches.netsAutomatically (same : h.SameSwitches h') :
    h'.NetsAutomatically user ↔ h.NetsAutomatically user := by
  have switch := same user
  unfold NetsAutomatically
  refine and_congr_right (fun _ => ?_)
  have read : ∀ g : Holdings, (∃ a, g.accounts.get? user = some a ∧ a.autoNettingEnabled = true) ↔
      (g.accounts.get? user).map AccountRow.autoNettingEnabled = some true := by
    intro g
    rw [Option.map_eq_some_iff]
  rw [read, read, switch]

private theorem pairsOf_of_idle (on : h.NetsAutomatically user) (idle : h.netting? user m = none) :
    h.pairsOf user m ≤ 0 := by
  obtain ⟨notAmm, a, got, switch⟩ := on
  unfold netting? at idle
  rw [if_neg (by simp [got, switch, notAmm])] at idle
  cases found : h.positions.get? (user, m) with
  | none => simp [pairsOf, freeOf, columnOf, found]
  | some row =>
    rw [pairsOf_some found]
    simpa [found, Option.filter] using idle

end Holdings

private theorem BookType.bought_nonneg {b : BookType} {user : UserId} {m : MarketId} {qty : Int}
    (nonneg : 0 ≤ qty) (k : ShareKey) : 0 ≤ b.bought user m qty k := by
  unfold BookType.bought
  split
  · exact nonneg
  · exact le_rfl

namespace TradeResult

variable {t : TradeResult} {k : ShareKey}

private theorem bought_nonneg (nonneg : 0 ≤ t.quantity) : 0 ≤ t.bought k :=
  add_nonneg (BookType.bought_nonneg nonneg k) (BookType.bought_nonneg nonneg k)

private theorem bought_of_stranger (buyer : t.buyUserId ≠ k.userId)
    (seller : t.sellUserId ≠ k.userId) :
    t.bought k = 0 := by
  unfold bought BookType.bought
  rw [if_neg (fun all => buyer all.1.symm), if_neg (fun all => seller all.1.symm), add_zero]

private theorem bought_of_seller (sells : t.sellBookType.direction = .sell)
    (buyer : t.buyUserId ≠ k.userId) : t.bought k =
      if k.userId = t.sellUserId ∧ k.marketId = t.marketId ∧ t.sellBookType = .syntheticSell ∧
        k.side = .no then t.quantity else 0 := by
  unfold bought BookType.bought
  rw [if_neg (fun all => buyer all.1.symm), zero_add]
  congr 1
  cases type : t.sellBookType with
  | nativeBuy | syntheticBuy =>
    rw [type] at sells
    cases sells
  | nativeSell => cases k.side <;> simp [OriginalSide.buyType]
  | syntheticSell => cases k.side <;> simp [OriginalSide.buyType]

end TradeResult

/-- What one cleared fill does to the free shares in its market. -/
structure PairsStep (m : MarketId) (t : TradeResult) (h h' : Holdings) : Prop where
  switches : h.SameSwitches h'
  users : t.buyUserId ≠ t.sellUserId
  sells : t.sellBookType.direction = .sell
  quantity : 0 < t.quantity
  others : ∀ k, k.userId ≠ t.buyUserId → h'.freeOf k = h.freeOf k + t.bought k
  buyer : h.NetsAutomatically t.buyUserId → h'.pairsOf t.buyUserId m ≤ 0
  quiet : ∀ user, (∀ side, t.bought ⟨user, m, side⟩ = 0) → h.pairsOf user m ≤ 0 →
    ∀ side, h'.freeOf ⟨user, m, side⟩ = h.freeOf ⟨user, m, side⟩

private theorem clearFill_pairs {order : Order} {t : TradeResult} {market market' : MarketState}
    {db db' : Db} {nq : Int} (done : clearFill order t market db = .ok (nq, market', db'))
    (here : t.marketId = order.marketId) :
    PairsStep order.marketId t db.holdings db'.holdings := by
  obtain ⟨pnl, market₁, h₁, fee, h₂, n, settled, charged, netted, buys, sells, price, quantity,
    _, users⟩ := (clearFill_ok done).settled
  have switches : db.holdings.SameSwitches db'.holdings :=
    (clearFill_ok done).respected here (Holdings.sameSwitches_respected order.marketId) trivial
      trivial trivial trivial trivial
  have settles : ∀ k, h₂.freeOf k = db.holdings.freeOf k + t.bought k := by
    intro k
    have moved := ((settleTrade_shifts Holding.free_tracks settled buys sells).thenSame
      (.of_positions (collectFee_positions charged))) k
    rw [one_mul, zero_mul, sub_zero] at moved
    exact moved
  have nets := executeNetting_shifts Holding.free_tracks netted
  have on : db.holdings.NetsAutomatically t.buyUserId → h₂.NetsAutomatically t.buyUserId := by
    have respected := Holdings.sameSwitches_respected order.marketId
    exact (Holdings.SameSwitches.netsAutomatically (respected.trans
      (respected.settleTrade trivial trivial here price quantity settled)
      (respected.collectFee trivial trivial trivial trivial charged))).mpr
  rcases executeNettingIfNeeded_ok netted with ⟨idle, _, _, same⟩ |
    ⟨row, h₃, yesCostRel, noCostRel, _, got, rfl, positive, _⟩
  · refine ⟨switches, users, sells, quantity, fun k _ => by rw [same, settles],
      fun nets => by rw [same]; exact Holdings.pairsOf_of_idle (on nets) idle,
      fun user gains _ side => by rw [same, settles, gains, add_zero]⟩
  · have after : ∀ k, db'.holdings.freeOf k = h₂.freeOf k +
        if k.userId = t.buyUserId ∧ k.marketId = order.marketId then -(1 * row.nettable) else 0 :=
      nets
    have pairs : h₂.pairsOf t.buyUserId order.marketId = row.nettable := Holdings.pairsOf_some got
    refine ⟨switches, users, sells, quantity, ?_, ?_, ?_⟩
    · intro k other
      rw [after, if_neg (fun all => other all.1), add_zero, settles]
    · intro _
      unfold Holdings.pairsOf at pairs ⊢
      rw [after, after, if_pos ⟨rfl, rfl⟩]
      omega
    · intro user gains none side
      by_cases buyer : user = t.buyUserId
      · subst buyer
        unfold Holdings.pairsOf at pairs none
        rw [settles, settles, gains, gains, add_zero, add_zero] at pairs
        omega
      · rw [after, if_neg (fun all => buyer all.1), add_zero, settles, gains, add_zero]

/-- The fills of one placement, which share one user on one side of the book. -/
structure PairsRun (m : MarketId) (ts : List TradeResult) (h h' : Holdings) : Prop where
  switches : h.SameSwitches h'
  trades : ∀ t ∈ ts, t.buyUserId ≠ t.sellUserId ∧ t.sellBookType.direction = .sell ∧ 0 < t.quantity
  neverBuyer : ∀ k, (∀ t ∈ ts, t.buyUserId ≠ k.userId) →
    h'.freeOf k = h.freeOf k + (ts.map (fun t => t.bought k)).sum
  neverSeller : ∀ user, (∀ t ∈ ts, t.sellUserId ≠ user) → h.NetsAutomatically user →
    h.pairsOf user m ≤ 0 → h'.pairsOf user m ≤ 0
  quiet : ∀ user, (∀ t ∈ ts, ∀ side, t.bought ⟨user, m, side⟩ = 0) → h.pairsOf user m ≤ 0 →
    ∀ side, h'.freeOf ⟨user, m, side⟩ = h.freeOf ⟨user, m, side⟩

private theorem clearFills_pairs {ts : List TradeResult} {order order' : Order} {n n' : Int}
    {market market' : MarketState} {db db' : Db}
    (done : clearFills order ts n market db = .ok (order', n', market', db'))
    (here : ∀ t ∈ ts, t.marketId = order.marketId) :
    PairsRun order.marketId ts db.holdings db'.holdings := by
  induction ts generalizing order n market db with
  | nil =>
    simp only [clearFills, pure_eq_ok, Prod.mk.injEq] at done
    obtain ⟨_, _, _, rfl⟩ := done
    exact ⟨.of_accounts rfl, by simp, by simp, fun _ _ _ none => none, fun _ _ _ _ => rfl⟩
  | cons t ts ih =>
    obtain ⟨nq, market₁, db₁, first, rest⟩ := clearFills_cons_ok done
    obtain ⟨here₁, later⟩ := List.forall_mem_cons.mp here
    have step := clearFill_pairs first here₁
    have run := ih rest later
    change PairsRun order.marketId ts db₁.holdings db'.holdings at run
    refine ⟨step.switches.trans run.switches,
      List.forall_mem_cons.mpr ⟨⟨step.users, step.sells, step.quantity⟩, run.trades⟩, ?_, ?_, ?_⟩
    · intro k never
      obtain ⟨now, never⟩ := List.forall_mem_cons.mp never
      rw [run.neverBuyer k never, step.others k now.symm, List.map_cons, List.sum_cons, add_assoc]
    · intro user never on none
      obtain ⟨now, never⟩ := List.forall_mem_cons.mp never
      refine run.neverSeller user never (step.switches.netsAutomatically.mpr on) ?_
      by_cases buyer : user = t.buyUserId
      · subst buyer
        exact step.buyer on
      · have kept := step.quiet user
          (fun side => TradeResult.bought_of_stranger (Ne.symm buyer) now) none
        unfold Holdings.pairsOf
        rw [kept, kept]
        exact none
    · intro user gains none side
      obtain ⟨now, gains⟩ := List.forall_mem_cons.mp gains
      have kept := step.quiet user now none
      have none₁ : db₁.holdings.pairsOf user order.marketId ≤ 0 := by
        unfold Holdings.pairsOf
        rw [kept, kept]
        exact none
      rw [run.quiet user gains none₁ side, kept side]

namespace PairsRun

variable {m : MarketId} {ts : List TradeResult} {h h' : Holdings} {user : UserId}

private theorem seller_yes (run : PairsRun m ts h h') (never : ∀ t ∈ ts, t.buyUserId ≠ user) :
    h'.freeOf ⟨user, m, .yes⟩ = h.freeOf ⟨user, m, .yes⟩ := by
  have nothing : (ts.map (fun t => t.bought ⟨user, m, .yes⟩)).sum = 0 := by
    apply List.sum_eq_zero
    intro x listed
    obtain ⟨t, member, rfl⟩ := List.mem_map.mp listed
    rw [TradeResult.bought_of_seller (run.trades t member).2.1 (never t member)]
    simp
  rw [run.neverBuyer _ never, nothing, add_zero]

private theorem seller_gains (run : PairsRun m ts h h') (never : ∀ t ∈ ts, t.buyUserId ≠ user)
    {t : TradeResult} (member : t ∈ ts) (here : t.marketId = m) (mine : t.sellUserId = user)
    (type : t.sellBookType = .syntheticSell) :
    h.freeOf ⟨user, m, .no⟩ < h'.freeOf ⟨user, m, .no⟩ := by
  have bought : t.bought ⟨user, m, .no⟩ = t.quantity := by
    rw [TradeResult.bought_of_seller (run.trades t member).2.1 (never t member)]
    simp [here, mine, type]
  have most : t.bought ⟨user, m, .no⟩ ≤ (ts.map (fun t => t.bought ⟨user, m, .no⟩)).sum := by
    refine List.single_le_sum ?_ _ (List.mem_map.mpr ⟨t, member, rfl⟩)
    intro x listed
    obtain ⟨u, inside, rfl⟩ := List.mem_map.mp listed
    exact TradeResult.bought_nonneg (run.trades u inside).2.2.le
  have quantity := (run.trades t member).2.2
  rw [run.neverBuyer _ never]
  omega

private theorem seller_idle (run : PairsRun m ts h h') (never : ∀ t ∈ ts, t.buyUserId ≠ user)
    (none : ∀ t ∈ ts, t.sellUserId = user → t.sellBookType ≠ .syntheticSell) (side : OriginalSide) :
    h'.freeOf ⟨user, m, side⟩ = h.freeOf ⟨user, m, side⟩ := by
  have nothing : (ts.map (fun t => t.bought ⟨user, m, side⟩)).sum = 0 := by
    apply List.sum_eq_zero
    intro x listed
    obtain ⟨t, member, rfl⟩ := List.mem_map.mp listed
    rw [TradeResult.bought_of_seller (run.trades t member).2.1 (never t member)]
    exact if_neg (fun all => none t member all.1.symm all.2.2.1)
  rw [run.neverBuyer _ never, nothing, add_zero]

end PairsRun

structure DealtBy (t : TradeResult) (o : Order) : Prop where
  market : t.marketId = o.marketId
  buyer : o.bookDirection = .buy → t.buyUserId = o.userId ∧ t.buyBookType = o.bookType
  seller : o.bookDirection = .sell → t.sellUserId = o.userId ∧ t.sellBookType = o.bookType

private theorem matchOrder_dealtBy {ob : OrderBook} (wf : ob.WellFormed) {o : Order}
    {t : TradeResult}
    (fill : t ∈ (matchOrder o ob).trades) : DealtBy t o := by
  rw [(matchOrder_sweeps wf o).trades] at fill
  obtain ⟨x, taken, rfl⟩ := List.mem_map.mp fill
  cases direction : o.bookDirection with
  | buy =>
    constructor <;> simp [OrderDirection.opposite, makeTrade, makeTradeBuyIncoming, direction]
  | sell =>
    constructor <;> simp [OrderDirection.opposite, makeTrade, makeTradeSellIncoming, direction]

/-- Nobody buys in one fill of a placement and sells in another. -/
private theorem PairsRun.one_sided {m : MarketId} {ts : List TradeResult} {h h' : Holdings}
    {o : Order}
    (run : PairsRun m ts h h') (dealt : ∀ t ∈ ts, DealtBy t o) (user : UserId) :
    (∀ t ∈ ts, t.buyUserId ≠ user) ∨ ∀ t ∈ ts, t.sellUserId ≠ user := by
  by_cases mine : user = o.userId
  · subst mine
    cases direction : o.bookDirection with
    | buy =>
      refine Or.inr (fun t member same => (run.trades t member).1 ?_)
      rw [((dealt t member).buyer direction).1, same]
    | sell =>
      refine Or.inl (fun t member same => (run.trades t member).1 ?_)
      rw [((dealt t member).seller direction).1, same]
  · cases direction : o.bookDirection with
    | buy =>
      refine Or.inl (fun t member same => mine ?_)
      rw [← same, ((dealt t member).buyer direction).1]
    | sell =>
      refine Or.inr (fun t member same => mine ?_)
      rw [← same, ((dealt t member).seller direction).1]

section Placement

variable {draft : OrderDraft} {ob : OrderBook} {db db' : Db} {order order' : Order}

private theorem unfreezeRemainder_free (done : unfreezeRemainder order db = .ok db')
    (asset : order.frozenAssetType = order.bookType.frozenAsset)
    (nonneg : 0 ≤ order.remainingQuantity) (k : ShareKey) :
    db.holdings.freeOf k ≤ db'.holdings.freeOf k ∧ db'.holdings.freeOf k ≤ db.holdings.freeOf k +
      order.bookType.sold order.userId order.marketId order.remainingQuantity k := by
  rcases unfreezeRemainder_statement done with ⟨funds, moved⟩ | ⟨side, shares, moved⟩
  · have cash := BookType.frozenAsset_eq_funds.mp (asset.symm.trans funds)
    have same : db'.holdings.freeOf k = db.holdings.freeOf k := by
      unfold Holdings.freeOf Holdings.columnOf
      rw [Holdings.unfreezeDebit_positions moved]
    rw [BookType.sold_of_cash cash, add_zero]
    exact ⟨same.ge, same.le⟩
  · have type := BookType.eq_sellType (asset.symm.trans shares)
    have sold : 0 ≤ order.bookType.sold order.userId order.marketId order.remainingQuantity k :=
      BookType.sold_nonneg nonneg k
    cases got : db.holdings.positions.get? (order.userId, order.marketId) with
    | none =>
      have same : db'.holdings.freeOf k = db.holdings.freeOf k := by
        unfold Holdings.freeOf Holdings.columnOf
        rw [Table.get?_update? (Holdings.updatePosition_ok moved).2, got]
        split
        · next here => rw [here, got]; rfl
        · rfl
      exact ⟨same.ge, same.trans_le (le_add_of_nonneg_right sold)⟩
    | some row =>
      have frees : ∀ c : Holding, Holding.free { c with
          pendingSell := c.pendingSell + -order.remainingQuantity } =
            Holding.free c + order.remainingQuantity := by
        intro c
        simp only [Holding.free]
        omega
      have freed := Holdings.modifyPosition_shifts frees moved
        (fun none => by rw [got] at none; cases none) k
      rw [type, BookType.sold_sellType] at sold ⊢
      exact ⟨(le_add_of_nonneg_right sold).trans_eq freed.symm, freed.le⟩

private theorem finalizeOrder_free (done : finalizeOrder order 0 db = .ok (order', db'))
    (asset : order.frozenAssetType = order.bookType.frozenAsset)
    (nonneg : 0 ≤ order.remainingQuantity) (k : ShareKey) :
    db.holdings.freeOf k ≤ db'.holdings.freeOf k ∧ db'.holdings.freeOf k ≤ db.holdings.freeOf k +
      order.bookType.sold order.userId order.marketId order.remainingQuantity k := by
  rcases finalizeOrder_statement done with same | ⟨db₁, released, same⟩
  · rw [same]
    exact ⟨le_rfl, le_add_of_nonneg_right (BookType.sold_nonneg nonneg k)⟩
  · rw [same]
    exact unfreezeRemainder_free released asset nonneg k

private theorem clearFills_left {ts : List TradeResult} {n n' : Int} {market market' : MarketState}
    (done : clearFills order ts n market db = .ok (order', n', market', db')) :
    order'.remainingQuantity = order.remainingQuantity ∧
      order'.frozenAssetType = order.frozenAssetType := by
  rw [clearFills_order done]
  split
  · exact ⟨rfl, rfl⟩
  · exact ⟨rfl, rfl⟩

private theorem matchOrder_left (wf : ob.WellFormed) (o : Order)
    (wanted : 0 ≤ o.remainingQuantity) :
    0 ≤ (matchOrder o ob).incoming.remainingQuantity ∧
      (matchOrder o ob).incoming.remainingQuantity ≤ o.remainingQuantity ∧
      (matchOrder o ob).incoming.frozenAssetType = o.frozenAssetType := by
  rw [(matchOrder_sweeps wf o).incoming, Order.taken_remaining]
  have most := sum_takings (ob.live o.bookDirection.opposite o.bookPrice)
    (wf.stocked o.bookDirection.opposite) wanted
  have least : 0 ≤ ((takings o (ob.queue o.bookDirection.opposite)
      (ob.live o.bookDirection.opposite o.bookPrice)).map Prod.snd).sum :=
    sum_allot_nonneg (entries_positive (wf.stocked o.bookDirection.opposite))
  refine ⟨by omega, by omega, ?_⟩
  unfold Order.taken
  split <;> rfl

structure PairsPlaced (draft : OrderDraft) (ob : OrderBook) (h h₁ h₂ h₃ : Holdings) : Prop where
  quantity : 0 ≤ draft.quantity
  accepted : ∀ k, h₁.freeOf k = h.freeOf k -
    draft.accepted.bookType.sold draft.userId draft.marketId draft.quantity k
  fills : PairsRun draft.marketId (matchOrder draft.accepted ob).trades h₁ h₂
  keeps : ∀ k, h₂.freeOf k ≤ h₃.freeOf k
  released : ∀ k, h₃.freeOf k ≤ h₂.freeOf k +
    draft.accepted.bookType.sold draft.userId draft.marketId draft.quantity k
  switches : h.SameSwitches h₁ ∧ h₂.SameSwitches h₃

private theorem placeOrderInner_pairs {ob' : OrderBook} {placed : Placed} (wf : ob.WellFormed)
    (done : placeOrderInner draft ob db = (.ok (placed, db'), ob')) :
    ∃ h₁ h₂, PairsPlaced draft ob db.holdings h₁ h₂ db'.holdings := by
  obtain ⟨⟨market, db₁, order, n, market₁, db₂, order', db₃, accepted, fills, finalized, flushed,
    _⟩, _⟩ := placeOrderInner_phases done
  obtain ⟨markets, _, rfl⟩ := Db.flushMarket_ok flushed
  obtain ⟨_, sameMarket, sameUser, left, _⟩ := draft.accepted_fields
  have ok := acceptOrder_ok accepted
  have wanted : 0 ≤ draft.accepted.remainingQuantity := by
    rw [left]
    exact le_trans (by decide) ok.quantity.1
  obtain ⟨nonneg, most, asset⟩ := matchOrder_left wf draft.accepted wanted
  obtain ⟨kept, asset'⟩ := clearFills_left fills
  have same := (clearFills_sameOrder fills).trans (matchOrder_sameOrder wf draft.accepted)
  have run := clearFills_pairs fills (fun t member => by
    rw [(matchOrder_dealtBy wf member).market, (matchOrder_sameOrder wf draft.accepted).marketId])
  rw [(matchOrder_sameOrder wf draft.accepted).marketId, sameMarket] at run
  have frees := finalizeOrder_free finalized
    (by rw [asset', asset, same.bookType]; exact draft.accepted_funds.1) (kept ▸ nonneg)
  have switches : db.holdings.SameSwitches db₁.holdings :=
    acceptOrder_respected (Holdings.sameSwitches_respected _) trivial trivial accepted
  have switches' : db₂.holdings.SameSwitches db₃.holdings :=
    finalizeOrder_respected (Holdings.sameSwitches_respected _) trivial trivial finalized
  refine ⟨db₁.holdings, db₂.holdings, left ▸ wanted, ?_, run, fun k => (frees k).1, fun k => ?_,
    switches, switches'⟩
  · intro k
    have froze : db₁.holdings.freeOf k = db.holdings.freeOf k +
        -1 * draft.accepted.bookType.sold draft.userId draft.marketId draft.quantity k :=
      acceptOrder_shifts (fun c qty => by simp only [Holding.free]; omega) accepted k
    omega
  · refine (frees k).2.trans (add_le_add_right ?_ _)
    rw [same.bookType, same.userId, same.marketId, sameUser, sameMarket]
    have rest : 0 ≤ draft.accepted.bookType.sold draft.userId draft.marketId
        (draft.quantity - order.remainingQuantity) k :=
      BookType.sold_nonneg (by rw [kept, ← left]; omega) k
    rw [BookType.sold_sub] at rest
    omega

end Placement

namespace PairsPlaced

variable {draft : OrderDraft} {ob : OrderBook} {h h₁ h₂ h₃ : Holdings} {user : UserId}

private theorem netsAutomatically (placed : PairsPlaced draft ob h h₁ h₂ h₃) :
    h₃.NetsAutomatically user ↔ h.NetsAutomatically user :=
  ((placed.switches.1.trans placed.fills.switches).trans placed.switches.2).netsAutomatically

private theorem pairs_le (placed : PairsPlaced draft ob h h₁ h₂ h₃)
    (idle : ∀ side,
      h₂.freeOf ⟨user, draft.marketId, side⟩ = h₁.freeOf ⟨user, draft.marketId, side⟩) :
    h₃.pairsOf user draft.marketId ≤ h.pairsOf user draft.marketId := by
  have less : ∀ side, h₃.freeOf ⟨user, draft.marketId, side⟩ ≤
      h.freeOf ⟨user, draft.marketId, side⟩ := by
    intro side
    have released := placed.released ⟨user, draft.marketId, side⟩
    rw [idle, placed.accepted] at released
    omega
  exact min_le_min (less .yes) (less .no)

private theorem seller_iff (placed : PairsPlaced draft ob h h₁ h₂ h₃)
    (never : ∀ t ∈ (matchOrder draft.accepted ob).trades, t.buyUserId ≠ user)
    (wf : ob.WellFormed) {t : TradeResult} (member : t ∈ (matchOrder draft.accepted ob).trades)
    (mine : t.sellUserId = user) (type : t.sellBookType = .syntheticSell) :
    h₃.pairsOf user draft.marketId ≤ 0 ↔ h.freeOf ⟨user, draft.marketId, .yes⟩ = 0 := by
  have dealt := matchOrder_dealtBy wf member
  have cash : ∀ k : ShareKey, k.userId = user →
      draft.accepted.bookType.sold draft.userId draft.marketId draft.quantity k = 0 := by
    intro k key
    by_cases taker : user = draft.userId
    · refine BookType.sold_of_cash ?_ k
      cases direction : draft.accepted.bookDirection with
      | buy =>
        exact absurd ((dealt.buyer direction).1.trans taker.symm) (never t member)
      | sell =>
        rw [← (dealt.seller direction).2, type]
        rfl
    · exact if_neg (fun all => taker (key.symm.trans all.1))
  have yes := placed.fills.seller_yes never
  have no := placed.fills.seller_gains never member dealt.market mine type
  have keepsYes := placed.keeps ⟨user, draft.marketId, .yes⟩
  have keepsNo := placed.keeps ⟨user, draft.marketId, .no⟩
  have released := placed.released ⟨user, draft.marketId, .yes⟩
  rw [cash _ rfl, add_zero] at released
  have accepted := placed.accepted ⟨user, draft.marketId, .yes⟩
  rw [cash _ rfl, sub_zero] at accepted
  have nonneg := h.freeOf_nonneg ⟨user, draft.marketId, .yes⟩
  have nonneg₁ := h₁.freeOf_nonneg ⟨user, draft.marketId, .no⟩
  unfold Holdings.pairsOf
  omega

private theorem others (placed : PairsPlaced draft ob h h₁ h₂ h₃) (wf : ob.WellFormed)
    (on : h.NetsAutomatically user) (none : h.pairsOf user draft.marketId ≤ 0)
    (plain : ∀ t ∈ (matchOrder draft.accepted ob).trades, t.sellUserId = user →
      t.sellBookType ≠ .syntheticSell) : h₃.pairsOf user draft.marketId ≤ 0 := by
  have dealt : ∀ t ∈ (matchOrder draft.accepted ob).trades, DealtBy t draft.accepted :=
    fun t member => matchOrder_dealtBy wf member
  have freezes : ∀ k, h₁.freeOf k ≤ h.freeOf k := by
    intro k
    rw [placed.accepted]
    exact sub_le_self _ (BookType.sold_nonneg placed.quantity k)
  have less : h₁.pairsOf user draft.marketId ≤ 0 :=
    le_trans (min_le_min (freezes _) (freezes _)) none
  obtain never | never := placed.fills.one_sided dealt user
  · exact (placed.pairs_le (placed.fills.seller_idle never plain)).trans none
  · by_cases sells : user = draft.userId ∧ draft.accepted.bookType.paysCash = false
    · obtain ⟨taker, shares⟩ := sells
      refine (placed.pairs_le (placed.fills.quiet user (fun t member side => ?_) less)).trans none
      cases direction : draft.accepted.bookDirection with
      | buy =>
        have type := ((dealt t member).buyer direction).2
        unfold TradeResult.bought
        rw [BookType.bought_of_shares (type ▸ shares), zero_add]
        exact if_neg (fun all => never t member all.1.symm)
      | sell => exact absurd (((dealt t member).seller direction).1.trans taker.symm) (never t member)
    · have kept : ∀ side, h₃.freeOf ⟨user, draft.marketId, side⟩ ≤
          h₂.freeOf ⟨user, draft.marketId, side⟩ := by
        intro side
        have nothing : draft.accepted.bookType.sold draft.userId draft.marketId draft.quantity
            ⟨user, draft.marketId, side⟩ = 0 := by
          by_cases taker : user = draft.userId
          · exact BookType.sold_of_cash
              (Bool.eq_true_of_not_eq_false (fun shares => sells ⟨taker, shares⟩)) _
          · exact if_neg (fun all => taker all.1)
        exact (placed.released _).trans_eq (by rw [nothing, add_zero])
      exact (min_le_min (kept .yes) (kept .no)).trans
        (placed.fills.neverSeller user never (placed.switches.1.netsAutomatically.mpr on) less)

end PairsPlaced

/-- Only the buyer of the book is netted after a fill. From a market without pairs a
placement leads to one without pairs exactly if nobody who buys NO shares through the sell
side has YES shares free. -/
theorem auto_netting_complete_iff {ob ob' : OrderBook} (wf : ob.WellFormed) {draft : OrderDraft}
    {db db' : Db} {placed : Placed} (clear : db.holdings.NettedOut draft.marketId)
    (done : placeOrderInner draft ob db = (.ok (placed, db'), ob')) :
    db'.holdings.NettedOut draft.marketId ↔
      ∀ t ∈ (matchOrder draft.accepted ob).trades, t.sellBookType = .syntheticSell →
        db.holdings.NetsAutomatically t.sellUserId →
          db.holdings.freeOf ⟨t.sellUserId, draft.marketId, .yes⟩ = 0 := by
  obtain ⟨h₁, h₂, pairs⟩ := placeOrderInner_pairs wf done
  have dealt : ∀ t ∈ (matchOrder draft.accepted ob).trades, DealtBy t draft.accepted :=
    fun t member => matchOrder_dealtBy wf member
  have never : ∀ t ∈ (matchOrder draft.accepted ob).trades,
      ∀ u ∈ (matchOrder draft.accepted ob).trades, u.buyUserId ≠ t.sellUserId := by
    intro t member
    obtain never | never := pairs.fills.one_sided dealt t.sellUserId
    · exact never
    · exact absurd rfl (never t member)
  rw [Holdings.nettedOut_iff] at clear ⊢
  constructor
  · intro netted t member type on
    exact (pairs.seller_iff (never t member) wf member rfl type).mp
      (netted _ (pairs.netsAutomatically.mpr on))
  · intro covered user on
    rw [pairs.netsAutomatically] at on
    by_cases buysNo : ∃ t ∈ (matchOrder draft.accepted ob).trades,
        t.sellUserId = user ∧ t.sellBookType = .syntheticSell
    · obtain ⟨t, member, rfl, type⟩ := buysNo
      exact (pairs.seller_iff (never t member) wf member rfl type).mpr (covered t member type on)
    · exact pairs.others wf on (clear user on)
        (fun t member mine type => buysNo ⟨t, member, mine, type⟩)

section Example

private theorem nettedOut_of_rows {h : Holdings} {m : MarketId}
    (all : ∀ e ∈ h.positions.rows, e.1.2 = m → e.2.nettable ≤ 0) : h.NettedOut m :=
  fun _ _ _ got => all _ (Table.mem_iff.mpr got) rfl

private def afterOrders (orders : Nat) : World :=
  ([(⟨"c1", "m", .yes, .buy, 40, 10, .gtc⟩, "alice"), (⟨"c2", "m", .no, .buy, 60, 10, .gtc⟩, "bob"),
    (⟨"c3", "m", .yes, .buy, 40, 10, .gtc⟩, "bob")].take orders).foldl
      (fun w p => (OrderService.placeOrder p.1 p.2 ⟨0, 0⟩ .none w).2) twoTraders

private def tenNo (id : OrderId) (userId : UserId) : OrderDraft :=
  PlaceOrderRequest.draft ⟨"c" ++ toString id, "m", .no, .buy, 60, 10, .gtc⟩ id userId ⟨0, 0⟩

private def bidRests (id : OrderId) (userId : UserId) : OrderBook :=
  OrderBook.empty.addOrder ⟨id, userId, .nativeBuy, 10, 0⟩ 40 .buy

private theorem bidRests_wellFormed (id : OrderId) (userId : UserId) :
    (bidRests id userId).WellFormed :=
  (OrderBook.consistent_empty.addOrder ⟨id, userId, .nativeBuy, 10, 0⟩ 40 .buy
    (OrderBook.fresh_empty id) (by decide) (show (0 : Int) < 10 by decide)).wellFormed

end Example

/-- Bob holds no YES shares when he buys ten NO shares. -/
theorem first_no_buyer_netted_out :
    ∃ placed db' ob', placeOrderInner (tenNo 2 "bob") (bidRests 1 "alice") (afterOrders 1).db =
      (.ok (placed, db'), ob') ∧ db'.holdings.NettedOut "m" := by
  have runs :
      (placeOrderInner (tenNo 2 "bob") (bidRests 1 "alice") (afterOrders 1).db).1.isOk = true := by
    decide +kernel
  obtain ⟨⟨placed, db'⟩, first⟩ := exists_of_isOk runs
  have done : placeOrderInner (tenNo 2 "bob") (bidRests 1 "alice") (afterOrders 1).db =
      (.ok (placed, db'), _) := Prod.ext first rfl
  have uncovered : ∀ t ∈ (matchOrder (tenNo 2 "bob").accepted (bidRests 1 "alice")).trades,
      (afterOrders 1).db.holdings.freeOf ⟨t.sellUserId, "m", .yes⟩ = 0 := by decide +kernel
  refine ⟨placed, db', _, done, (auto_netting_complete_iff (bidRests_wellFormed 1 "alice")
    (nettedOut_of_rows (by decide +kernel)) done).mpr (fun t member _ _ => uncovered t member)⟩

/-- Alice holds ten YES shares when she buys ten NO shares from bob, and keeps both. -/
theorem no_buyer_keeps_pairs :
    ¬ ∀ ob draft db placed db' ob', OrderBook.WellFormed ob →
      Holdings.NettedOut (Db.holdings db) (OrderDraft.marketId draft) →
      placeOrderInner draft ob db = (.ok (placed, db'), ob') →
      Holdings.NettedOut (Db.holdings db') (OrderDraft.marketId draft) := by
  intro claim
  have runs : (placeOrderInner (tenNo 4 "alice") (bidRests 3 "bob") (afterOrders 3).db).1.toOption.map
      (fun r => ((r.2.holdings.positions.get? ("alice", "m")).map PositionRow.nettable,
        (r.2.holdings.accounts.get? "alice").map AccountRow.autoNettingEnabled)) =
      some (some 10, some true) := by decide +kernel
  obtain ⟨⟨placed, db'⟩, first, read⟩ := Option.map_eq_some_iff.mp runs
  obtain ⟨pairs, switch⟩ := Prod.mk.inj read
  obtain ⟨row, got, ten⟩ := Option.map_eq_some_iff.mp pairs
  obtain ⟨a, account, on⟩ := Option.map_eq_some_iff.mp switch
  have ok : (placeOrderInner (tenNo 4 "alice") (bidRests 3 "bob") (afterOrders 3).db).1 =
      .ok (placed, db') := by
    cases result : (placeOrderInner (tenNo 4 "alice") (bidRests 3 "bob") (afterOrders 3).db).1 with
    | error e =>
      rw [result] at first
      cases first
    | ok r =>
      rw [result] at first
      exact congrArg Except.ok (Option.some.inj first)
  have clear := claim _ _ _ placed db' _ (bidRests_wellFormed 3 "bob")
    (nettedOut_of_rows (by decide +kernel)) (Prod.ext ok rfl)
  have none := clear "alice" row ⟨by decide, a, account, on⟩ got
  omega

end PredictionMarket
