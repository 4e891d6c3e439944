/- PredictionMarket/Clearing/TradeHistory
   digest: The trade list of a user: pages cut by time and resumed at the text of an id. -/

import PredictionMarket.Common.IdGenerator
import PredictionMarket.Library.Keyset
import PredictionMarket.Store.Query
import PredictionMarket.Store.Rows

set_option autoImplicit false
set_option relaxedAutoImplicit false

namespace PredictionMarket

open Library

/-- A row of the trades table with its generated id and its clock column. -/
structure StoredTrade where
  tradeId : String
  executedAt : Timestamp
  row : TradeRow

def StoredTrade.marketId (t : StoredTrade) : MarketId := t.row.trade.marketId

/-- The trades table under `uq_trades_trade_id` and its CHECK constraints. -/
structure TradesTable where
  rows : List StoredTrade
  keyed : (rows.map StoredTrade.tradeId).Nodup
  checked : ∀ t ∈ rows, t.row.Check

namespace TradesTable

def empty : TradesTable := ⟨[], List.nodup_nil, fun _ member => absurd member List.not_mem_nil⟩

def insert (table : TradesTable) (t : StoredTrade) : Option TradesTable :=
  if fits : t.tradeId ∉ table.rows.map StoredTrade.tradeId ∧ t.row.Check then
    some
      { rows := table.rows ++ [t]
        keyed := by
          rw [List.map_append, List.map_singleton]
          exact List.nodup_append.mpr ⟨table.keyed, List.nodup_singleton _,
            fun a stored b new same => fits.1 (by rwa [← List.mem_singleton.mp new, ← same])⟩
        checked := by
          intro a member
          rcases List.mem_append.mp member with stored | new
          · exact table.checked a stored
          · exact List.mem_singleton.mp new ▸ fits.2 }
  else none

end TradesTable

/-- What the process draws ids for: `write_trade`, which then reads the clock once
more, or anything else. A trade whose transaction rolls back is among the others. -/
inductive IdDraw
  | other (readings : List Timestamp)
  | trade (readings : List Timestamp) (executedAt : Timestamp) (row : TradeRow)

namespace IdDraw

def clock : IdDraw → List Timestamp
  | .other readings => readings
  | .trade readings executedAt _ => readings ++ [executedAt]

def millis : IdDraw → List Nat
  | .other readings | .trade readings _ _ => readings.map (fun now => (now / 1000).toNat)

def stored (id : Nat) : IdDraw → Option StoredTrade
  | .other _ => none
  | .trade _ executedAt row => some ⟨toString id, executedAt, row⟩

end IdDraw

/-- One draw after the other; `none` when the generator does not return or the
database refuses a row. -/
def fillTrades (g : SnowflakeIdGenerator) (table : TradesTable) : List IdDraw → Option TradesTable
  | [] => some table
  | draw :: draws =>
    match g.nextId draw.millis with
    | some (id, g, []) =>
      match draw.stored id with
      | none => fillTrades g table draws
      | some t => (table.insert t).bind (fun table => fillTrades g table draws)
    | _ => none

def TradeScenario.name : TradeScenario → String
  | .mint => "MINT"
  | .transferYes => "TRANSFER_YES"
  | .transferNo => "TRANSFER_NO"
  | .burn => "BURN"

structure TradeResponse where
  tradeId : String
  marketId : MarketId
  scenario : String
  price : Int
  quantity : Int
  buyUserId : UserId
  sellUserId : UserId
  takerFee : Int
  buyRealizedPnl : Option Int
  sellRealizedPnl : Option Int
  executedAt : Option String

/-- The fields of `_row_to_dict` that `TradeResponse` keeps. -/
def TradeResponse.ofRow (isoformat : Timestamp → String) (t : StoredTrade) : TradeResponse where
  tradeId := t.tradeId
  marketId := t.marketId
  scenario := t.row.scenario.name
  price := t.row.trade.price
  quantity := t.row.trade.quantity
  buyUserId := t.row.trade.buyUserId
  sellUserId := t.row.trade.sellUserId
  takerFee := t.row.takerFee
  buyRealizedPnl := t.row.buyRealizedPnl
  sellRealizedPnl := t.row.sellRealizedPnl
  executedAt := some (isoformat t.executedAt)

def StoredTrade.passes (t : StoredTrade) (userId : UserId) (marketId : Option MarketId) : Bool :=
  (t.row.trade.buyUserId = userId || t.row.trade.sellUserId = userId) &&
    marketId.all (fun m => t.marketId = m)

section Query

variable (collate : Collation) (isoformat : Timestamp → String) (table : TradesTable)
  (userId : UserId) (marketId : Option MarketId) (limit : Nat)

def tradesNewestFirst (trades : List StoredTrade) : List StoredTrade :=
  newestFirst collate StoredTrade.executedAt StoredTrade.tradeId trades

/-- `_LIST_SQL`; the cursor is compared with the id alone. -/
def TradesRepository.listByUser (cursorId : Option String) : List StoredTrade :=
  (tradesNewestFirst collate (table.rows.filter (fun t =>
    t.passes userId marketId && cursorId.all (fun c => collate.lt t.tradeId c)))).take limit

/-- The endpoint asks for one trade more than it shows. -/
def listTrades (cursor : Option String) : Page TradeResponse String :=
  Page.ofLookahead limit StoredTrade.tradeId (TradeResponse.ofRow isoformat)
    (TradesRepository.listByUser collate table userId marketId (limit + 1) cursor)

def TradesTable.mine : List StoredTrade := table.rows.filter (fun t => t.passes userId marketId)

def TradePagesExact : Prop :=
  ∃ (trades : List StoredTrade) (pages : List (List TradeResponse)),
    trades.Perm (table.mine userId marketId) ∧
    trades.Pairwise (fun a b => b.executedAt ≤ a.executedAt) ∧
    Follows (fun cursor => some (listTrades collate isoformat table userId marketId limit cursor))
      none pages ∧
    pages.flatten = trades.map (TradeResponse.ofRow isoformat)

/-- At a trade that ends a full page with older ones behind it, the texts of the
ids are in the order of the times: lower for every earlier trade of the user and
higher for every later one. -/
def PageEndsInOrder : Prop :=
  ∀ a ∈ table.mine userId marketId,
    limit ∣ ((table.mine userId marketId).filter (fun b =>
      Newer collate StoredTrade.executedAt StoredTrade.tradeId b a)).length + 1 →
    (∃ b ∈ table.mine userId marketId,
      Newer collate StoredTrade.executedAt StoredTrade.tradeId a b) →
    ∀ b ∈ table.mine userId marketId,
      (b.executedAt < a.executedAt → collate.lt b.tradeId a.tradeId = true) ∧
      (a.executedAt < b.executedAt → collate.lt a.tradeId b.tradeId = true)

instance : Decidable (PageEndsInOrder collate table userId marketId limit) :=
  inferInstanceAs (Decidable (∀ a ∈ table.mine userId marketId, _ → _ → _))

end Query

section Pages

variable {collate : Collation} {isoformat : Timestamp → String} {table : TradesTable}
  {userId : UserId} {marketId : Option MarketId} {limit : Nat}

def TradesTable.listed (table : TradesTable) (collate : Collation) (userId : UserId)
    (marketId : Option MarketId) : List StoredTrade :=
  tradesNewestFirst collate (table.mine userId marketId)

private theorem TradesTable.mine_keyed :
    ((table.mine userId marketId).map StoredTrade.tradeId).Nodup :=
  table.keyed.sublist (List.filter_sublist.map StoredTrade.tradeId)

private theorem TradesTable.listed_perm :
    (table.listed collate userId marketId).Perm (table.mine userId marketId) :=
  newestFirst_perm _

private theorem TradesTable.listed_sorted : (table.listed collate userId marketId).Pairwise
    (Newer collate StoredTrade.executedAt StoredTrade.tradeId) :=
  newestFirst_sorted table.mine_keyed

private theorem TradesTable.listed_keyed :
    ((table.listed collate userId marketId).map StoredTrade.tradeId).Nodup :=
  (table.listed_perm.map StoredTrade.tradeId).nodup_iff.mpr table.mine_keyed

def idSelects (collate : Collation) (cursor : String) (t : StoredTrade) : Bool :=
  collate.lt t.tradeId cursor

private theorem idSelects_trans (c : String) (b a : StoredTrade)
    (first : idSelects collate c b = true)
    (second : idSelects collate b.tradeId a = true) : idSelects collate c a = true :=
  collate.trans _ _ _ second first

private theorem listTrades_serves : Serves limit StoredTrade.tradeId (TradeResponse.ofRow isoformat)
    (table.listed collate userId marketId) (idSelects collate)
    (fun cursor => some (listTrades collate isoformat table userId marketId limit cursor)) := by
  constructor
  · simp only [listTrades, TradesRepository.listByUser, Option.all_none, Bool.and_true,
      Page.ofLookahead_take]
    rfl
  · intro a _
    have after : (fun t : StoredTrade => t.passes userId marketId &&
        (some a.tradeId).all (fun c => collate.lt t.tradeId c)) =
        (fun t => idSelects collate a.tradeId t && t.passes userId marketId) := by
      funext t
      rw [Option.all_some, Bool.and_comm, idSelects]
    have selected : tradesNewestFirst collate
        ((table.mine userId marketId).filter (idSelects collate a.tradeId)) =
          (table.listed collate userId marketId).filter (idSelects collate a.tradeId) :=
      newestFirst_filter table.mine_keyed _
    rw [listTrades, TradesRepository.listByUser, after, Page.ofLookahead_take, ← List.filter_filter]
    exact congrArg (fun rows => some (Page.ofLookahead limit StoredTrade.tradeId
      (TradeResponse.ofRow isoformat) rows)) selected

private theorem TradesTable.listed_after {front back : List StoredTrade} {a : StoredTrade}
    (split : table.listed collate userId marketId = front ++ a :: back) :
    (table.listed collate userId marketId).filter
      (fun b => Newer collate StoredTrade.executedAt StoredTrade.tradeId a b) = back := by
  rw [split]
  exact filter_after (fun _ _ newer => newer.asymm) (split ▸ table.listed_sorted)

private theorem TradesTable.rank_eq {front back : List StoredTrade} {a : StoredTrade}
    (split : table.listed collate userId marketId = front ++ a :: back) :
    ((table.mine userId marketId).filter (fun b =>
      Newer collate StoredTrade.executedAt StoredTrade.tradeId b a)).length = front.length := by
  rw [← (table.listed_perm.filter _).length_eq, split]
  exact congrArg List.length
    (filter_before (fun _ _ newer => newer.asymm) (split ▸ table.listed_sorted))

/-- A cursor selects the trades after its own exactly when the text order agrees
with the order of the query at this trade. -/
private theorem selects_after_iff {front back : List StoredTrade} {a : StoredTrade}
    (split : table.listed collate userId marketId = front ++ a :: back) :
    (table.listed collate userId marketId).filter (idSelects collate a.tradeId) = back ↔
      ∀ b ∈ table.mine userId marketId,
        (b.executedAt < a.executedAt → collate.lt b.tradeId a.tradeId = true) ∧
        (a.executedAt < b.executedAt → collate.lt a.tradeId b.tradeId = true) := by
  have pointwise : (table.listed collate userId marketId).filter (idSelects collate a.tradeId) =
      back ↔ ∀ b ∈ table.listed collate userId marketId, idSelects collate a.tradeId b =
        decide (Newer collate StoredTrade.executedAt StoredTrade.tradeId a b) := by
    conv_lhs => rhs; rw [← table.listed_after split]
    exact filter_eq_filter_iff
  have listed : a ∈ table.listed collate userId marketId :=
    split ▸ List.mem_append_right _ List.mem_cons_self
  rw [pointwise]
  constructor
  · intro agree b mine
    have here := agree b (table.listed_perm.mem_iff.mpr mine)
    rw [idSelects, Bool.eq_iff_iff, decide_eq_true_iff, Newer] at here
    refine ⟨fun before => here.mpr (Or.inl before), fun after => ?_⟩
    have other : a.tradeId ≠ b.tradeId := by
      intro same
      have equal := List.inj_on_of_nodup_map table.listed_keyed listed
        (table.listed_perm.mem_iff.mpr mine) same
      exact after.ne (congrArg StoredTrade.executedAt equal)
    refine (collate.total _ _ other).resolve_right (fun below => ?_)
    rcases here.mp below with older' | ⟨same, _⟩
    · exact lt_asymm after older'
    · exact after.ne same
  · intro agree b member
    obtain ⟨lower, higher⟩ := agree b (table.listed_perm.mem_iff.mp member)
    rw [idSelects, Bool.eq_iff_iff, decide_eq_true_iff, Newer]
    rcases lt_trichotomy b.executedAt a.executedAt with before | same | after
    · simp only [lower before, before, true_or]
    · simp only [same, lt_irrefl, true_and, false_or]
    · simp only [collate.asymm (higher after), lt_asymm after, after.ne, false_and, or_self,
        Bool.false_eq_true]

private theorem resumes_iff_inOrder : Resumes limit StoredTrade.tradeId
      (rowsFrom (table.listed collate userId marketId) (idSelects collate))
      (table.listed collate userId marketId) ↔
    PageEndsInOrder collate table userId marketId limit := by
  have perm : (table.listed collate userId marketId).Perm (table.mine userId marketId) :=
    table.listed_perm
  constructor
  · intro resumes a mine full older
    obtain ⟨front, back, split⟩ := List.append_of_mem (perm.mem_iff.mpr mine)
    refine (selects_after_iff split).mp
      (resumes front a back split (table.rank_eq split ▸ full) ?_)
    obtain ⟨b, here, below⟩ := older
    have behind : b ∈ back := by
      rw [← table.listed_after split, List.mem_filter]
      exact ⟨perm.mem_iff.mpr here, by simpa using below⟩
    exact List.ne_nil_of_mem behind
  · intro agree front a back split full more
    have listed : a ∈ table.listed collate userId marketId :=
      split ▸ List.mem_append_right _ List.mem_cons_self
    refine (selects_after_iff split).mpr
      (agree a (perm.mem_iff.mp listed) ((table.rank_eq split).symm ▸ full) ?_)
    obtain ⟨b, behind⟩ := List.exists_mem_of_ne_nil back more
    have below := behind
    rw [← table.listed_after split, List.mem_filter] at below
    exact ⟨b, perm.mem_iff.mp below.1, by simpa using below.2⟩

private theorem inOrder_of_pagesExact (some_ : 0 < limit)
    (exact_ : TradePagesExact collate isoformat table userId marketId limit) :
    PageEndsInOrder collate table userId marketId limit := by
  obtain ⟨trades, pages, perm, _, follows, whole⟩ := exact_
  have distinct : ∀ a ∈ table.listed collate userId marketId,
      ∀ b ∈ table.listed collate userId marketId,
      TradeResponse.ofRow isoformat a = TradeResponse.ofRow isoformat b → a = b := by
    intro a listed b listed' same
    exact List.inj_on_of_nodup_map table.listed_keyed listed listed'
      (congrArg TradeResponse.tradeId same)
  refine resumes_iff_inOrder.mp ((follows_exact_iff some_ listTrades_serves idSelects_trans
    table.listed_keyed.of_map distinct).mp ⟨pages, follows, ?_⟩)
  rw [whole]
  exact (perm.trans table.listed_perm.symm).map _

private theorem pagesExact_of_inOrder (some_ : 0 < limit)
    (inOrder : PageEndsInOrder collate table userId marketId limit) :
    TradePagesExact collate isoformat table userId marketId limit := by
  have start : Issued StoredTrade.tradeId (table.listed collate userId marketId) none :=
    fun d equal => by cases equal
  have serves : Serves limit StoredTrade.tradeId (TradeResponse.ofRow isoformat)
      (table.listed collate userId marketId) (idSelects collate)
      (fun cursor => some (listTrades collate isoformat table userId marketId limit cursor)) :=
    listTrades_serves
  obtain ⟨pages, follows, whole, _⟩ := follows_of_resumes some_ serves
    (table.listed collate userId marketId).length start le_rfl (resumes_iff_inOrder.mpr inOrder)
  refine ⟨table.listed collate userId marketId, pages, table.listed_perm, ?_, follows, whole⟩
  refine table.listed_sorted.imp (fun newer => ?_)
  rcases newer with later | ⟨same, _⟩
  · exact later.le
  · exact same.ge

/-- The pages of the trade list are exact, whatever the collation, precisely when
every full page ends where the texts of the ids follow the times. -/
theorem trade_pages_exact_iff (some_ : 0 < limit) :
    TradePagesExact collate isoformat table userId marketId limit ↔
      PageEndsInOrder collate table userId marketId limit :=
  ⟨inOrder_of_pagesExact some_, pagesExact_of_inOrder some_⟩

end Pages

section Generated

open SnowflakeIdGenerator (nextIds EPOCH_MS Forward)

private theorem fillTrades_rows {draws : List IdDraw} : ∀ {g : SnowflakeIdGenerator}
    {table table' : TradesTable}, fillTrades g table draws = some table' →
    ∃ ids, nextIds g (draws.map IdDraw.millis) = some ids ∧
      table'.rows = table.rows ++ (draws.zip ids).filterMap (fun p => p.1.stored p.2) := by
  induction draws with
  | nil =>
    intro g table table' filled
    obtain rfl := Option.some.inj filled
    exact ⟨[], rfl, (List.append_nil _).symm⟩
  | cons draw draws ih =>
    intro g table table' filled
    rw [fillTrades] at filled
    split at filled
    · next id g' issued =>
      split at filled
      · next nothing =>
        obtain ⟨ids, drawn, rows⟩ := ih filled
        refine ⟨id :: ids, ?_, ?_⟩
        · rw [List.map_cons, nextIds, issued]
          exact congrArg (Option.map (id :: ·)) drawn
        · simp only [rows, List.zip_cons_cons, List.filterMap_cons, nothing]
      · next t row =>
        obtain ⟨between, inserted, filled⟩ := Option.bind_eq_some_iff.mp filled
        obtain ⟨ids, drawn, rows⟩ := ih filled
        refine ⟨id :: ids, ?_, ?_⟩
        · rw [List.map_cons, nextIds, issued]
          exact congrArg (Option.map (id :: ·)) drawn
        · rw [TradesTable.insert] at inserted
          split at inserted
          · obtain rfl := Option.some.inj inserted
            simp only [rows, List.zip_cons_cons, List.filterMap_cons, row, List.append_assoc,
              List.singleton_append]
          · cases inserted
    · cases filled

def WrittenBefore (a b : StoredTrade) : Prop :=
  ∃ m n : Nat, a.tradeId = toString m ∧ b.tradeId = toString n ∧ m < n ∧
    a.executedAt ≤ b.executedAt

private theorem forward_of_clock {a b : IdDraw} (forward : ∀ x ∈ a.clock, ∀ y ∈ b.clock, x ≤ y) :
    Forward a.millis b.millis := by
  have reading : ∀ {draw : IdDraw} {ms : Nat}, ms ∈ draw.millis →
      ∃ now ∈ draw.clock, (now / 1000).toNat = ms := by
    intro draw ms member
    cases draw with
    | other readings => exact List.mem_map.mp member
    | trade readings executedAt row =>
      obtain ⟨now, read, rfl⟩ := List.mem_map.mp member
      exact ⟨now, List.mem_append_left _ read, rfl⟩
  intro before last now first
  obtain ⟨x, here, rfl⟩ := reading (List.mem_of_mem_getLast? last)
  obtain ⟨y, there, rfl⟩ := reading (List.mem_of_mem_head? first)
  exact Int.toNat_le_toNat (Int.ediv_le_ediv (by decide) (forward x here y there))

private theorem fillTrades_ordered {g : SnowflakeIdGenerator} {draws : List IdDraw}
    {table : TradesTable}
    (filled : fillTrades g .empty draws = some table)
    (forward : (draws.flatMap IdDraw.clock).Pairwise (· ≤ ·))
    (range : ∀ draw ∈ draws, ∀ ts ∈ draw.millis, EPOCH_MS ≤ ts) :
    table.rows.Pairwise WrittenBefore := by
  obtain ⟨ids, drawn, rows⟩ := fillTrades_rows filled
  have clocks := (List.pairwise_flatMap.mp forward).2
  have increasing : ids.Pairwise (· < ·) := by
    rw [← List.isChain_iff_pairwise, SnowflakeIdGenerator.nextIds_isChain_iff drawn
      (by simpa using range), List.isChain_map]
    exact (clocks.imp forward_of_clock).isChain
  have length : draws.length = ids.length := by
    rw [SnowflakeIdGenerator.nextIds_length drawn, List.length_map]
  have firsts : ((draws.zip ids).map Prod.fst).Pairwise
      (fun d d' => ∀ x ∈ d.clock, ∀ y ∈ d'.clock, x ≤ y) := by
    rw [List.map_fst_zip length.le]
    exact clocks
  have seconds : ((draws.zip ids).map Prod.snd).Pairwise (· < ·) := by
    rw [List.map_snd_zip length.ge]
    exact increasing
  rw [rows]
  refine ((List.pairwise_map.mp firsts).and (List.pairwise_map.mp seconds)).filterMap _ ?_
  rintro ⟨draw, m⟩ ⟨draw', n⟩ ⟨times, below⟩ a first b second
  cases draw with
  | other => cases first
  | trade readings at_ row =>
    cases draw' with
    | other => cases second
    | trade readings' at_' row' =>
      obtain rfl := Option.some.inj first
      obtain rfl := Option.some.inj second
      exact ⟨m, n, rfl, rfl, below, times _ (List.mem_append_right _ (List.mem_singleton_self _)) _
        (List.mem_append_right _ (List.mem_singleton_self _))⟩

/-- So as long as the ids of a user's trades have one number of digits, the pages
are exact at every limit. -/
theorem trade_pages_exact_of_digits {g : SnowflakeIdGenerator} {draws : List IdDraw}
    {table : TradesTable} {userId : UserId} {marketId : Option MarketId} {limit digits : Nat}
    (filled : fillTrades g .empty draws = some table)
    (forward : (draws.flatMap IdDraw.clock).Pairwise (· ≤ ·))
    (range : ∀ draw ∈ draws, ∀ ts ∈ draw.millis, EPOCH_MS ≤ ts)
    (uniform : ∀ t ∈ table.mine userId marketId, t.tradeId.length = digits) (some_ : 0 < limit)
    (isoformat : Timestamp → String) :
    TradePagesExact .codePoints isoformat table userId marketId limit := by
  have mine : (table.mine userId marketId).Pairwise WrittenBefore :=
    (fillTrades_ordered filled forward range).sublist List.filter_sublist
  have texts : ∀ x ∈ table.mine userId marketId, ∀ y ∈ table.mine userId marketId,
      x.executedAt < y.executedAt → Collation.codePoints.lt x.tradeId y.tradeId = true := by
    refine List.Pairwise.forall_of_forall_of_flip (fun x _ same => absurd same (lt_irrefl _)) ?_ ?_
    · refine mine.imp_of_mem (fun {x y} here there written _ => ?_)
      obtain ⟨m, n, first, second, below, _⟩ := written
      simp only [Collation.codePoints, decide_eq_true_eq]
      rw [first, second]
      refine toString_lt ?_ below
      rw [← first, ← second, uniform x here, uniform y there]
    · refine mine.imp (fun written later => ?_)
      obtain ⟨_, _, _, _, _, order⟩ := written
      exact absurd later (not_lt.mpr order)
  exact pagesExact_of_inOrder some_
    (fun a stored _ _ b stored' => ⟨texts b stored' a stored, texts a stored b stored'⟩)

end Generated

section Example

open SnowflakeIdGenerator (init)

def sampleTrade : TradeRow where
  trade :=
    { buyOrderId := 1, sellOrderId := 2, buyUserId := "ann", sellUserId := "bob",
      marketId := "rain", price := 40, quantity := 1, buyBookType := .nativeBuy,
      sellBookType := .nativeSell, buyOriginalPrice := 40, makerOrderId := 2, takerOrderId := 1 }
  scenario := .transferYes
  makerFee := 0
  takerFee := 0
  buyRealizedPnl := none
  sellRealizedPnl := none

/-- Two trades of successive milliseconds. The ids get their nineteenth digit
between them. -/
def digitBoundary : List IdDraw :=
  [.trade [1938418579101200] 1938418579101300 sampleTrade,
    .trade [1938418579102000] 1938418579102100 sampleTrade]

def digitBoundaryTrades : TradesTable where
  rows := [⟨"999999999997640704", 1938418579101300, sampleTrade⟩,
    ⟨"1000000000001835008", 1938418579102100, sampleTrade⟩]
  keyed := by decide
  checked := by decide

/-- One page of two shows both. -/
theorem both_trades_on_one_page :
    PageEndsInOrder .codePoints digitBoundaryTrades "ann" none 2 ∧
      TradePagesExact .codePoints (fun _ => "") digitBoundaryTrades "ann" none 2 :=
  ⟨by decide, (trade_pages_exact_iff (by decide)).mpr (by decide)⟩

/-- On pages of one the older trade is lost. -/
theorem older_trade_lost : ∃ g, init 0 = .ok g ∧
    fillTrades g .empty digitBoundary = some digitBoundaryTrades ∧
    (digitBoundary.flatMap IdDraw.clock).Pairwise (· ≤ ·) ∧
    ¬ TradePagesExact .codePoints (fun _ => "") digitBoundaryTrades "ann" none 1 := by
  refine ⟨_, rfl, rfl, by decide, fun exact_ => ?_⟩
  have inOrder := inOrder_of_pagesExact Nat.one_pos exact_
  revert inOrder
  decide

end Example

end PredictionMarket
