/- PredictionMarket/Market/Listing
   digest: The market list: filter, keyset and look-ahead, and its pages from first to last. -/

import PredictionMarket.Library.Keyset
import PredictionMarket.Library.Result
import PredictionMarket.Market.Cursor

set_option autoImplicit false
set_option relaxedAutoImplicit false

namespace PredictionMarket

open Library

/-- The digits of a number in groups of three, as the format `,` writes them. -/
def groupThousands (n : Nat) : String :=
  let rec groups : List Char → List Char
    | a :: b :: c :: d :: rest => a :: b :: c :: ',' :: groups (d :: rest)
    | short => short
  String.ofList (groups (Nat.toDigits 10 n).reverse).reverse

def centsToDisplay (cents : Int) : String :=
  let sign := if cents < 0 then "-" else ""
  let abs := cents.natAbs
  let rest := if abs % 100 < 10 then s!"0{abs % 100}" else s!"{abs % 100}"
  s!"{sign}${groupThousands (abs / 100)}.{rest}"

example : centsToDisplay 500000 = "$5,000.00" := by decide

structure MarketListItem where
  id : MarketId
  title : String
  description : Option String
  category : Option String
  status : String
  minPriceCents : Int
  maxPriceCents : Int
  makerFeeBps : Int
  takerFeeBps : Int
  reserveBalanceCents : Int
  reserveBalanceDisplay : String
  totalYesShares : Int
  totalNoShares : Int
  tradingStartAt : Option String
  resolutionDate : Option String

def MarketListItem.fromDomain (py : TextCodec) (m : Market) : MarketListItem where
  id := m.id
  title := m.title
  description := m.description
  category := m.category
  status := m.status
  minPriceCents := m.minPriceCents
  maxPriceCents := m.maxPriceCents
  makerFeeBps := m.makerFeeBps
  takerFeeBps := m.takerFeeBps
  reserveBalanceCents := m.reserveBalance
  reserveBalanceDisplay := centsToDisplay m.reserveBalance
  totalYesShares := m.totalYesShares
  totalNoShares := m.totalNoShares
  tradingStartAt := m.tradingStartAt.map py.isoformat
  resolutionDate := m.resolutionDate.map py.isoformat

/-- What the database and its driver take as a parameter. Both refuse a text that they
cannot encode, the driver also an instant that it cannot put in UTC. -/
structure Driver where
  takesText : String → Bool
  takesTimestamp : Timestamp → Bool

namespace Driver

variable (driver : Driver)

/-- A TEXT parameter: a text that the database can hold, or NULL. -/
def bindText : Json → Except PyErr (Option String)
  | .null => .ok none
  | .str (.unicode text) => if driver.takesText text then .ok (some text) else .error .dataError
  | _ => .error .dataError

def bindTimestamp : Option Timestamp → Except PyErr (Option Timestamp)
  | none => .ok none
  | some ts => if driver.takesTimestamp ts then .ok (some ts) else .error .dataError

def takesFilter (filter : Option String) : Prop := ∀ text ∈ filter, driver.takesText text = true

theorem takesFilter_none : driver.takesFilter none := nofun

structure TakesBack (m : Market) : Prop where
  id : driver.takesText m.id = true
  createdAt : driver.takesTimestamp m.createdAt = true

end Driver

structure MarketsTable where
  rows : List Market
  keyed : (rows.map Market.id).Nodup

/-- The filters of the query. A NULL parameter filters nothing, and no category
equals a NULL one. -/
def Market.passes (m : Market) (status category : Option String) : Bool :=
  status.all (fun s => m.status = s) && category.all (fun c => m.category = some c)

section Query

variable (collate : Collation)

/-- The keyset condition; a comparison with a NULL id is not true. -/
def Market.beyond (m : Market) (cursorTs : Option Timestamp) (cursorId : Option String) : Bool :=
  match cursorTs with
  | none => true
  | some ts =>
    m.createdAt < ts || (m.createdAt = ts && cursorId.any (fun id => collate.lt m.id id))

/-- `ORDER BY created_at DESC, id DESC`. -/
abbrev Market.Newer (a b : Market) : Prop :=
  PredictionMarket.Newer collate Market.createdAt Market.id a b

/-- The parsing of the timestamp: a text goes through `datetime.fromisoformat`, which
takes nothing else. -/
def parseTimestamp (py : TextCodec) : Json → Except PyErr (Option Timestamp)
  | .null => .ok none
  | .str text =>
    match py.fromisoformat text with
    | some ts => .ok (some ts)
    | none => .error .valueError
  | _ => .error .typeError

/-- `_LIST_MARKETS_SQL`, with its parameters. -/
def MarketRepository.listMarkets (py : TextCodec) (driver : Driver) (table : MarketsTable)
    (status category : Option String) (cursorTs cursorId : Json) (limit : Nat) :
    Except PyErr (List Market) := do
  let cursorTsDt ← parseTimestamp py cursorTs
  let status ← driver.bindText (.ofOption status)
  let category ← driver.bindText (.ofOption category)
  let cursorTs ← driver.bindTimestamp cursorTsDt
  let cursorId ← driver.bindText cursorId
  return (newestFirst collate Market.createdAt Market.id (table.rows.filter (fun m =>
    m.passes status category && m.beyond collate cursorTs cursorId))).take limit

/-- The default shows active markets, `ALL` shows every market. -/
def sqlStatus : Option String → Option String
  | some "ALL" => none
  | none | some "" => some "ACTIVE"
  | some status => some status

/-- The service asks for one market more than it shows. -/
def MarketApplicationService.listMarkets (py : TextCodec) (driver : Driver)
    (table : MarketsTable) (status category cursor : Option String) (limit : Nat) :
    Except PyErr (Page MarketListItem String) := do
  let (cursorTs, cursorId) ← cursorDecode py cursor
  let markets ← MarketRepository.listMarkets collate py driver table (sqlStatus status) category
    cursorTs cursorId (limit + 1)
  return Page.ofLookahead limit (cursorEncode py) (MarketListItem.fromDomain py) markets

end Query

private theorem Market.beyond_cursor {collate : Collation} (a b : Market) :
    b.beyond collate (some a.createdAt) (some a.id) = decide (Market.Newer collate a b) := by
  have time : (b.createdAt = a.createdAt) = (a.createdAt = b.createdAt) := propext eq_comm
  rw [Bool.eq_iff_iff, decide_eq_true_iff]
  simp [Market.beyond, PredictionMarket.Newer, time]

section Pages

variable {py : TextCodec} {driver : Driver} {collate : Collation} {table : MarketsTable}
  {status category : Option String} {limit : Nat}

def MarketsTable.listed (table : MarketsTable) (collate : Collation)
    (status category : Option String) : List Market :=
  newestFirst collate Market.createdAt Market.id
    (table.rows.filter (fun m => m.passes (sqlStatus status) category))

private theorem MarketsTable.mem_listed {m : Market}
    (member : m ∈ table.listed collate status category) :
    m ∈ table.rows :=
  (List.mem_filter.mp ((List.mergeSort_perm _ _).subset member)).1

def cursorSelects (py : TextCodec) (collate : Collation) (cursor : String) (m : Market) : Bool :=
  match cursorDecode py (some cursor) with
  | .ok (.str ts, .str (.unicode id)) => m.beyond collate (py.fromisoformat ts) (some id)
  | _ => false

private theorem cursorSelects_encode {a : Market} (back : py.ReadsBack a) (b : Market) :
    cursorSelects py collate (cursorEncode py a) b = decide (Market.Newer collate a b) := by
  simp only [cursorSelects, cursorDecode_encode back, back.datetime, Market.beyond_cursor]

private theorem Driver.bindText_filter {filter : Option String}
    (takes : driver.takesFilter filter) :
    driver.bindText (.ofOption filter) = .ok filter := by
  cases filter with
  | none => rfl
  | some text => exact if_pos (takes text rfl)

section Answer

variable {cursor : Option String} {ts id : Json} {cursorTsDt cursorTs : Option Timestamp}
  {cursorId : Option String}

theorem listMarkets_at (decoded : cursorDecode py cursor = .ok (ts, id))
    (time : parseTimestamp py ts = .ok cursorTsDt)
    (bound : driver.bindTimestamp cursorTsDt = .ok cursorTs)
    (text : driver.bindText id = .ok cursorId) :
    MarketApplicationService.listMarkets collate py driver table status category cursor limit = (do
      let status ← driver.bindText (.ofOption (sqlStatus status))
      let category ← driver.bindText (.ofOption category)
      return Page.ofLookahead limit (cursorEncode py) (MarketListItem.fromDomain py)
        (newestFirst collate Market.createdAt Market.id (table.rows.filter (fun m =>
          m.passes status category && m.beyond collate cursorTs cursorId)))) := by
  simp only [MarketApplicationService.listMarkets, decoded, MarketRepository.listMarkets, ok_bind,
    time, bound, text]
  cases driver.bindText (.ofOption (sqlStatus status)) with
  | error e => rfl
  | ok status =>
    cases driver.bindText (.ofOption category) with
    | error e => rfl
    | ok category =>
      simp only [ok_bind, pure, Except.pure, Page.ofLookahead_take]

theorem listMarkets_ok (decoded : cursorDecode py cursor = .ok (ts, id))
    (time : parseTimestamp py ts = .ok cursorTsDt)
    (bound : driver.bindTimestamp cursorTsDt = .ok cursorTs)
    (text : driver.bindText id = .ok cursorId) (active : driver.takesFilter (sqlStatus status))
    (named : driver.takesFilter category) :
    MarketApplicationService.listMarkets collate py driver table status category cursor limit =
      .ok (Page.ofLookahead limit (cursorEncode py) (MarketListItem.fromDomain py)
        (newestFirst collate Market.createdAt Market.id (table.rows.filter (fun m =>
          m.passes (sqlStatus status) category && m.beyond collate cursorTs cursorId)))) := by
  rw [listMarkets_at decoded time bound text, Driver.bindText_filter active,
    Driver.bindText_filter named]
  rfl

end Answer

private theorem listMarkets_serves (back : ∀ m ∈ table.rows, py.ReadsBack m ∧ driver.TakesBack m)
    (active : driver.takesFilter (sqlStatus status)) (named : driver.takesFilter category) :
    Serves limit (cursorEncode py) (MarketListItem.fromDomain py)
      (table.listed collate status category) (cursorSelects py collate)
      (fun cursor => (MarketApplicationService.listMarkets collate py driver table status category
        cursor limit).toOption) := by
  constructor
  · have rows : ∀ m : Market, m.beyond collate none none = true := fun _ => rfl
    rw [listMarkets_ok (cursorDecode_none py) rfl rfl rfl active named]
    simp only [rows, Bool.and_true]
    rfl
  · intro a member
    obtain ⟨here, takes⟩ := back a (MarketsTable.mem_listed member)
    have after : (fun m : Market => m.passes (sqlStatus status) category &&
        m.beyond collate (some a.createdAt) (some a.id)) = (fun m =>
          cursorSelects py collate (cursorEncode py a) m &&
            m.passes (sqlStatus status) category) := by
      funext m
      rw [cursorSelects_encode here, Market.beyond_cursor, Bool.and_comm]
    have keyed : ((table.rows.filter (fun m => m.passes (sqlStatus status) category)).map
        Market.id).Nodup := table.keyed.sublist (List.filter_sublist.map Market.id)
    have time : parseTimestamp py (.str (py.isoformat a.createdAt)) = .ok (some a.createdAt) := by
      simp only [parseTimestamp, here.datetime]
    have bound : driver.bindTimestamp (some a.createdAt) = .ok (some a.createdAt) :=
      if_pos takes.createdAt
    have text : driver.bindText (.str a.id) = .ok (some a.id) := if_pos takes.id
    rw [listMarkets_ok (cursorDecode_encode here) time bound text active named, after,
      ← List.filter_filter, newestFirst_filter keyed]
    rfl

/-- Whoever follows the cursors of the list reads the filtered markets newest
first, each once, in full pages but for the last. -/
def PagesExact (py : TextCodec) (driver : Driver) (collate : Collation) (table : MarketsTable)
    (status category : Option String) (limit : Nat) : Prop :=
  ∃ (ms : List Market) (pages : List (List MarketListItem)),
    ms.Perm (table.rows.filter (fun m => m.passes (sqlStatus status) category)) ∧
    ms.Pairwise (Market.Newer collate) ∧
    (∀ read, Follows (fun cursor => (MarketApplicationService.listMarkets collate py driver table
      status category cursor limit).toOption) none read ↔ read = pages) ∧
    pages.flatten = ms.map (MarketListItem.fromDomain py) ∧
    ∀ page ∈ pages.dropLast, page.length = limit

/-- The pages are exact under every filter that can be bound, every limit and every
collation of the database, and a cursor names the market that it was made of. -/
theorem market_pages_exact (back : ∀ m ∈ table.rows, py.ReadsBack m ∧ driver.TakesBack m)
    (active : driver.takesFilter (sqlStatus status)) (named : driver.takesFilter category)
    (some_ : 0 < limit) :
    PagesExact py driver collate table status category limit ∧
    ∀ m ∈ table.rows, cursorDecode py (some (cursorEncode py m)) =
        .ok (.str (py.isoformat m.createdAt), .str m.id) ∧
      parseTimestamp py (.str (py.isoformat m.createdAt)) = .ok (some m.createdAt) := by
  have keyed : ((table.rows.filter (fun m => m.passes (sqlStatus status) category)).map
      Market.id).Nodup := table.keyed.sublist (List.filter_sublist.map Market.id)
  have sorted : (table.listed collate status category).Pairwise (Market.Newer collate) :=
    newestFirst_sorted keyed
  have start : Issued (cursorEncode py) (table.listed collate status category) none :=
    fun d equal => by cases equal
  have resumes : Resumes limit (cursorEncode py)
      (rowsFrom (table.listed collate status category) (cursorSelects py collate))
      (table.listed collate status category) :=
    resumes_of_sorted (fun _ _ newer => newer.asymm) sorted
      (fun a member b => cursorSelects_encode (back a (MarketsTable.mem_listed member)).1 b)
  obtain ⟨pages, follows, whole, full⟩ := follows_of_resumes some_
    (listMarkets_serves back active named)
    (table.listed collate status category).length start le_rfl resumes
  refine ⟨⟨table.listed collate status category, pages, List.mergeSort_perm _ _, sorted, ?_, whole,
    full⟩, ?_⟩
  · intro read
    exact ⟨fun reads => reads.unique follows, fun same => same ▸ follows⟩
  · intro m member
    refine ⟨cursorDecode_encode (back m member).1, ?_⟩
    simp only [parseTimestamp, (back m member).1.datetime]

end Pages

section Example

private def newYear : Timestamp := 1767571200000000

def sampleMarket (id : MarketId) (createdAt : Timestamp) : Market where
  id := id
  title := "Rain"
  description := none
  category := some "weather"
  status := "ACTIVE"
  minPriceCents := 1
  maxPriceCents := 99
  makerFeeBps := 10
  takerFeeBps := 20
  reserveBalance := 500000
  totalYesShares := 5000
  totalNoShares := 5000
  tradingStartAt := none
  resolutionDate := none
  createdAt := createdAt

def tiedMarkets : MarketsTable := ⟨[sampleMarket "a" newYear, sampleMarket "b" newYear], by decide⟩

def tiedCodec : TextCodec where
  loads
    | "eyJ0cyI6ICIyMDI2LTAxLTA1VDAwOjAwOjAwKzAwOjAwIiwgImlkIjogImEifQ==" =>
      some (.obj [("ts", .str "2026-01-05T00:00:00+00:00"), ("id", .str "a")])
    | "eyJ0cyI6ICIyMDI2LTAxLTA1VDAwOjAwOjAwKzAwOjAwIiwgImlkIjogImIifQ==" =>
      some (.obj [("ts", .str "2026-01-05T00:00:00+00:00"), ("id", .str "b")])
    | _ => none
  dumps
    | .obj [_, ("id", .str "a")] =>
      "eyJ0cyI6ICIyMDI2LTAxLTA1VDAwOjAwOjAwKzAwOjAwIiwgImlkIjogImEifQ=="
    | _ => "eyJ0cyI6ICIyMDI2LTAxLTA1VDAwOjAwOjAwKzAwOjAwIiwgImlkIjogImIifQ=="
  isoformat _ := "2026-01-05T00:00:00+00:00"
  fromisoformat _ := some newYear

def sampleDriver : Driver where
  takesText text := !text.toList.contains (Char.ofNat 0)
  takesTimestamp ts := -62135596800000000 ≤ ts && ts < 253402300800000000

/-- A page that ends between two markets of one instant. -/
theorem tied_markets_paged :
    PagesExact tiedCodec sampleDriver .codePoints tiedMarkets none (some "weather") 1 ∧
    ∀ m ∈ tiedMarkets.rows, cursorDecode tiedCodec (some (cursorEncode tiedCodec m)) =
        .ok (.str (tiedCodec.isoformat m.createdAt), .str m.id) ∧
      parseTimestamp tiedCodec (.str (tiedCodec.isoformat m.createdAt)) =
        .ok (some m.createdAt) := by
  refine market_pages_exact (fun m member => ?_) ?_ ?_ Nat.one_pos
  · rcases List.mem_cons.mp member with rfl | other
    · exact ⟨⟨rfl, rfl⟩, ⟨by decide, by decide⟩⟩
    · obtain rfl := List.mem_singleton.mp other
      exact ⟨⟨rfl, rfl⟩, ⟨by decide, by decide⟩⟩
  · rintro _ ⟨⟩
    decide
  · rintro _ ⟨⟩
    decide

end Example

end PredictionMarket
