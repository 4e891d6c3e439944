/- PredictionMarket/Market/Cursor
   digest: Markets as the read side sees them, and the cursor between two pages of them. -/

import PredictionMarket.Domain.Types
import PredictionMarket.Store.Query

set_option autoImplicit false
set_option relaxedAutoImplicit false

namespace PredictionMarket

/-- The fields of a market that the list shows, with its creation time. -/
structure Market where
  id : MarketId
  title : String
  description : Option String
  category : Option String
  status : String
  minPriceCents : Int
  maxPriceCents : Int
  makerFeeBps : Int
  takerFeeBps : Int
  reserveBalance : Int
  totalYesShares : Int
  totalNoShares : Int
  tradingStartAt : Option Timestamp
  resolutionDate : Option Timestamp
  createdAt : Timestamp

/-- A text of Python. With a lone surrogate, which an escape can name, it has no
encoding. -/
inductive PyStr
  | unicode (text : String)
  | surrogates (codePoints : List Nat)
  deriving DecidableEq

instance : Coe String PyStr := ⟨.unicode⟩

/-- What `json.loads` can return. -/
inductive Json
  | null
  | bool (b : Bool)
  | number (literal : String)
  | str (text : PyStr)
  | arr (items : List Json)
  | obj (fields : List (String × Json))

/-- `None` is `null`. -/
def Json.ofOption : Option String → Json
  | none => .null
  | some text => .str text

/-- The exception classes of the listing. A Unicode error is a `valueError`; a
`dataError` is the refusal of a query for one of its parameters. -/
inductive PyErr
  | valueError | keyError | typeError | dataError
  deriving DecidableEq

/-- `data[key]` with a text key, which only an object takes. -/
def Json.subscript (data : Json) (key : String) : Except PyErr Json :=
  match data with
  | .obj fields =>
    match fields.lookup key with
    | some value => .ok value
    | none => .error .keyError
  | _ => .error .typeError

/-- The functions of the Python library that cursors go through. `loads` is
`json.loads(base64.b64decode(s.encode()).decode())` and `dumps` the way back;
`none` is a `ValueError`. A `datetime` is the instant that it names. -/
structure TextCodec where
  loads : String → Option Json
  dumps : Json → String
  isoformat : Timestamp → String
  fromisoformat : PyStr → Option Timestamp

variable (py : TextCodec)

def cursorPayload (m : Market) : Json :=
  .obj [("ts", .str (py.isoformat m.createdAt)), ("id", .str m.id)]

def cursorEncode (lastMarket : Market) : String := py.dumps (cursorPayload py lastMarket)

/-- The library reads back what it wrote for the cursor of a market. -/
structure TextCodec.ReadsBack (m : Market) : Prop where
  json : py.loads (py.dumps (cursorPayload py m)) = some (cursorPayload py m)
  datetime : py.fromisoformat (py.isoformat m.createdAt) = some m.createdAt

def cursorFields (cursor : String) : Except PyErr (Json × Json) := do
  match py.loads cursor with
  | none => throw .valueError
  | some data =>
    let ts ← data.subscript "ts"
    let id ← data.subscript "id"
    return (ts, id)

/-- Decode composite cursor. The handler lists the `ValueError`s and `KeyError`;
anything else passes through. `None` is `null`. -/
def cursorDecode : Option String → Except PyErr (Json × Json)
  | none => .ok (.null, .null)
  | some cursor =>
    match cursorFields py cursor with
    | .error .valueError | .error .keyError => .ok (.null, .null)
    | outcome => outcome

theorem cursorDecode_none : cursorDecode py none = .ok (.null, .null) := rfl

variable {py}

theorem cursorDecode_encode {m : Market} (back : py.ReadsBack m) :
    cursorDecode py (some (cursorEncode py m)) =
      .ok (.str (py.isoformat m.createdAt), .str m.id) := by
  have fields : cursorFields py (cursorEncode py m) =
      .ok (.str (py.isoformat m.createdAt), .str m.id) := by
    simp only [cursorFields, cursorEncode, back.json]
    rfl
  simp only [cursorDecode, fields]

end PredictionMarket
