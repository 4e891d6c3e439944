/- PredictionMarket/Market/MalformedCursor
   digest: Which texts the market list takes as a cursor without failing. -/

import PredictionMarket.Market.Listing

set_option autoImplicit false
set_option relaxedAutoImplicit false

namespace PredictionMarket

open Library

variable (py : TextCodec) (driver : Driver)

/-- A cursor of the documented form: an object with a timestamp and an id, both
texts. -/
def WellFormedCursor (cursor : String) : Prop :=
  ∃ fields ts id t, py.loads cursor = some (.obj fields) ∧ fields.lookup "ts" = some (.str ts) ∧
    fields.lookup "id" = some (.str id) ∧ py.fromisoformat ts = some t

/-- The decoder returns a pair whose timestamp can be parsed. The list answers whatever it
answers without a cursor, with its first page if the cursor is malformed. -/
structure Tolerated (cursor : String) : Prop where
  decodes : ∃ ts id t, cursorDecode py (some cursor) = .ok (ts, id) ∧ parseTimestamp py ts = .ok t
  answers : ∀ collate table status category limit page,
    MarketApplicationService.listMarkets collate py driver table status category none limit =
        .ok page →
      ∃ page', MarketApplicationService.listMarkets collate py driver table status category
        (some cursor) limit = .ok page'
  firstPage : ¬ WellFormedCursor py cursor → ∀ collate table status category limit,
    MarketApplicationService.listMarkets collate py driver table status category (some cursor)
        limit =
      MarketApplicationService.listMarkets collate py driver table status category none limit

/-- An id that can be bound next to a timestamp, or without one. -/
def idFits (withTime : Bool) : Json → Bool
  | .str (.unicode text) => driver.takesText text
  | .null => !withTime
  | _ => false

/-- Nothing that can be decoded, or an object that lacks a field, or one whose timestamp is
null or a text of the expected form for an instant that can be bound, and whose id fits. -/
def Readable (cursor : String) : Prop :=
  match py.loads cursor with
  | none => True
  | some (.obj fields) =>
    match fields.lookup "ts", fields.lookup "id" with
    | some .null, some id => idFits driver false id = true
    | some (.str ts), some id =>
      (py.fromisoformat ts).any driver.takesTimestamp = true ∧ idFits driver true id = true
    | some _, some _ => False
    | _, _ => True
  | some _ => False

variable {py : TextCodec} {driver : Driver} {cursor : String}

section Decode

variable {fields : List (String × Json)}

private theorem cursorDecode_undecodable (loaded : py.loads cursor = none) :
    cursorDecode py (some cursor) = .ok (.null, .null) := by
  simp only [cursorDecode, cursorFields, loaded]
  rfl

private theorem cursorDecode_missing (loaded : py.loads cursor = some (.obj fields))
    (missing : fields.lookup "ts" = none ∨ fields.lookup "id" = none) :
    cursorDecode py (some cursor) = .ok (.null, .null) := by
  cases time : fields.lookup "ts" with
  | none =>
    simp only [cursorDecode, cursorFields, loaded, Json.subscript, time]
    rfl
  | some ts =>
    have absent : fields.lookup "id" = none := by simpa [time] using missing
    simp only [cursorDecode, cursorFields, loaded, Json.subscript, time, absent]
    rfl

private theorem cursorDecode_fields {ts id : Json} (loaded : py.loads cursor = some (.obj fields))
    (time : fields.lookup "ts" = some ts) (named : fields.lookup "id" = some id) :
    cursorDecode py (some cursor) = .ok (ts, id) := by
  simp only [cursorDecode, cursorFields, loaded, Json.subscript, time, named]
  rfl

/-- A value that is no object cannot be subscripted, which the handler misses. -/
private theorem cursorDecode_no_object {data : Json} (loaded : py.loads cursor = some data)
    (other : ∀ fields, data ≠ .obj fields) :
    cursorDecode py (some cursor) = .error .typeError := by
  cases data with
  | obj fields => exact absurd rfl (other fields)
  | _ =>
    simp only [cursorDecode, cursorFields, loaded, Json.subscript]
    rfl

end Decode

section Fields

variable {ts id : Json} {cursorTsDt cursorTs : Option Timestamp} {cursorId : Option String}

private theorem Tolerated.of_binds (decoded : cursorDecode py (some cursor) = .ok (ts, id))
    (time : parseTimestamp py ts = .ok cursorTsDt)
    (bound : driver.bindTimestamp cursorTsDt = .ok cursorTs)
    (text : driver.bindText id = .ok cursorId)
    (form : ¬ WellFormedCursor py cursor → cursorTs = none) : Tolerated py driver cursor where
  decodes := ⟨ts, id, cursorTsDt, decoded, time⟩
  answers := by
    intro collate table status category limit page done
    rw [listMarkets_at (cursorDecode_none py) rfl rfl rfl] at done
    simp only [bind_eq_ok] at done
    obtain ⟨status', active, category', named, _⟩ := done
    rw [listMarkets_at decoded time bound text, active, ok_bind, named]
    exact ⟨_, rfl⟩
  firstPage := by
    intro malformed collate table status category limit
    obtain rfl := form malformed
    rw [listMarkets_at decoded time bound text, listMarkets_at (cursorDecode_none py) rfl rfl rfl]
    rfl

/-- The list of all markets has a first page, so what cannot be bound fails it. -/
private theorem Tolerated.binds (tolerated : Tolerated py driver cursor)
    (decoded : cursorDecode py (some cursor) = .ok (ts, id))
    (time : parseTimestamp py ts = .ok cursorTsDt) :
    (∃ t, driver.bindTimestamp cursorTsDt = .ok t) ∧ ∃ i, driver.bindText id = .ok i := by
  obtain ⟨page, done⟩ := tolerated.answers .codePoints ⟨[], List.nodup_nil⟩ (some "ALL") none 1 _
    (listMarkets_ok (cursorDecode_none py) rfl rfl rfl driver.takesFilter_none
      driver.takesFilter_none)
  simp only [MarketApplicationService.listMarkets, decoded, ok_bind, MarketRepository.listMarkets,
    time, bind_eq_ok] at done
  obtain ⟨_, ⟨_, _, _, _, t, bound, i, text, _⟩, _⟩ := done
  exact ⟨⟨t, bound⟩, ⟨i, text⟩⟩

/-- A timestamp without an id skips the markets of its own instant, which the first page
has. -/
private theorem Tolerated.wellFormed_of_time {t : Timestamp}
    (tolerated : Tolerated py driver cursor)
    (decoded : cursorDecode py (some cursor) = .ok (ts, .null))
    (time : parseTimestamp py ts = .ok (some t))
    (bound : driver.bindTimestamp (some t) = .ok (some t)) : WellFormedCursor py cursor := by
  by_contra malformed
  have same := tolerated.firstPage malformed .codePoints
    ⟨[sampleMarket "a" t], List.nodup_singleton _⟩ (some "ALL") none 1
  have all : driver.takesFilter (sqlStatus (some "ALL")) := driver.takesFilter_none
  rw [listMarkets_ok decoded time bound rfl all driver.takesFilter_none,
    listMarkets_ok (cursorDecode_none py) rfl rfl rfl all driver.takesFilter_none] at same
  have items := congrArg (fun page => page.items.length) (Except.ok.inj same)
  simp [Page.ofLookahead, newestFirst, sqlStatus, Market.passes, Market.beyond,
    sampleMarket] at items

end Fields

section Object

variable {fields : List (String × Json)} {id : Json}

private theorem wellFormedCursor_iff {ts : Json} (loaded : py.loads cursor = some (.obj fields))
    (time : fields.lookup "ts" = some ts) (named : fields.lookup "id" = some id) :
    WellFormedCursor py cursor ↔
      ∃ text name t, ts = .str text ∧ id = .str name ∧ py.fromisoformat text = some t := by
  simp only [WellFormedCursor, loaded, Option.some.injEq, Json.obj.injEq]
  constructor
  · rintro ⟨_, text, name, t, rfl, time', named', read⟩
    exact ⟨text, name, t, Option.some.inj (time.symm.trans time'),
      Option.some.inj (named.symm.trans named'), read⟩
  · rintro ⟨text, name, t, rfl, rfl, read⟩
    exact ⟨fields, text, name, t, rfl, time, named, read⟩

private theorem idFits_iff (withTime : Bool) : idFits driver withTime id = true ↔
    (∃ i, driver.bindText id = .ok i) ∧ (withTime = true → id ≠ .null) := by
  cases id with
  | str text =>
    cases text with
    | unicode text => by_cases takes : driver.takesText text <;> simp [idFits, Driver.bindText, takes]
    | surrogates codePoints => simp [idFits, Driver.bindText]
  | _ => simp [idFits, Driver.bindText]

private theorem tolerated_null_iff (loaded : py.loads cursor = some (.obj fields))
    (time : fields.lookup "ts" = some .null) (named : fields.lookup "id" = some id) :
    Tolerated py driver cursor ↔ idFits driver false id = true := by
  have decoded := cursorDecode_fields loaded time named
  rw [idFits_iff]
  constructor
  · intro tolerated
    exact ⟨(tolerated.binds decoded rfl).2, nofun⟩
  · rintro ⟨⟨i, text⟩, _⟩
    exact .of_binds decoded rfl rfl text (fun _ => rfl)

/-- A text for a timestamp needs the expected form, an instant and an id that can be bound,
and an id at all. -/
private theorem tolerated_text_iff {ts : PyStr} (loaded : py.loads cursor = some (.obj fields))
    (time : fields.lookup "ts" = some (.str ts)) (named : fields.lookup "id" = some id) :
    Tolerated py driver cursor ↔
      (py.fromisoformat ts).any driver.takesTimestamp = true ∧ idFits driver true id = true := by
  have decoded := cursorDecode_fields loaded time named
  cases read : py.fromisoformat ts with
  | none =>
    simp only [Option.any_none, Bool.false_eq_true, false_and, iff_false]
    intro tolerated
    obtain ⟨ts', id', t, decoded', parsed⟩ := tolerated.decodes
    obtain ⟨rfl, rfl⟩ := Prod.mk.inj (Except.ok.inj (decoded.symm.trans decoded'))
    simp [parseTimestamp, read] at parsed
  | some t =>
    have known : parseTimestamp py (.str ts) = .ok (some t) := by simp only [parseTimestamp, read]
    rw [Option.any_some, idFits_iff]
    constructor
    · intro tolerated
      obtain ⟨⟨t', bound⟩, text⟩ := tolerated.binds decoded known
      have takes : driver.takesTimestamp t = true := by
        by_contra refused
        simp [Driver.bindTimestamp, refused] at bound
      refine ⟨takes, text, ?_⟩
      rintro _ rfl
      obtain ⟨_, _, _, _, missing, _⟩ := (wellFormedCursor_iff loaded time named).mp
        (tolerated.wellFormed_of_time decoded known (if_pos takes))
      cases missing
    · rintro ⟨takes, ⟨i, text⟩, present⟩
      refine .of_binds decoded known (if_pos takes) text (fun malformed => ?_)
      cases id with
      | str name => exact absurd ((wellFormedCursor_iff loaded time named).mpr
          ⟨ts, name, t, rfl, rfl, read⟩) malformed
      | null => exact absurd rfl (present rfl)
      | _ => cases text

end Object

/-- The market list tolerates exactly the readable cursors. -/
theorem tolerated_iff (py : TextCodec) (driver : Driver) (cursor : String) :
    Tolerated py driver cursor ↔ Readable py driver cursor := by
  have firstPage : cursorDecode py (some cursor) = .ok (.null, .null) →
      Tolerated py driver cursor := fun decoded => .of_binds decoded rfl rfl rfl (fun _ => rfl)
  unfold Readable
  cases loaded : py.loads cursor with
  | none => simpa using firstPage (cursorDecode_undecodable loaded)
  | some data =>
    have crashes : (∀ fields, data ≠ .obj fields) → ¬ Tolerated py driver cursor := by
      intro other tolerated
      obtain ⟨ts, id, t, decoded, _⟩ := tolerated.decodes
      rw [cursorDecode_no_object loaded other] at decoded
      cases decoded
    cases data with
    | obj fields =>
      cases time : fields.lookup "ts" with
      | none => simpa [time] using firstPage (cursorDecode_missing loaded (Or.inl time))
      | some ts =>
        cases named : fields.lookup "id" with
        | none =>
          have tolerated := firstPage (cursorDecode_missing loaded (Or.inr named))
          cases ts <;> simpa [time, named] using tolerated
        | some id =>
          have untimed : (∀ t, parseTimestamp py ts ≠ .ok t) → ¬ Tolerated py driver cursor := by
            intro unread tolerated
            obtain ⟨ts', id', t, decoded, parsed⟩ := tolerated.decodes
            obtain ⟨rfl, rfl⟩ := Prod.mk.inj
              (Except.ok.inj ((cursorDecode_fields loaded time named).symm.trans decoded))
            exact unread t parsed
          cases ts with
          | null => simpa [time, named] using tolerated_null_iff loaded time named
          | str text => simpa [time, named] using tolerated_text_iff loaded time named
          | _ =>
            simp only [time, named, iff_false]
            exact untimed (fun t parsed => by cases parsed)
    | _ =>
      simp only [iff_false]
      exact crashes (fun fields same => by cases same)

/-- The base64 of `[]`, which decodes to a list: the list of markets fails, whatever the
driver takes. -/
theorem list_cursor_crashes : ∃ py : TextCodec, py.loads "W10=" = some (.arr []) ∧
    cursorDecode py (some "W10=") = .error .typeError ∧
    ∀ driver, ¬ Tolerated py driver "W10=" := by
  have crash : cursorDecode ⟨fun _ => some (.arr []), fun _ => "", fun _ => "", fun _ => none⟩
      (some "W10=") = .error .typeError := rfl
  refine ⟨_, rfl, crash, fun driver tolerated => ?_⟩
  obtain ⟨_, _, _, decoded, _⟩ := tolerated.decodes
  rw [crash] at decoded
  cases decoded

end PredictionMarket
