/- PredictionMarket/Common/IdGenerator
   digest: The snowflake id generator increases as long as its clock never steps back. -/

import Mathlib.Data.List.Chain
import Mathlib.Algebra.Order.Ring.Int
import Mathlib.Tactic.Linarith

set_option autoImplicit false
set_option relaxedAutoImplicit false

namespace PredictionMarket

namespace SnowflakeIdGenerator

def EPOCH_MS : Nat := 1700000000000

def MACHINE_BITS : Nat := 10

def SEQUENCE_BITS : Nat := 12

def MAX_SEQUENCE : Nat := (1 <<< SEQUENCE_BITS) - 1

end SnowflakeIdGenerator

open SnowflakeIdGenerator in
/-- The generator between two calls. Its machine id and its sequence fit their
bits; the last timestamp is -1 before the first call. -/
structure SnowflakeIdGenerator where
  machineId : Nat
  sequence : Nat
  lastTimestampMs : Int
  machineFits : machineId < 1 <<< MACHINE_BITS
  sequenceFits : sequence ≤ MAX_SEQUENCE

namespace SnowflakeIdGenerator

/-- The constructor, with the text of its `ValueError`. -/
def init (machineId : Int) : Except String SnowflakeIdGenerator :=
  if fits : 0 ≤ machineId ∧ machineId < (1 <<< MACHINE_BITS : Nat) then
    .ok ⟨machineId.toNat, 0, -1, by omega, Nat.zero_le _⟩
  else .error s!"machine_id must be 0-{(1 <<< MACHINE_BITS) - 1}"

/-- `_wait_next_ms` on the readings that the clock still gives. -/
def waitNextMs (lastTs : Nat) : List Nat → Option (Nat × List Nat)
  | [] => none
  | ts :: clock => if ts ≤ lastTs then waitNextMs lastTs clock else some (ts, clock)

def pack (ts machineId sequence : Nat) : Nat :=
  ((ts - EPOCH_MS) <<< (MACHINE_BITS + SEQUENCE_BITS)) ||| (machineId <<< SEQUENCE_BITS) |||
    sequence

private theorem and_maxSequence_le (n : Nat) : n &&& MAX_SEQUENCE ≤ MAX_SEQUENCE := Nat.and_le_right

/-- One call on the readings of the clock; `none` when they end before it returns.
The caller gets the decimal text of the integer. -/
def nextId (g : SnowflakeIdGenerator) : List Nat →
    Option (Nat × SnowflakeIdGenerator × List Nat)
  | [] => none
  | ts :: clock =>
    if ts = g.lastTimestampMs then
      let sequence := (g.sequence + 1) &&& MAX_SEQUENCE
      let fits := and_maxSequence_le (g.sequence + 1)
      if sequence = 0 then
        (waitNextMs ts clock).map (fun (ts, clock) =>
          (pack ts g.machineId sequence, ⟨g.machineId, sequence, ts, g.machineFits, fits⟩, clock))
      else
        some (pack ts g.machineId sequence, ⟨g.machineId, sequence, ts, g.machineFits, fits⟩, clock)
    else
      some (pack ts g.machineId 0, ⟨g.machineId, 0, ts, g.machineFits, Nat.zero_le _⟩, clock)

/-- Successive calls, each with the readings that it makes; a call that leaves
some of its readings unread is none. -/
def nextIds (g : SnowflakeIdGenerator) : List (List Nat) → Option (List Nat)
  | [] => some []
  | readings :: calls =>
    match g.nextId readings with
    | some (id, g, []) => (g.nextIds calls).map (id :: ·)
    | _ => none

private theorem pack_eq {ts machineId sequence : Nat} (machine : machineId < 1 <<< MACHINE_BITS)
    (fits : sequence ≤ MAX_SEQUENCE) :
    pack ts machineId sequence = ((ts - EPOCH_MS) * 1024 + machineId) * 4096 + sequence := by
  have bound : machineId < 2 ^ 10 := machine
  have low : sequence < 2 ^ 12 := Nat.lt_succ_of_le fits
  have middle : machineId <<< 12 ||| sequence = machineId * 4096 + sequence := by
    rw [← Nat.shiftLeft_add_eq_or_of_lt low, Nat.shiftLeft_eq]
  have small : machineId * 4096 + sequence < 2 ^ 22 := by omega
  have whole := Nat.shiftLeft_add_eq_or_of_lt small (ts - EPOCH_MS)
  unfold pack
  rw [Nat.or_assoc]
  change (ts - EPOCH_MS) <<< 22 ||| (machineId <<< 12 ||| sequence) = _
  rw [middle, ← whole, Nat.shiftLeft_eq]
  omega

private theorem waitNextMs_some {lastTs ts : Nat} {clock : List Nat}
    (done : waitNextMs lastTs clock = some (ts, [])) :
    lastTs < ts ∧ clock.getLast? = some ts := by
  induction clock with
  | nil => cases done
  | cons now clock ih =>
    rw [waitNextMs] at done
    split at done
    · obtain ⟨later, last⟩ := ih done
      refine ⟨later, ?_⟩
      rw [List.getLast?_cons, last, Option.getD_some]
    · next later =>
      simp only [Option.some.injEq, Prod.mk.injEq] at done
      obtain ⟨rfl, rfl⟩ := done
      exact ⟨not_le.mp later, rfl⟩

/-- Everything that a call does: it takes its last reading as the timestamp, and
the sequence starts again unless the clock still shows the last timestamp. -/
private theorem nextId_some {g g' : SnowflakeIdGenerator} {readings : List Nat} {id : Nat}
    (done : g.nextId readings = some (id, g', [])) :
    ∃ now ts, readings.head? = some now ∧ readings.getLast? = some ts ∧
      g'.lastTimestampMs = ts ∧ g'.machineId = g.machineId ∧ id = pack ts g'.machineId g'.sequence ∧
      if now = g.lastTimestampMs then
        ts = now ∧ g'.sequence = g.sequence + 1 ∨ now < ts
      else ts = now ∧ g'.sequence = 0 := by
  cases readings with
  | nil => cases done
  | cons now clock =>
    rw [nextId] at done
    split at done
    · next same =>
      simp only at done
      split at done
      · obtain ⟨⟨ts, rest⟩, waited, equal⟩ := Option.map_eq_some_iff.mp done
        simp only [Prod.mk.injEq] at equal
        obtain ⟨rfl, rfl, rfl⟩ := equal
        obtain ⟨later, last⟩ := waitNextMs_some waited
        refine ⟨now, ts, rfl, ?_, rfl, rfl, rfl, ?_⟩
        · rw [List.getLast?_cons, last, Option.getD_some]
        · rw [if_pos same]
          exact Or.inr later
      · next counted =>
        simp only [Option.some.injEq, Prod.mk.injEq] at done
        obtain ⟨rfl, rfl, rfl⟩ := done
        refine ⟨now, now, rfl, rfl, rfl, rfl, rfl, ?_⟩
        rw [if_pos same]
        -- The sequence wraps to zero only at its maximum.
        have small : g.sequence + 1 < 4096 := by
          by_contra full
          have top : g.sequence + 1 = 4096 := by
            have fits : g.sequence ≤ 4095 := g.sequenceFits
            omega
          exact counted (by rw [top]; rfl)
        refine Or.inl ⟨rfl, ?_⟩
        exact (Nat.and_two_pow_sub_one_eq_mod (g.sequence + 1) 12).trans (Nat.mod_eq_of_lt small)
    · next other =>
      simp only [Option.some.injEq, Prod.mk.injEq] at done
      obtain ⟨rfl, rfl, rfl⟩ := done
      refine ⟨now, now, rfl, rfl, rfl, rfl, rfl, ?_⟩
      rw [if_neg other]
      exact ⟨rfl, rfl⟩

/-- The id of a call lies above an earlier id of the same generator exactly when
its first reading is not before the timestamp of that id. -/
private theorem lt_nextId {g g' : SnowflakeIdGenerator} {readings : List Nat} {before id now : Nat}
    (done : g.nextId readings = some (id, g', [])) (first : readings.head? = some now)
    (last : g.lastTimestampMs = before) (old : EPOCH_MS ≤ before)
    (range : ∀ ts ∈ readings, EPOCH_MS ≤ ts) :
    pack before g.machineId g.sequence < id ↔ before ≤ now := by
  obtain ⟨now', ts, head, final, _, machine, packed, moved⟩ := nextId_some done
  obtain rfl : now' = now := Option.some.inj (head.symm.trans first)
  have fitsBefore : g.machineId < 1024 := g.machineFits
  have low : g.sequence ≤ 4095 := g.sequenceFits
  have low' : g'.sequence ≤ 4095 := g'.sequenceFits
  have start : EPOCH_MS ≤ now' := range now' (List.mem_of_mem_head? head)
  have stop : EPOCH_MS ≤ ts := range ts (List.mem_of_mem_getLast? final)
  rw [packed, pack_eq g.machineFits g.sequenceFits, pack_eq g'.machineFits g'.sequenceFits, machine]
  simp only [last, Nat.cast_inj] at moved
  split at moved
  · next same =>
    have later : before ≤ now' := same.ge
    simp only [later, iff_true]
    rcases moved with ⟨still, counted⟩ | waited
    · rw [still, counted, same]
      omega
    · have gap : before - EPOCH_MS < ts - EPOCH_MS := by omega
      omega
  · next other =>
    rw [moved.1, moved.2]
    constructor
    · intro above
      by_contra back
      have gap : now' - EPOCH_MS < before - EPOCH_MS := by omega
      omega
    · intro later
      have gap : before - EPOCH_MS < now' - EPOCH_MS := by omega
      omega

/-- The clock does not step back between two calls: the first reading of the
second is not before the last one of the first. -/
def Forward (first second : List Nat) : Prop :=
  ∀ before ∈ first.getLast?, ∀ now ∈ second.head?, before ≤ now

private theorem nextIds_cons {g : SnowflakeIdGenerator} {readings : List Nat}
    {calls : List (List Nat)}
    {ids : List Nat} (done : g.nextIds (readings :: calls) = some ids) :
    ∃ id g' rest, g.nextId readings = some (id, g', []) ∧ g'.nextIds calls = some rest ∧
      ids = id :: rest := by
  rw [nextIds] at done
  split at done
  · next id g' issued =>
    obtain ⟨rest, later, rfl⟩ := Option.map_eq_some_iff.mp done
    exact ⟨id, g', rest, issued, later, rfl⟩
  · cases done

private theorem chain_iff {calls : List (List Nat)} : ∀ {g g' : SnowflakeIdGenerator}
    {readings : List Nat} {id : Nat} {ids : List Nat},
    g.nextId readings = some (id, g', []) → g'.nextIds calls = some ids →
    (∀ call ∈ readings :: calls, ∀ ts ∈ call, EPOCH_MS ≤ ts) →
    ((id :: ids).IsChain (· < ·) ↔ (readings :: calls).IsChain Forward) := by
  induction calls with
  | nil =>
    intro g g' readings id ids _ rest _
    obtain rfl := Option.some.inj rest
    simp
  | cons next calls ih =>
    intro g g' readings id ids issued rest range
    obtain ⟨id', g'', ids', issued', rest', rfl⟩ := nextIds_cons rest
    have tail := ih issued' rest' (fun call member => range call (List.mem_cons_of_mem _ member))
    obtain ⟨_, ts, _, last, stamp, _, packed, _⟩ := nextId_some issued
    obtain ⟨now, _, first, _⟩ := nextId_some issued'
    have old : EPOCH_MS ≤ ts := range readings List.mem_cons_self ts
      (List.mem_of_mem_getLast? last)
    have step := lt_nextId issued' first stamp old
      (range next (List.mem_cons_of_mem _ List.mem_cons_self))
    have forward : Forward readings next ↔ ts ≤ now := by simp [Forward, last, first]
    rw [List.isChain_cons_cons, List.isChain_cons_cons, tail, forward, packed, step]

theorem nextIds_isChain_iff {g : SnowflakeIdGenerator} {calls : List (List Nat)} {ids : List Nat}
    (issued : g.nextIds calls = some ids) (range : ∀ call ∈ calls, ∀ ts ∈ call, EPOCH_MS ≤ ts) :
    ids.IsChain (· < ·) ↔ calls.IsChain Forward := by
  cases calls with
  | nil =>
    obtain rfl := Option.some.inj issued
    simp
  | cons readings calls =>
    obtain ⟨id, g', rest, first, later, rfl⟩ := nextIds_cons issued
    exact chain_iff first later range

theorem nextIds_length {calls : List (List Nat)} : ∀ {g : SnowflakeIdGenerator} {ids : List Nat},
    g.nextIds calls = some ids → ids.length = calls.length := by
  induction calls with
  | nil =>
    intro g ids issued
    obtain rfl := Option.some.inj issued
    rfl
  | cons readings calls ih =>
    intro g ids issued
    obtain ⟨id, g', rest, _, later, rfl⟩ := nextIds_cons issued
    rw [List.length_cons, List.length_cons, ih later]

/-- The ids of a generator are strictly increasing, whatever its machine id and
its state, exactly when no call first reads a time before the last one read by
the call before it. -/
theorem ids_increase_iff {g : SnowflakeIdGenerator} {calls : List (List Nat)} {ids : List Nat}
    (issued : g.nextIds calls = some ids) (range : ∀ call ∈ calls, ∀ ts ∈ call, EPOCH_MS ≤ ts) :
    ids.Pairwise (· < ·) ↔ calls.IsChain Forward := by
  rw [← List.isChain_iff_pairwise]
  exact nextIds_isChain_iff issued range

/-- Two ids of one millisecond, and one of the next. -/
theorem forward_clock_increases :
    [29364224, 29364225, 33558528].Pairwise (· < ·) ↔
      [[EPOCH_MS + 7], [EPOCH_MS + 7], [EPOCH_MS + 8]].IsChain Forward :=
  ids_increase_iff (g := ⟨1, 0, -1, by decide, by decide⟩) (by decide) (by decide)

/-- A clock that steps back by a millisecond and recovers gives one id twice. -/
theorem clock_step_back_repeats_id : ∃ g calls ids, init 0 = .ok g ∧ g.nextIds calls = some ids ∧
    (∀ call ∈ calls, ∀ ts ∈ call, EPOCH_MS ≤ ts ∧ ts - EPOCH_MS < 2 ^ 41) ∧
    ¬ ids.Pairwise (· < ·) ∧ ¬ ids.Nodup :=
  ⟨⟨0, 0, -1, by decide, by decide⟩, [[EPOCH_MS + 5], [EPOCH_MS + 4], [EPOCH_MS + 5]],
    [20971520, 16777216, 20971520], rfl, by decide, by decide, by decide, by decide⟩

end SnowflakeIdGenerator

end PredictionMarket
