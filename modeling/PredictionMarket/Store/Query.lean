/- PredictionMarket/Store/Query
   digest: Texts and timestamps as the queries compare them, and rows listed newest first. -/

import Mathlib.Algebra.Order.Ring.Int
import Mathlib.Data.List.Dedup
import Mathlib.Data.List.Sort
import Mathlib.Data.String.Basic

set_option autoImplicit false
set_option relaxedAutoImplicit false

namespace PredictionMarket

abbrev Timestamp := Int

/-- How the database orders texts: a deterministic collation is a strict total
order, whichever it is. -/
structure Collation where
  lt : String → String → Bool
  irrefl : ∀ a, lt a a = false
  trans : ∀ a b c, lt a b = true → lt b c = true → lt a c = true
  total : ∀ a b, a ≠ b → lt a b = true ∨ lt b a = true

theorem Collation.asymm (collate : Collation) {a b : String} (below : collate.lt a b = true) :
    collate.lt b a = false := by
  by_contra above
  have loop := collate.trans a b a below (by simpa using above)
  rw [collate.irrefl] at loop
  cases loop

def Collation.codePoints : Collation where
  lt a b := a < b
  irrefl a := by simp
  trans a b c first second := by
    simp only [decide_eq_true_eq] at first second ⊢
    exact lt_trans first second
  total a b other := by
    simp only [decide_eq_true_eq]
    exact lt_or_gt_of_ne other

private theorem append_lt_append {l l' : List Char} (same : l.length = l'.length) (below : l < l')
    (k k' : List Char) : l ++ k < l' ++ k' := by
  induction l generalizing l' with
  | nil =>
    rw [List.length_nil, eq_comm, List.length_eq_zero_iff] at same
    rw [same] at below
    exact absurd below (List.not_lt_nil _)
  | cons c l ih =>
    cases l' with
    | nil => cases same
    | cons c' l' =>
      rw [List.cons_append, List.cons_append, List.cons_lt_cons_iff]
      rcases List.cons_lt_cons_iff.mp below with first | ⟨rfl, rest⟩
      · exact Or.inl first
      · exact Or.inr ⟨rfl, ih (Nat.succ.inj same) rest⟩

private theorem toDigits_lt (m : Nat) : ∀ n, (Nat.toDigits 10 m).length =
    (Nat.toDigits 10 n).length →
    m < n → Nat.toDigits 10 m < Nat.toDigits 10 n := by
  induction m using Nat.strong_induction_on with
  | _ m ih =>
    intro n same below
    have digit : ∀ a < 10, ∀ b < 10, a < b → [Nat.digitChar a] < [Nat.digitChar b] := by decide
    rcases Nat.lt_or_ge m 10 with small | large
    · have short : (Nat.toDigits 10 n).length ≤ 1 := by
        rw [← same, Nat.toDigits_of_lt_base small, List.length_singleton]
      have small' : n < 10 := (Nat.length_toDigits_le_iff (by decide) Nat.one_pos).mp short
      rw [Nat.toDigits_of_lt_base small, Nat.toDigits_of_lt_base small']
      exact digit m small n small' below
    · rw [Nat.toDigits_of_base_le (by decide) large,
        Nat.toDigits_of_base_le (by decide) (large.trans below.le)] at same ⊢
      simp only [List.length_append, List.length_singleton, Nat.add_right_cancel_iff] at same
      rcases Nat.lt_or_ge (m / 10) (n / 10) with front | equal
      · exact append_lt_append same (ih (m / 10) (by omega) (n / 10) same front) _ _
      · have front : m / 10 = n / 10 := by omega
        rw [front]
        exact List.append_left_lt (digit _ (Nat.mod_lt m (by decide)) _
          (Nat.mod_lt n (by decide)) (by omega))

theorem toString_lt {m n : Nat} (same : (toString m).length = (toString n).length) (below : m < n) :
    toString m < toString n := by
  change (Nat.repr m).length = (Nat.repr n).length at same
  change Nat.repr m < Nat.repr n
  rw [Nat.repr, Nat.repr, String.length_ofList, String.length_ofList] at same
  rw [Nat.repr, Nat.repr, String.lt_iff_toList_lt, String.toList_ofList, String.toList_ofList]
  exact toDigits_lt m n same below
section Groups

universe u v

variable {α : Type u} {κ : Type v} [DecidableEq κ] {key : α → κ} {value : α → Int} {rows : List α}

/-- `SELECT key, SUM(value) … GROUP BY key`. -/
def groupTotals (key : α → κ) (value : α → Int) (rows : List α) : List (κ × Int) :=
  (rows.map key).dedup.map (fun k => (k, ((rows.filter (fun a => key a = k)).map value).sum))

theorem groupTotals_keys : (groupTotals key value rows).map Prod.fst = (rows.map key).dedup := by
  rw [groupTotals, List.map_map]
  exact List.map_id _

theorem mem_groupTotals {g : κ × Int} : g ∈ groupTotals key value rows ↔
    (∃ a ∈ rows, key a = g.1) ∧ g.2 = ((rows.filter (fun a => key a = g.1)).map value).sum := by
  rw [groupTotals, List.mem_map]
  constructor
  · rintro ⟨k, grouped, rfl⟩
    exact ⟨List.mem_map.mp (List.mem_dedup.mp grouped), rfl⟩
  · rintro ⟨grouped, total⟩
    exact ⟨g.1, List.mem_dedup.mpr (List.mem_map.mpr grouped), Prod.ext rfl total.symm⟩

end Groups

section Newest

universe u

variable {α : Type u} {collate : Collation} {time : α → Timestamp} {id : α → String} {a b c : α}

/-- `a` comes before `b` under `ORDER BY time DESC, id DESC`. -/
def Newer (collate : Collation) (time : α → Timestamp) (id : α → String) (a b : α) : Prop :=
  time b < time a ∨ (time a = time b ∧ collate.lt (id b) (id a) = true)

instance (collate : Collation) (time : α → Timestamp) (id : α → String) :
    DecidableRel (Newer collate time id) := fun a b =>
  inferInstanceAs (Decidable (time b < time a ∨
    (time a = time b ∧ collate.lt (id b) (id a) = true)))

def newestFirst (collate : Collation) (time : α → Timestamp) (id : α → String) (rows : List α) :
    List α :=
  rows.mergeSort (fun a b => ¬ Newer collate time id b a)

theorem newestFirst_perm (rows : List α) : (newestFirst collate time id rows).Perm rows :=
  List.mergeSort_perm _ _

theorem Newer.asymm (newer : Newer collate time id a b) : ¬ Newer collate time id b a := by
  rcases newer with later | ⟨same, above⟩
  · rintro (before | ⟨same, _⟩)
    · exact lt_asymm later before
    · exact later.ne same
  · rintro (before | ⟨_, below⟩)
    · exact before.ne same
    · rw [collate.asymm above] at below
      cases below

private theorem newer_total (other : id a ≠ id b) :
    Newer collate time id a b ∨ Newer collate time id b a := by
  rcases lt_trichotomy (time a) (time b) with before | same | later
  · exact Or.inr (Or.inl before)
  · rcases collate.total (id b) (id a) other.symm with below | above
    · exact Or.inl (Or.inr ⟨same, below⟩)
    · exact Or.inr (Or.inr ⟨same.symm, above⟩)
  · exact Or.inl (Or.inl later)

private theorem not_newer_trans (first : ¬ Newer collate time id b a)
    (second : ¬ Newer collate time id c b) : ¬ Newer collate time id c a := by
  simp only [Newer, not_or, not_lt, not_and, Bool.not_eq_true] at *
  refine ⟨second.1.trans first.1, fun same => ?_⟩
  have instant : time b = time a := le_antisymm first.1 (same ▸ second.1)
  have notAbove := first.2 instant
  have notBelow := second.2 (same.trans instant.symm)
  by_contra below
  have back : collate.lt (id a) (id c) = true := by simpa using below
  by_cases equal : id a = id b
  · rw [equal, notBelow] at back
    cases back
  · rcases collate.total (id b) (id a) (Ne.symm equal) with lower | upper
    · rw [collate.trans _ _ _ lower back] at notBelow
      cases notBelow
    · rw [upper] at notAbove
      cases notAbove

theorem newestFirst_sorted {rows : List α} (keyed : (rows.map id).Nodup) :
    (newestFirst collate time id rows).Pairwise (Newer collate time id) := by
  have sorted : (newestFirst collate time id rows).Pairwise
      (fun a b => ¬ Newer collate time id b a) := by
    have weak : (newestFirst collate time id rows).Pairwise
        (fun a b => decide (¬ Newer collate time id b a) = true) := List.pairwise_mergeSort
      (fun a b c first second => by
        simp only [decide_eq_true_eq] at first second ⊢
        exact not_newer_trans first second)
      (fun a b => by
        simp only [Bool.or_eq_true, decide_eq_true_eq]
        exact not_and_or.mp (fun both => both.1.asymm both.2)) rows
    exact weak.imp (fun le => by simpa using le)
  have apart : (newestFirst collate time id rows).Pairwise (fun a b => id a ≠ id b) :=
    List.pairwise_map.mp (((newestFirst_perm rows).map id).nodup_iff.mpr keyed)
  exact (sorted.and apart).imp (fun both => (newer_total both.2).resolve_right both.1)

theorem newestFirst_filter {rows : List α} (keyed : (rows.map id).Nodup) (p : α → Bool) :
    newestFirst collate time id (rows.filter p) = (newestFirst collate time id rows).filter p := by
  have keyed' : ((rows.filter p).map id).Nodup := keyed.sublist (List.filter_sublist.map id)
  have perm : (newestFirst collate time id (rows.filter p)).Perm
      ((newestFirst collate time id rows).filter p) :=
    (newestFirst_perm _).trans ((newestFirst_perm rows).symm.filter p)
  exact perm.eq_of_pairwise (fun a b _ _ newer older => absurd older newer.asymm)
    (newestFirst_sorted keyed') ((newestFirst_sorted keyed).filter p)

end Newest

end PredictionMarket
