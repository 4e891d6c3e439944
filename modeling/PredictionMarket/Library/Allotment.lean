/- PredictionMarket/Library/Allotment
   digest: Serving a quantity from a list of capacities, first come first served. -/

import Mathlib.Algebra.BigOperators.Group.List.Basic
import Mathlib.Algebra.Order.BigOperators.Group.List
import Mathlib.Algebra.Order.Ring.Int
import Mathlib.Data.List.Infix

set_option autoImplicit false
set_option relaxedAutoImplicit false

namespace PredictionMarket.Library

universe u

variable {α : Type u} (cap : α → Int)

def allot : Int → List α → List (α × Int)
  | _, [] => []
  | r, a :: l => if 0 < r then (a, min r (cap a)) :: allot (r - min r (cap a)) l else []

def total (l : List α) : Int := (l.map cap).sum

@[simp] theorem total_nil : total cap [] = 0 := rfl

@[simp] theorem total_cons (a : α) (l : List α) : total cap (a :: l) = cap a + total cap l := by
  simp [total]

@[simp] theorem allot_nil (r : Int) : allot cap r [] = [] := rfl

theorem allot_of_nonpos {r : Int} (none : r ≤ 0) (l : List α) : allot cap r l = [] := by
  cases l with
  | nil => rfl
  | cons a l => rw [allot, if_neg (by omega)]

theorem allot_map {β : Type u} (f : β → α) (r : Int) (l : List β) :
    allot cap r (l.map f) = (allot (cap ∘ f) r l).map (fun x => (f x.1, x.2)) := by
  induction l generalizing r with
  | nil => rfl
  | cons b l ih =>
    rw [List.map_cons, allot, allot]
    split
    · rw [ih, List.map_cons]
      rfl
    · rfl

section Positive

variable {cap} {l : List α} {r : Int}

theorem total_nonneg (positive : ∀ a ∈ l, 0 < cap a) : 0 ≤ total cap l := by
  apply List.sum_nonneg
  intro x listed
  obtain ⟨a, member, rfl⟩ := List.mem_map.mp listed
  exact (positive a member).le

theorem eq_nil_of_total (positive : ∀ a ∈ l, 0 < cap a) (none : total cap l ≤ 0) : l = [] := by
  cases l with
  | nil => rfl
  | cons a l =>
    have here := positive a List.mem_cons_self
    have others := total_nonneg (fun b member => positive b (List.mem_cons_of_mem a member))
    rw [total_cons] at none
    omega

theorem sum_allot (positive : ∀ a ∈ l, 0 < cap a) (wanted : 0 ≤ r) :
    ((allot cap r l).map Prod.snd).sum = min r (total cap l) := by
  induction l generalizing r with
  | nil => simpa using wanted
  | cons a l ih =>
    have rest : ∀ b ∈ l, 0 < cap b := fun b member => positive b (List.mem_cons_of_mem a member)
    have here := positive a List.mem_cons_self
    have others := total_nonneg rest
    rw [allot, total_cons]
    split
    · rw [List.map_cons, List.sum_cons, ih rest (by omega)]
      omega
    · simp only [List.map_nil, List.sum_nil]
      omega

theorem allot_append (positive : ∀ a ∈ l, 0 < cap a) (wanted : 0 ≤ r) (m : List α) :
    allot cap r (l ++ m) = allot cap r l ++ allot cap (r - min r (total cap l)) m := by
  induction l generalizing r with
  | nil => simp [min_eq_right wanted]
  | cons a l ih =>
    have rest : ∀ b ∈ l, 0 < cap b := fun b member => positive b (List.mem_cons_of_mem a member)
    have here := positive a List.mem_cons_self
    have others := total_nonneg rest
    rw [List.cons_append, allot, allot, total_cons]
    split
    · rw [ih rest (by omega), List.cons_append]
      congr 3
      omega
    · rw [allot_of_nonpos cap (by omega), List.nil_append]

theorem mem_allot (positive : ∀ a ∈ l, 0 < cap a) {x : α × Int} (member : x ∈ allot cap r l) :
    x.1 ∈ l ∧ 0 < x.2 ∧ x.2 ≤ cap x.1 := by
  induction l generalizing r with
  | nil => cases member
  | cons a l ih =>
    rw [allot] at member
    split at member
    · obtain rfl | later := List.mem_cons.mp member
      · have here := positive a List.mem_cons_self
        exact ⟨List.mem_cons_self, by simp only; omega, by simp only; omega⟩
      · obtain ⟨listed, bounds⟩ := ih (fun b inside => positive b (List.mem_cons_of_mem a inside))
          later
        exact ⟨List.mem_cons_of_mem a listed, bounds⟩
    · cases member

theorem sum_allot_nonneg (positive : ∀ a ∈ l, 0 < cap a) :
    0 ≤ ((allot cap r l).map Prod.snd).sum := by
  apply List.sum_nonneg
  intro x listed
  obtain ⟨y, member, rfl⟩ := List.mem_map.mp listed
  exact (mem_allot positive member).2.1.le

theorem allot_front (r : Int) (l : List α) : (allot cap r l).map Prod.fst <+: l := by
  induction l generalizing r with
  | nil => exact List.nil_prefix
  | cons a l ih =>
    rw [allot]
    split
    · rw [List.map_cons]
      exact (List.prefix_cons_inj a).mpr (ih _)
    · exact List.nil_prefix

theorem allot_before {xs ys : List (α × Int)} {y : α × Int}
    (split : allot cap r l = xs ++ y :: ys) : ∀ x ∈ xs, x.2 = cap x.1 := by
  induction l generalizing r xs with
  | nil => simp at split
  | cons a l ih =>
    rw [allot] at split
    by_cases wanted : 0 < r
    · rw [if_pos wanted] at split
      cases xs with
      | nil => simp
      | cons x xs =>
        obtain ⟨rfl, rest⟩ := List.cons.inj split
        intro z member
        obtain rfl | later := List.mem_cons.mp member
        · by_cases short : r ≤ cap a
          · -- the first item was enough, so nobody came after it
            rw [min_eq_left short, sub_self, allot_of_nonpos cap le_rfl] at rest
            simp at rest
          · exact min_eq_right (by omega)
        · exact ih rest z later
    · rw [if_neg wanted] at split
      simp at split

theorem mem_allot_iff (positive : ∀ a ∈ l, 0 < cap a) {a : α} :
    a ∈ (allot cap r l).map Prod.fst ↔
      ∃ front back, l = front ++ a :: back ∧ total cap front < r := by
  induction l generalizing r with
  | nil => simp
  | cons b l ih =>
    have rest : ∀ c ∈ l, 0 < cap c := fun c member => positive c (List.mem_cons_of_mem b member)
    have here := positive b List.mem_cons_self
    constructor
    · intro served
      rw [allot] at served
      split at served
      · next wanted =>
        rw [List.map_cons, List.mem_cons] at served
        rcases served with rfl | later
        · exact ⟨[], l, rfl, by simpa using wanted⟩
        · obtain ⟨front, back, rfl, short⟩ := (ih rest).mp later
          have others := total_nonneg (fun c member => rest c (List.mem_append_left _ member))
          exact ⟨b :: front, back, rfl, by rw [total_cons]; omega⟩
      · cases served
    · rintro ⟨front, back, split, short⟩
      cases front with
      | nil =>
        obtain ⟨rfl, rfl⟩ := List.cons.inj split
        rw [allot, if_pos (by simpa using short)]
        exact List.mem_cons_self
      | cons c front =>
        obtain ⟨rfl, rfl⟩ := List.cons.inj split
        have others := total_nonneg (fun a member => rest a (List.mem_append_left _ member))
        rw [total_cons] at short
        rw [allot, if_pos (by omega), List.map_cons]
        exact List.mem_cons_of_mem _ ((ih rest).mpr ⟨front, back, rfl, by omega⟩)

end Positive

end PredictionMarket.Library
