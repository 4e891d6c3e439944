/- PredictionMarket/Library/Keyset
   digest: Cursor pages over a list of rows, and when following the cursors reads each row once. -/

import Mathlib.Data.List.Nodup
import Mathlib.Data.List.Infix
import Mathlib.Algebra.Order.Group.Nat

set_option autoImplicit false
set_option relaxedAutoImplicit false

namespace PredictionMarket.Library

universe u v w

structure Page (β : Type v) (γ : Type w) where
  items : List β
  nextCursor : Option γ
  hasMore : Bool

/-- Read page after page, each from the cursor of the one before it, until there
is no more. -/
inductive Follows {β : Type v} {γ : Type w} (serve : Option γ → Option (Page β γ)) :
    Option γ → List (List β) → Prop
  | last {c : Option γ} {page : Page β γ} : serve c = some page → page.hasMore = false →
      Follows serve c [page.items]
  | next {c : Option γ} {d : γ} {page : Page β γ} {pages : List (List β)} :
      serve c = some page → page.hasMore = true → page.nextCursor = some d →
      Follows serve (some d) pages → Follows serve c (page.items :: pages)

section Follows

variable {β : Type v} {γ : Type w} {serve : Option γ → Option (Page β γ)}

theorem Follows.unique {c : Option γ} {pages pages' : List (List β)}
    (first : Follows serve c pages) (second : Follows serve c pages') : pages = pages' := by
  induction first generalizing pages' with
  | last answer done =>
    cases second with
    | last answer' _ => rw [Option.some.inj (answer.symm.trans answer')]
    | next answer' more _ _ =>
      rw [← Option.some.inj (answer.symm.trans answer'), done] at more
      cases more
  | next answer more cursor _ ih =>
    cases second with
    | last answer' done =>
      rw [← Option.some.inj (answer.symm.trans answer'), more] at done
      cases done
    | next answer' _ cursor' rest =>
      obtain rfl := Option.some.inj (answer.symm.trans answer')
      obtain rfl := Option.some.inj (cursor.symm.trans cursor')
      rw [ih rest]

end Follows

variable {α : Type u} {β : Type v} {γ : Type w}

/-- The page made of the answer to a query for one row more than fits on it. -/
def Page.ofLookahead (limit : Nat) (cursor : α → γ) (view : α → β) (rows : List α) :
    Page β γ where
  items := (rows.take limit).map view
  nextCursor := if limit < rows.length then (rows.take limit).getLast?.map cursor else none
  hasMore := limit < rows.length

theorem Page.ofLookahead_take (limit : Nat) (cursor : α → γ) (view : α → β) (rows : List α) :
    Page.ofLookahead limit cursor view (rows.take (limit + 1)) =
      Page.ofLookahead limit cursor view rows := by
  have more : limit < (rows.take (limit + 1)).length ↔ limit < rows.length := by
    rw [List.length_take]
    omega
  simp only [Page.ofLookahead, more, List.take_take, Nat.min_eq_left (Nat.le_succ limit)]

def rowsFrom (rows : List α) (selects : γ → α → Bool) : Option γ → List α
  | none => rows
  | some c => rows.filter (selects c)

/-- A service that makes its pages of the rows that are selected, at the start
and at the cursor of every row. -/
structure Serves (limit : Nat) (cursor : α → γ) (view : α → β) (rows : List α)
    (selects : γ → α → Bool) (serve : Option γ → Option (Page β γ)) : Prop where
  first : serve none = some (Page.ofLookahead limit cursor view rows)
  resumed : ∀ a ∈ rows, serve (some (cursor a)) =
    some (Page.ofLookahead limit cursor view (rows.filter (selects (cursor a))))

def Issued (cursor : α → γ) (rows : List α) (c : Option γ) : Prop :=
  ∀ d, c = some d → ∃ a ∈ rows, cursor a = d

theorem mem_rowsFrom {rows : List α} {selects : γ → α → Bool} {c : Option γ} {a : α}
    (member : a ∈ rowsFrom rows selects c) : a ∈ rows := by
  cases c with
  | none => exact member
  | some d => exact (List.mem_filter.mp member).1

theorem Serves.answer {limit : Nat} {cursor : α → γ} {view : α → β} {rows : List α}
    {selects : γ → α → Bool} {serve : Option γ → Option (Page β γ)}
    (serves : Serves limit cursor view rows selects serve) {c : Option γ}
    (issued : Issued cursor rows c) :
    serve c = some (Page.ofLookahead limit cursor view (rowsFrom rows selects c)) := by
  cases c with
  | none => exact serves.first
  | some d =>
    obtain ⟨a, stored, rfl⟩ := issued d rfl
    exact serves.resumed a stored

theorem issued_cursor (cursor : α → γ) {rows : List α} {a : α} (stored : a ∈ rows) :
    Issued cursor rows (some (cursor a)) := by
  intro d equal
  exact ⟨a, stored, Option.some.inj equal⟩

/-- The cursor of every row that ends a full page selects exactly the rows that
follow it. -/
def Resumes (limit : Nat) (cursor : α → γ) (fetch : Option γ → List α) (rows : List α) : Prop :=
  ∀ front a back, rows = front ++ a :: back → limit ∣ front.length + 1 → back ≠ [] →
    fetch (some (cursor a)) = back

section Pages

variable {limit : Nat} {cursor : α → γ} {view : α → β} {fetch : Option γ → List α}

theorem Resumes.drop {rows : List α} (resumes : Resumes limit cursor fetch rows)
    (more : limit ≤ rows.length) : Resumes limit cursor fetch (rows.drop limit) := by
  intro front a back split full rest
  refine resumes (rows.take limit ++ front) a back ?_ ?_ rest
  · rw [List.append_assoc, ← split, List.take_append_drop]
  · rw [List.length_append, List.length_take, Nat.min_eq_left more, Nat.add_assoc]
    exact (Nat.dvd_add_right (Nat.dvd_refl limit)).mpr full

theorem Resumes.of_drop {rows front : List α} {a : α} (size : front.length + 1 = limit)
    (cut : rows = front ++ a :: rows.drop limit)
    (fetched : fetch (some (cursor a)) = rows.drop limit)
    (rest : Resumes limit cursor fetch (rows.drop limit)) :
    Resumes limit cursor fetch rows := by
  intro front' a' back split full more
  rcases Nat.lt_or_ge front'.length limit with first | later
  · have same : front'.length = front.length := by
      have reached := Nat.le_of_dvd (Nat.succ_pos _) full
      omega
    obtain ⟨_, equal⟩ := List.append_inj (split.symm.trans cut) same
    obtain ⟨rfl, rfl⟩ := List.cons.inj equal
    exact fetched
  · refine rest (front'.drop limit) a' back ?_ ?_ more
    · rw [split, List.drop_append_of_le_length later]
    · rw [List.length_drop, ← Nat.sub_add_comm later]
      exact Nat.dvd_sub full (Nat.dvd_refl limit)

private theorem exists_page_end {rows : List α} (some_ : 0 < limit) (more : limit < rows.length) :
    ∃ front a, rows.take limit = front ++ [a] ∧ front.length + 1 = limit ∧
      rows = front ++ a :: rows.drop limit := by
  have filled : (rows.take limit).length = limit := by
    rw [List.length_take]
    omega
  have nonempty : rows.take limit ≠ [] := by
    intro empty
    rw [empty] at filled
    exact some_.ne filled
  refine ⟨(rows.take limit).dropLast, (rows.take limit).getLast nonempty,
    (List.dropLast_append_getLast nonempty).symm, ?_, ?_⟩
  · rw [List.length_dropLast, filled]
    omega
  · conv_lhs => rw [← List.take_append_drop limit rows, ← List.dropLast_append_getLast nonempty]
    rw [List.append_assoc, List.singleton_append]

/-- Where the cursors resume, the pages are the rows cut into pieces of `limit`. -/
theorem follows_of_resumes {rows : List α} {selects : γ → α → Bool}
    {serve : Option γ → Option (Page β γ)} (some_ : 0 < limit)
    (serves : Serves limit cursor view rows selects serve) (n : Nat) : ∀ {c : Option γ},
    Issued cursor rows c → (rowsFrom rows selects c).length ≤ n →
    Resumes limit cursor (rowsFrom rows selects) (rowsFrom rows selects c) →
    ∃ pages, Follows serve c pages ∧ pages.flatten = (rowsFrom rows selects c).map view ∧
      ∀ page ∈ pages.dropLast, page.length = limit := by
  induction n using Nat.strong_induction_on with
  | _ n ih =>
    intro c issued bound resumes
    have answer := serves.answer issued
    have stored : ∀ a ∈ rowsFrom rows selects c, a ∈ rows := fun a => mem_rowsFrom
    generalize rowsFrom rows selects c = list at *
    by_cases more : limit < list.length
    · obtain ⟨front, a, page, size, split⟩ := exists_page_end some_ more
      have rest : list.drop limit ≠ [] := by
        rw [ne_eq, List.drop_eq_nil_iff]
        omega
      have selected := resumes front a _ split (size ▸ Nat.dvd_refl limit) rest
      have shorter : (rowsFrom rows selects (some (cursor a))).length ≤ n - limit := by
        rw [selected, List.length_drop]
        omega
      have listed : a ∈ list := split ▸ List.mem_append_right _ List.mem_cons_self
      obtain ⟨pages, follows, whole, full⟩ := ih (n - limit) (by omega)
        (issued_cursor cursor (stored a listed)) shorter (selected ▸ resumes.drop more.le)
      refine ⟨(list.take limit).map view :: pages, ?_, ?_, ?_⟩
      · refine .next answer (by simpa [Page.ofLookahead] using more) ?_ follows
        simp [Page.ofLookahead, more, page]
      · rw [List.flatten_cons, whole, selected, ← List.map_append, List.take_append_drop]
      · cases pages with
        | nil => cases follows
        | cons next pages =>
          intro p member
          rw [List.dropLast_cons_cons, List.mem_cons] at member
          rcases member with rfl | later
          · rw [List.length_map, page, List.length_append, List.length_singleton, size]
          · exact full p later
    · refine ⟨[(list.take limit).map view], ?_, ?_, ?_⟩
      · exact .last answer (by simpa [Page.ofLookahead] using more)
      · simp [List.take_of_length_le (not_lt.mp more)]
      · simp

end Pages

theorem filter_after {before : α → α → Prop} [DecidableRel before]
    (asymm : ∀ a b, before a b → ¬ before b a) {front back : List α} {a : α}
    (sorted : (front ++ a :: back).Pairwise before) :
    (front ++ a :: back).filter (fun b => before a b) = back := by
  obtain ⟨_, tail, across⟩ := List.pairwise_append.mp sorted
  have earlier : front.filter (fun b => before a b) = [] := by
    rw [List.filter_eq_nil_iff]
    intro b member
    simpa using asymm b a (across b member a List.mem_cons_self)
  have self : ¬ before a a := fun same => asymm a a same same
  rw [List.filter_append, earlier, List.nil_append, List.filter_cons_of_neg (by simpa using self),
    List.filter_eq_self]
  intro b member
  simpa using (List.pairwise_cons.mp tail).1 b member

theorem filter_before {before : α → α → Prop} [DecidableRel before]
    (asymm : ∀ a b, before a b → ¬ before b a) {front back : List α} {a : α}
    (sorted : (front ++ a :: back).Pairwise before) :
    (front ++ a :: back).filter (fun b => before b a) = front := by
  obtain ⟨_, tail, across⟩ := List.pairwise_append.mp sorted
  have later : (a :: back).filter (fun b => before b a) = [] := by
    rw [List.filter_eq_nil_iff]
    intro b member
    rcases List.mem_cons.mp member with rfl | behind
    · simpa using fun same => asymm b b same same
    · simpa using asymm a b ((List.pairwise_cons.mp tail).1 b behind)
  rw [List.filter_append, later, List.append_nil, List.filter_eq_self]
  intro b member
  simpa using across b member a List.mem_cons_self

theorem filter_eq_filter_iff {p q : α → Bool} {rows : List α} :
    rows.filter p = rows.filter q ↔ ∀ a ∈ rows, p a = q a := by
  refine ⟨fun equal a member => ?_, List.filter_congr⟩
  have kept : a ∈ rows.filter p ↔ a ∈ rows.filter q := by rw [equal]
  rw [List.mem_filter, List.mem_filter, and_iff_right member, and_iff_right member] at kept
  exact Bool.eq_iff_iff.mpr kept

section Exact

variable {limit : Nat} {cursor : α → γ} {view : α → β} {rows : List α} {selects : γ → α → Bool}
  {serve : Option γ → Option (Page β γ)}

private theorem selected_of_follows
    (serves : Serves limit cursor view rows selects serve)
    (trans : ∀ c b a, selects c b = true → selects (cursor b) a = true → selects c a = true)
    {first : α} (stored : first ∈ rows) {pages : List (List β)}
    (follows : Follows serve (some (cursor first)) pages) :
    ∀ y ∈ pages.flatten, ∃ a ∈ rows, selects (cursor first) a = true ∧ view a = y := by
  generalize start : some (cursor first) = from_ at follows
  have listed : ∀ d, ∀ y ∈ (Page.ofLookahead limit cursor view
      (rowsFrom rows selects (some d))).items, ∃ a ∈ rows, selects d a = true ∧ view a = y := by
    intro d y member
    obtain ⟨a, inside, rfl⟩ := List.mem_map.mp member
    have chosen := List.mem_filter.mp (List.mem_of_mem_take inside)
    exact ⟨a, chosen.1, chosen.2, rfl⟩
  induction follows generalizing first with
  | last answer _ =>
    subst start
    obtain rfl := Option.some.inj ((serves.resumed first stored).symm.trans answer)
    rw [List.flatten_singleton]
    exact listed (cursor first)
  | @next _ d page pages answer more next _ ih =>
    subst start
    obtain rfl := Option.some.inj ((serves.resumed first stored).symm.trans answer)
    intro y member
    rw [List.flatten_cons, List.mem_append] at member
    rcases member with here | later
    · exact listed (cursor first) y here
    · simp only [Page.ofLookahead, decide_eq_true_eq] at more next
      rw [if_pos more] at next
      obtain ⟨b, last, rfl⟩ := Option.map_eq_some_iff.mp next
      have inside := List.mem_filter.mp (List.mem_of_mem_take (List.mem_of_mem_getLast? last))
      obtain ⟨a, listed, chosen, rfl⟩ := ih inside.1 rfl y later
      exact ⟨a, listed, trans (cursor first) b a inside.2 chosen, rfl⟩

private theorem head_of_follows (some_ : 0 < limit)
    (serves : Serves limit cursor view rows selects serve)
    {c : Option γ} (issued : Issued cursor rows c) {pages : List (List β)}
    (follows : Follows serve c pages) :
    pages.flatten.head? = (rowsFrom rows selects c).head?.map view := by
  have first : ∀ {l : List α} (k : List β), l ≠ [] ∨ k = [] →
      ((l.take limit).map view ++ k).head? = l.head?.map view := by
    intro l k ends
    obtain ⟨n, rfl⟩ := Nat.exists_eq_succ_of_ne_zero some_.ne'
    cases l with
    | nil => simpa using ends
    | cons a l => simp
  cases follows with
  | last answer _ =>
    obtain rfl := Option.some.inj ((serves.answer issued).symm.trans answer)
    rw [List.flatten_singleton]
    simpa [Page.ofLookahead] using first [] (Or.inr rfl)
  | next answer more _ _ =>
    obtain rfl := Option.some.inj ((serves.answer issued).symm.trans answer)
    rw [List.flatten_cons]
    refine first _ (Or.inl (fun empty => ?_))
    simp [Page.ofLookahead, empty] at more

private theorem resumes_of_follows (some_ : 0 < limit)
    (serves : Serves limit cursor view rows selects serve)
    (trans : ∀ c b a, selects c b = true → selects (cursor b) a = true → selects c a = true)
    (nodup : rows.Nodup) (distinct : ∀ a ∈ rows, ∀ b ∈ rows, view a = view b → a = b)
    {c : Option γ} {pages : List (List β)} (follows : Follows serve c pages) :
    Issued cursor rows c → ∀ {done : List α}, rows = done ++ rowsFrom rows selects c →
      pages.flatten.Perm ((rowsFrom rows selects c).map view) →
      Resumes limit cursor (rowsFrom rows selects) (rowsFrom rows selects c) := by
  induction follows with
  | last answer few =>
    intro issued done _ _ front a back split full rest
    obtain rfl := Option.some.inj ((serves.answer issued).symm.trans answer)
    simp only [Page.ofLookahead, decide_eq_false_iff_not, not_lt] at few
    have length := congrArg List.length split
    rw [List.length_append, List.length_cons] at length
    have behind := List.length_pos_of_ne_nil rest
    have reached := Nat.le_of_dvd (Nat.succ_pos _) full
    omega
  | @next c d page pages answer more next follows ih =>
    intro issued done split whole
    obtain rfl := Option.some.inj ((serves.answer issued).symm.trans answer)
    simp only [Page.ofLookahead, decide_eq_true_eq] at more next whole
    obtain ⟨front, a, end_, size, cut⟩ := exists_page_end some_ more
    rw [if_pos more, end_, List.getLast?_concat, Option.map_some, Option.some.injEq] at next
    subst next
    generalize rowsFrom rows selects c = list at *
    have pieces : list.map view = (list.take limit).map view ++ (list.drop limit).map view := by
      rw [← List.map_append, List.take_append_drop]
    rw [List.flatten_cons, pieces] at whole
    have later := (List.perm_append_left_iff _).mp whole
    have order : rows = (done ++ list.take limit) ++ list.drop limit := by
      rw [List.append_assoc, List.take_append_drop, split]
    have member : ∀ b ∈ list.drop limit, b ∈ rows := fun b here =>
      order ▸ List.mem_append_right _ here
    have stored : a ∈ rows := by
      rw [split, cut]
      exact List.mem_append_right _ (List.mem_append_right _ List.mem_cons_self)
    have chosen : ∀ b ∈ list.drop limit, selects (cursor a) b = true := by
      intro b here
      obtain ⟨x, listed, selected, same⟩ := selected_of_follows serves trans stored follows (view b)
        (later.mem_iff.mpr (List.mem_map_of_mem here))
      rwa [distinct x listed b (member b here) same] at selected
    -- A selected row from before the cursor would be the first one read.
    have none_ : (done ++ list.take limit).filter (selects (cursor a)) = [] := by
      by_contra some_rows
      obtain ⟨k, early, equal⟩ := List.exists_cons_of_ne_nil some_rows
      have first := head_of_follows some_ serves (issued_cursor cursor stored) follows
      rw [rowsFrom, order, List.filter_append, equal, List.cons_append, List.head?_cons,
        Option.map_some] at first
      have listed : k ∈ done ++ list.take limit := by
        have inside : k ∈ (done ++ list.take limit).filter (selects (cursor a)) :=
          equal ▸ List.mem_cons_self
        exact (List.mem_filter.mp inside).1
      obtain ⟨b, after, shown⟩ := List.mem_map.mp (later.mem_iff.mp (List.mem_of_mem_head? first))
      have same : b = k :=
        distinct b (member b after) k (order ▸ List.mem_append_left _ listed) shown
      exact List.disjoint_of_nodup_append (order ▸ nodup) listed (same ▸ after)
    have fetched : rowsFrom rows selects (some (cursor a)) = list.drop limit := by
      rw [rowsFrom, order, List.filter_append, none_, List.nil_append, List.filter_eq_self]
      exact chosen
    exact .of_drop size cut fetched (fetched ▸ ih (issued_cursor cursor stored)
      (fetched.symm ▸ order) (fetched.symm ▸ later))

theorem resumes_of_sorted {before : α → α → Prop} [DecidableRel before]
    (asymm : ∀ a b, before a b → ¬ before b a) (sorted : rows.Pairwise before)
    (same : ∀ a ∈ rows, ∀ b, selects (cursor a) b = decide (before a b)) :
    Resumes limit cursor (rowsFrom rows selects) rows := by
  intro front a back split _ _
  have listed : a ∈ rows := split ▸ List.mem_append_right _ List.mem_cons_self
  have order : rows.filter (selects (cursor a)) = rows.filter (fun b => before a b) :=
    List.filter_congr (fun b _ => same a listed b)
  rw [rowsFrom, order]
  conv_lhs => rw [split]
  exact filter_after asymm (split ▸ sorted)

/-- Following the cursors reads each row once exactly when the cursor of every row
that ends a full page selects the rows after it. -/
theorem follows_exact_iff (some_ : 0 < limit)
    (serves : Serves limit cursor view rows selects serve)
    (trans : ∀ c b a, selects c b = true → selects (cursor b) a = true → selects c a = true)
    (nodup : rows.Nodup) (distinct : ∀ a ∈ rows, ∀ b ∈ rows, view a = view b → a = b) :
    (∃ pages, Follows serve none pages ∧ pages.flatten.Perm (rows.map view)) ↔
      Resumes limit cursor (rowsFrom rows selects) rows := by
  have start : Issued cursor rows none := fun d equal => by cases equal
  constructor
  · rintro ⟨pages, follows, whole⟩
    have whole_rows : rows = [] ++ rowsFrom rows selects none := rfl
    exact resumes_of_follows some_ serves trans nodup distinct follows start whole_rows whole
  · intro resumes
    obtain ⟨pages, follows, whole, _⟩ :=
      follows_of_resumes some_ serves rows.length start le_rfl resumes
    exact ⟨pages, follows, .of_eq whole⟩

end Exact

end PredictionMarket.Library
