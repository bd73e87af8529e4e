/-
Sorting and filtering rows commute.

Rows are sorted by insertion, so that rows which tie keep their places, and a row is
put behind the first one, from the end, that it does not precede.  Leaving rows out
afterwards is the same as leaving them out before, provided that the order is a weak
order on the rows: then a row that is put in front of a list precedes none of its
rows, whichever of them are left.

The order of values is no weak order in general, since values of different kinds tie
with each other.  It is one on values that are mutually comparable, and all that can
tear it is a value between two of another kind: it ties with both, whichever way
around they stand.
-/
import GraphFetch.Database.Select

namespace GraphFetch

/-! ### The order of comparable values -/

namespace Comparison

/-- Two values of one scalar kind, or two of which one is null. -/
def Comparable : Json → Json → Prop
  | .null, _ => True
  | _, .null => True
  | .bool _, .bool _ => True
  | .num _, .num _ => True
  | .str _, .str _ => True
  | _, _ => False

theorem orderString_swap (s t : String) : (orderString s t).swap = orderString t s := by
  unfold orderString
  rcases Std.lt_trichotomy s t with h | h | h
  · rw [if_pos h, if_neg (String.lt_asymm h), if_neg (fun he => String.lt_irrefl _ (he ▸ h))]
    rfl
  · subst h
    rw [if_neg (String.lt_irrefl _), if_pos rfl]
    rfl
  · rw [if_pos h, if_neg (String.lt_asymm h), if_neg (fun he => String.lt_irrefl _ (he ▸ h))]
    rfl

theorem orderString_eq_gt {s t : String} : orderString s t = .gt ↔ t < s := by
  unfold orderString
  rcases Std.lt_trichotomy s t with h | h | h
  · simp [h, String.lt_asymm h]
  · simp [h]
  · have hne : ¬ s = t := fun he => String.lt_irrefl _ (he ▸ h)
    simp [h, String.lt_asymm h, hne]

theorem order_swap (a b : Json) : (order a b).swap = order b a := by
  cases a <;> cases b <;> try rfl
  · rename_i x y
    cases x <;> cases y <;> rfl
  · rename_i m n
    show (compare m.toDouble.signed n.toDouble.signed).swap = _
    rw [Int.compare_swap]
    rfl
  · exact orderString_swap _ _

/-- On comparable values, not to come after another is transitive. -/
theorem order_trans {a b c : Json} (hab : Comparable a b) (hbc : Comparable b c)
    (h₁ : order a b ≠ .gt) (h₂ : order b c ≠ .gt) : order a c ≠ .gt := by
  cases a <;> cases b <;> cases c <;>
    first
    | exact hab.elim
    | exact hbc.elim
    | exact absurd rfl h₁
    | exact absurd rfl h₂
    | (intro h; exact Ordering.noConfusion h)
    | skip
  · rename_i x y z
    revert h₁ h₂
    cases x <;> cases y <;> cases z <;> decide
  · rename_i l m n
    have h₁' : compare l.toDouble.signed m.toDouble.signed ≠ .gt := h₁
    have h₂' : compare m.toDouble.signed n.toDouble.signed ≠ .gt := h₂
    show compare l.toDouble.signed n.toDouble.signed ≠ .gt
    rw [Ne, Int.compare_eq_gt] at *
    omega
  · rename_i s t u
    have h₁' : ¬ t < s := fun h => h₁ (orderString_eq_gt.mpr h)
    have h₂' : ¬ u < t := fun h => h₂ (orderString_eq_gt.mpr h)
    intro h
    exact Std.not_lt_of_ge (Std.le_trans (Std.not_lt.mp h₁') (Std.not_lt.mp h₂'))
      (orderString_eq_gt.mp h)

/-! ### The order of values of mixed kinds -/

theorem Comparable.symm {a b : Json} (h : Comparable a b) : Comparable b a := by
  cases a <;> cases b <;> first | exact trivial | exact h.elim

theorem order_self (a : Json) : order a a = .eq := by
  have h := order_swap a a
  cases horder : order a a <;> rw [horder] at h <;> trivial

/-- Values that cannot be compared tie. -/
theorem order_of_not_comparable {a b : Json} (h : ¬ Comparable a b) : order a b = .eq := by
  cases a <;> cases b <;> first | exact absurd trivial h | rfl

/-- Null is all that can be compared with values that cannot be compared with each other. -/
theorem eq_null_of_comparable {a b c : Json} (hab : Comparable a b) (hac : Comparable a c)
    (hbc : ¬ Comparable b c) : a = .null := by
  cases a <;> cases b <;> cases c <;>
    first | rfl | exact hab.elim | exact hac.elim | exact absurd trivial hbc

theorem order_null_left {a : Json} (h : order a .null ≠ .gt) : a = .null := by
  cases a <;> first | rfl | exact absurd rfl h

/-- Whether a value comes after another one while neither of them can be compared with a third,
which stands between them. -/
def Torn (a b c : Json) : Prop := order a c = .gt ∧ ¬ Comparable a b ∧ ¬ Comparable b c

/-- **Not to come after another is transitive but for values that cannot be compared with the one
between them.** -/
theorem order_torn_iff {a b c : Json} :
    (order a b ≠ .gt ∧ order b c ≠ .gt ∧ order a c = .gt) ↔ Torn a b c := by
  constructor
  · intro ⟨hab, hbc, hac⟩
    have hcomparable : Comparable a c := Classical.byContradiction fun h =>
      nomatch hac.symm.trans (order_of_not_comparable h)
    refine ⟨hac, fun h => ?_, fun h => ?_⟩
    · by_cases h' : Comparable b c
      · exact order_trans h h' hab hbc hac
      · obtain rfl := eq_null_of_comparable h hcomparable h'
        cases c <;> exact nomatch hac
    · by_cases h' : Comparable a b
      · exact order_trans h' h hab hbc hac
      · obtain rfl := eq_null_of_comparable h.symm hcomparable.symm fun hba => h' hba.symm
        obtain rfl := order_null_left hbc
        exact h' (by cases a <;> trivial)
  · intro ⟨hac, hab, hbc⟩
    rw [order_of_not_comparable hab, order_of_not_comparable hbc]
    exact ⟨nofun, nofun, hac⟩

/-- **To tie is transitive but for the same values.** -/
theorem order_tie_torn_iff {a b c : Json} :
    (order a b = .eq ∧ order b c = .eq ∧ order a c ≠ .eq) ↔ Torn a b c ∨ Torn c b a := by
  constructor
  · intro ⟨hab, hbc, hac⟩
    cases horder : order a c with
    | eq => exact absurd horder hac
    | gt => exact Or.inl (order_torn_iff.mp ⟨by rw [hab]; nofun, by rw [hbc]; nofun, horder⟩)
    | lt =>
        have hcb : order c b = .eq := by rw [← order_swap, hbc]; rfl
        have hba : order b a = .eq := by rw [← order_swap, hab]; rfl
        have hca : order c a = .gt := by rw [← order_swap, horder]; rfl
        exact Or.inr (order_torn_iff.mp ⟨by rw [hcb]; nofun, by rw [hba]; nofun, hca⟩)
  · intro h
    obtain ⟨hac, hab, hbc⟩ | ⟨hca, hcb, hba⟩ := h
    · exact ⟨order_of_not_comparable hab, order_of_not_comparable hbc, by rw [hac]; nofun⟩
    · refine ⟨order_of_not_comparable fun h => hba h.symm,
        order_of_not_comparable fun h => hcb h.symm, ?_⟩
      rw [← order_swap, hca]
      nofun

end Comparison

namespace Database

/-! ### Sorting by a weak order -/

/-- Rows among which one that precedes another does not follow it, and not to precede is
transitive. -/
structure WeakOrder (precedes : Row → Row → Bool) (among : Row → Prop) : Prop where
  asymm : ∀ {a b}, among a → among b → precedes a b = true → precedes b a = false
  trans : ∀ {a b c}, among a → among b → among c →
    precedes a b = false → precedes b c = false → precedes a c = false

section Sorting

variable {precedes : Row → Row → Bool} {among : Row → Prop}

theorem place_perm (row : Row) (rows : List Row) :
    (place precedes row rows).Perm (row :: rows) := by
  induction rows with
  | nil => exact .refl _
  | cons last before ih =>
      unfold place
      by_cases h : precedes row last = true
      · rw [if_pos h]
        exact (ih.cons last).trans (.swap row last before)
      · rw [if_neg h]

theorem foldl_place_perm (rows sorted : List Row) :
    (rows.foldl (fun sorted row => place precedes row sorted) sorted).Perm (rows ++ sorted) := by
  induction rows generalizing sorted with
  | nil => exact .refl sorted
  | cons row rest ih =>
      refine (ih _).trans ?_
      exact ((place_perm row sorted).append_left rest).trans List.perm_middle

/-- Sorting leaves nothing out, and repeats nothing. -/
theorem sortRows_perm (rows : List Row) : (sortRows precedes rows).Perm rows := by
  have hall : (rows.foldl (fun sorted row => place precedes row sorted) []).Perm (rows ++ []) :=
    foldl_place_perm rows []
  rw [List.append_nil] at hall
  exact (List.reverse_perm _).trans hall

theorem mem_place {row other : Row} {rows : List Row} :
    other ∈ place precedes row rows ↔ other = row ∨ other ∈ rows := by
  rw [(place_perm row rows).mem_iff, List.mem_cons]

theorem among_place {row : Row} {rows : List Row} (hrow : among row)
    (hrows : ∀ other ∈ rows, among other) : ∀ other ∈ place precedes row rows, among other := by
  intro other hother
  rcases mem_place.mp hother with rfl | hother
  · exact hrow
  · exact hrows other hother

/-- A row is placed so that none precedes one that stands behind it. -/
theorem place_ordered (order : WeakOrder precedes among) {row : Row} (hrow : among row) :
    ∀ {rows : List Row}, (∀ other ∈ rows, among other) →
      rows.Pairwise (fun a b => precedes a b = false) →
      (place precedes row rows).Pairwise (fun a b => precedes a b = false) := by
  intro rows
  induction rows with
  | nil => intro _ _; simp [place]
  | cons last before ih =>
      intro hall hord
      have hlast : among last := hall last (by simp)
      obtain ⟨hhead, htail⟩ := List.pairwise_cons.mp hord
      unfold place
      split
      · rename_i hlt
        refine List.pairwise_cons.mpr ⟨?_, ih (fun o ho => hall o (by simp [ho])) htail⟩
        intro other hother
        rcases mem_place.mp hother with rfl | hother
        · exact order.asymm hrow hlast hlt
        · exact hhead other hother
      · rename_i hlt
        have hnot : precedes row last = false := by simpa using hlt
        refine List.pairwise_cons.mpr ⟨?_, hord⟩
        intro other hother
        rcases List.mem_cons.mp hother with rfl | hother
        · exact hnot
        · exact order.trans hrow hlast (hall other (by simp [hother])) hnot (hhead other hother)

/-- A row that precedes none of the rows is put in front of them. -/
theorem place_eq_cons {row : Row} {rows : List Row}
    (h : ∀ other ∈ rows, precedes row other = false) :
    place precedes row rows = row :: rows := by
  cases rows with
  | nil => rfl
  | cons last before =>
      unfold place
      rw [if_neg (by simp [h last (by simp)])]

/-- Leaving rows out of a list in order, before or after one more row is placed. -/
theorem filter_place (order : WeakOrder precedes among) (keep : Row → Bool) {row : Row}
    (hrow : among row) :
    ∀ {rows : List Row}, (∀ other ∈ rows, among other) →
      rows.Pairwise (fun a b => precedes a b = false) →
      (place precedes row rows).filter keep
        = if keep row then place precedes row (rows.filter keep) else rows.filter keep := by
  intro rows
  induction rows with
  | nil =>
      intro _ _
      by_cases hk : keep row <;> simp [place, hk]
  | cons last before ih =>
      intro hall hord
      obtain ⟨hhead, htail⟩ := List.pairwise_cons.mp hord
      have ih' := ih (fun o ho => hall o (by simp [ho])) htail
      by_cases hlt : precedes row last = true
      · rw [place, if_pos hlt, List.filter_cons, ih', List.filter_cons]
        by_cases hl : keep last <;> by_cases hk : keep row <;> simp [hl, hk, place, hlt]
      · have hnot : precedes row last = false := by simpa using hlt
        have hfront : ∀ other ∈ (last :: before).filter keep, precedes row other = false := by
          intro other hother
          rcases List.mem_cons.mp (List.mem_filter.mp hother).1 with rfl | hmem
          · exact hnot
          · exact order.trans hrow (hall last (by simp)) (hall other (by simp [hmem])) hnot
              (hhead other hmem)
        rw [place, if_neg hlt, List.filter_cons, place_eq_cons hfront]

theorem filter_foldl_place (order : WeakOrder precedes among) (keep : Row → Bool)
    {rows sorted : List Row} (hrows : ∀ row ∈ rows, among row)
    (hsorted : ∀ row ∈ sorted, among row)
    (hord : sorted.Pairwise (fun a b => precedes a b = false)) :
    (rows.foldl (fun sorted row => place precedes row sorted) sorted).filter keep
      = (rows.filter keep).foldl (fun sorted row => place precedes row sorted)
          (sorted.filter keep) := by
  induction rows generalizing sorted with
  | nil => rfl
  | cons first rest ih =>
      have hfirst : among first := hrows first (by simp)
      rw [List.foldl_cons, ih (fun row h => hrows row (by simp [h])) (among_place hfirst hsorted)
        (place_ordered order hfirst hsorted hord), filter_place order keep hfirst hsorted hord,
        List.filter_cons]
      by_cases hk : keep first <;> simp [hk]

theorem mem_sortRows {row : Row} {rows : List Row} :
    row ∈ sortRows precedes rows ↔ row ∈ rows :=
  (sortRows_perm rows).mem_iff

theorem foldl_place_ordered (order : WeakOrder precedes among) {rows sorted : List Row}
    (hrows : ∀ row ∈ rows, among row) (hsorted : ∀ row ∈ sorted, among row)
    (hord : sorted.Pairwise (fun a b => precedes a b = false)) :
    (rows.foldl (fun sorted row => place precedes row sorted) sorted).Pairwise
      (fun a b => precedes a b = false) := by
  induction rows generalizing sorted with
  | nil => exact hord
  | cons row rest ih =>
      have hrow : among row := hrows row (by simp)
      exact ih (fun other hother => hrows other (by simp [hother])) (among_place hrow hsorted)
        (place_ordered order hrow hsorted hord)

/-- No row stands behind one that it precedes. -/
theorem sortRows_ordered (order : WeakOrder precedes among) {rows : List Row}
    (hrows : ∀ row ∈ rows, among row) :
    (sortRows precedes rows).Pairwise fun left right => precedes right left = false :=
  List.pairwise_reverse.mpr (foldl_place_ordered order hrows (by simp) .nil)

theorem foldl_place_eq (among : Row → Prop)
    (h : ∀ {left right}, among left → among right → precedes left right = false)
    {rows sorted : List Row} (hrows : ∀ row ∈ rows, among row)
    (hsorted : ∀ row ∈ sorted, among row) :
    rows.foldl (fun sorted row => place precedes row sorted) sorted = rows.reverse ++ sorted := by
  induction rows generalizing sorted with
  | nil => rfl
  | cons row rest ih =>
      have hrow : among row := hrows row (by simp)
      have hfront : place precedes row sorted = row :: sorted :=
        place_eq_cons fun other hother => h hrow (hsorted other hother)
      rw [List.foldl_cons, ih (fun other hother => hrows other (by simp [hother]))
        (among_place hrow hsorted), hfront, List.reverse_cons, List.append_assoc,
        List.singleton_append]

/-- Rows of which none precedes another stay as they are. -/
theorem sortRows_eq_self {rows : List Row}
    (h : ∀ left ∈ rows, ∀ right ∈ rows, precedes left right = false) :
    sortRows precedes rows = rows := by
  unfold sortRows
  rw [foldl_place_eq (· ∈ rows) (fun hleft hright => h _ hleft _ hright) (fun _ => id) (by simp),
    List.append_nil, List.reverse_reverse]

/-- **Sorting what is left is leaving out of what is sorted.** -/
theorem filter_sortRows (order : WeakOrder precedes among) (keep : Row → Bool)
    {rows : List Row} (hrows : ∀ row ∈ rows, among row) :
    (sortRows precedes rows).filter keep = sortRows precedes (rows.filter keep) := by
  unfold sortRows
  rw [List.filter_reverse, filter_foldl_place order keep hrows (by simp) List.Pairwise.nil]
  rfl

end Sorting

/-! ### Sorting by columns -/

/-- The values of an ordering's column are mutually comparable among some rows. -/
def Sortable (ordering : OrderBy) (rows : List Row) : Prop :=
  ∀ left ∈ rows, ∀ right ∈ rows,
    Comparison.Comparable (columnValue left ordering.column) (columnValue right ordering.column)

theorem orderRows_swap (ordering : OrderBy) (left right : Row) :
    (orderRows ordering left right).swap = orderRows ordering right left := by
  unfold orderRows
  cases ordering.direction with
  | ascending => exact Comparison.order_swap _ _
  | descending => exact congrArg Ordering.swap (Comparison.order_swap _ _)

/-- A row does not precede another exactly if, in the direction of the ordering, the other one's
value does not come after its own. -/
theorem not_orderRows_lt {ordering : OrderBy} {left right : Row} :
    (orderRows ordering left right == .lt) = false
      ↔ match ordering.direction with
        | .ascending => Comparison.order (columnValue right ordering.column)
            (columnValue left ordering.column) ≠ .gt
        | .descending => Comparison.order (columnValue left ordering.column)
            (columnValue right ordering.column) ≠ .gt := by
  unfold orderRows
  rw [← Comparison.order_swap (columnValue left ordering.column)]
  cases ordering.direction <;>
    cases Comparison.order (columnValue left ordering.column)
        (columnValue right ordering.column) <;>
      decide

open Comparison in
/-- **An ordering is a weak order of rows exactly if none of its column's values tears it.** -/
theorem orderRows_weak_iff {ordering : OrderBy} {rows : List Row} :
    WeakOrder (fun left right => orderRows ordering left right == .lt) (· ∈ rows)
      ↔ ∀ a ∈ rows, ∀ b ∈ rows, ∀ c ∈ rows, ¬ Torn (columnValue a ordering.column)
          (columnValue b ordering.column) (columnValue c ordering.column) := by
  constructor
  · intro hweak a ha b hb c hc htorn
    obtain ⟨hab, hbc, hac⟩ := order_torn_iff.mpr htorn
    cases hdirection : ordering.direction with
    | ascending =>
        have htrans := hweak.trans hc hb ha (not_orderRows_lt.mpr (by rw [hdirection]; exact hbc))
          (not_orderRows_lt.mpr (by rw [hdirection]; exact hab))
        rw [not_orderRows_lt, hdirection] at htrans
        exact htrans hac
    | descending =>
        have htrans := hweak.trans ha hb hc (not_orderRows_lt.mpr (by rw [hdirection]; exact hab))
          (not_orderRows_lt.mpr (by rw [hdirection]; exact hbc))
        rw [not_orderRows_lt, hdirection] at htrans
        exact htrans hac
  · intro hwhole
    constructor
    · intro a b _ _ hab
      rw [← orderRows_swap, beq_iff_eq.mp hab]
      rfl
    · intro a b c ha hb hc hab hbc
      rw [not_orderRows_lt] at hab hbc ⊢
      cases hdirection : ordering.direction with
      | ascending =>
          rw [hdirection] at hab hbc
          exact fun hac => hwhole c hc b hb a ha (order_torn_iff.mp ⟨hbc, hab, hac⟩)
      | descending =>
          rw [hdirection] at hab hbc
          exact fun hac => hwhole a ha b hb c hc (order_torn_iff.mp ⟨hab, hbc, hac⟩)

theorem orderRows_weak {ordering : OrderBy} {rows : List Row} (h : Sortable ordering rows) :
    WeakOrder (fun left right => orderRows ordering left right == .lt) (· ∈ rows) :=
  orderRows_weak_iff.mpr fun a ha b hb _ _ htorn => htorn.2.1 (h a ha b hb)

theorem mem_sortByAll {orderings : List OrderBy} {rows : List Row} {row : Row}
    (h : row ∈ sortByAll orderings rows) : row ∈ rows := by
  induction orderings with
  | nil => exact h
  | cons ordering rest ih =>
      have hsorted : row ∈ sortRows
          (fun left right => orderRows ordering left right == .lt) (sortByAll rest rows) := h
      exact ih (mem_sortRows.mp hsorted)

/-- **Leaving rows out and sorting them by columns whose values are comparable commute.** -/
theorem filter_sortByAll {orderings : List OrderBy} {table : List Row}
    (h : ∀ ordering ∈ orderings, Sortable ordering table) (keep : Row → Bool)
    {rows : List Row} (hrows : ∀ row ∈ rows, row ∈ table) :
    (sortByAll orderings rows).filter keep = sortByAll orderings (rows.filter keep)
      ∧ ∀ row ∈ sortByAll orderings rows, row ∈ table := by
  unfold sortByAll
  induction orderings with
  | nil => exact ⟨rfl, hrows⟩
  | cons ordering rest ih =>
      obtain ⟨hfilter, hmem⟩ := ih (fun o ho => h o (by simp [ho]))
      rw [List.foldr_cons, List.foldr_cons, ← hfilter]
      constructor
      · exact filter_sortRows (orderRows_weak (h ordering (by simp))) keep hmem
      · intro row hrow
        exact hmem row (mem_sortRows.mp hrow)

/-! ### Columns of mixed kinds -/

open Comparison in
/-- **The order of values is turned around with its sides, and it is transitive unless a value
tears it.**  Not to come after another is transitive for three values exactly if they are not torn,
and to tie is if they are torn from neither side.  So a column gives rows a weak order to be sorted
by exactly if it holds no such three values. -/
theorem order_consistent (a b c : Json) (ordering : OrderBy) (rows : List Row) :
    order b a = (order a b).swap
      ∧ order a a = .eq
      ∧ ((order a b ≠ .gt → order b c ≠ .gt → order a c ≠ .gt) ↔ ¬ Torn a b c)
      ∧ ((order a b = .eq → order b c = .eq → order a c = .eq) ↔ ¬ Torn a b c ∧ ¬ Torn c b a)
      ∧ (WeakOrder (fun left right => orderRows ordering left right == .lt) (· ∈ rows)
        ↔ ∀ first ∈ rows, ∀ between ∈ rows, ∀ last ∈ rows,
          ¬ Torn (columnValue first ordering.column) (columnValue between ordering.column)
            (columnValue last ordering.column)) := by
  refine ⟨(order_swap a b).symm, order_self a, ?_, ?_, orderRows_weak_iff⟩
  · constructor
    · intro htrans htorn
      obtain ⟨hab, hbc, hac⟩ := order_torn_iff.mpr htorn
      exact htrans hab hbc hac
    · intro hwhole hab hbc hac
      exact hwhole (order_torn_iff.mp ⟨hab, hbc, hac⟩)
  · rw [← not_or, ← order_tie_torn_iff]
    constructor
    · intro htrans ⟨hab, hbc, hac⟩
      exact hac (htrans hab hbc)
    · intro hwhole hab hbc
      exact Classical.byContradiction fun hac => hwhole ⟨hab, hbc, hac⟩

open Comparison in
/-- **A text between two numbers ties with both**, so that the higher one stays in front. -/
theorem sortBy_torn :
    order (.num (.int 1)) (.str "a") = .eq ∧ order (.str "a") (.num (.int 0)) = .eq
      ∧ order (.num (.int 1)) (.num (.int 0)) = .gt
      ∧ sortBy ⟨"v", .ascending⟩ [[("v", .num (.int 1))], [("v", .str "a")], [("v", .num (.int 0))]]
        = [[("v", .num (.int 1))], [("v", .str "a")], [("v", .num (.int 0))]] :=
  ⟨rfl, rfl, by decide +kernel, rfl⟩

end Database

end GraphFetch
