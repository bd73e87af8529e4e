/-
Rows in the order of several orderings.

What sorting by orderings gives is described here without any sorting: a list of the same rows in
which no row stands behind one that the orderings put after it, and in which rows that all
orderings tie stand as before.  The first ordering that does not tie two rows decides on them.
There is one such list only.

The rows are sorted once for each ordering, the first one last.  Why this gives the
lexicographic order is the induction on the orderings: the last sort leaves rows that it ties as
they were, so they are still in the order of the other orderings.  For this, sorting and
leaving out all rows but those tied with a given one have to commute.
-/
import Mathlib.Data.List.Basic
import GraphFetch.Proofs.Database.Sorting

namespace GraphFetch

namespace Database

/-! ### The order that orderings describe -/

/-- Whether a value sorts below another: null below all others, and of one kind the number with the
lower double, the string that comes first, and false. -/
def below : Json → Json → Bool
  | .null, value => !value.isNull
  | .num m, .num n => m.toDouble.signed < n.toDouble.signed
  | .str s, .str t => s < t
  | .bool a, .bool b => !a && b
  | _, _ => false

/-- Whether an ordering puts a row before another. -/
def sooner (ordering : OrderBy) (left right : Row) : Bool :=
  match ordering.direction with
  | .ascending => below (columnValue left ordering.column) (columnValue right ordering.column)
  | .descending => below (columnValue right ordering.column) (columnValue left ordering.column)

/-- Whether orderings put a row before another: the first one that does not tie them decides. -/
def before : List OrderBy → Row → Row → Bool
  | [], _, _ => false
  | ordering :: rest, left, right =>
    sooner ordering left right || (!sooner ordering right left && before rest left right)

/-- Whether all orderings tie two rows. -/
def tied (orderings : List OrderBy) (left right : Row) : Bool :=
  orderings.all fun ordering => !sooner ordering left right && !sooner ordering right left

/-- Rows in the order that orderings describe, where rows that they tie keep their order. -/
structure Arranged (orderings : List OrderBy) (rows sorted : List Row) : Prop where
  perm : sorted.Perm rows
  ordered : sorted.Pairwise fun left right => before orderings right left = false
  stable : ∀ row ∈ rows, sorted.filter (tied orderings row) = rows.filter (tied orderings row)

theorem order_eq_lt (a b : Json) : (Comparison.order a b == .lt) = below a b := by
  cases a <;> cases b <;> try rfl
  · rename_i x y
    cases x <;> cases y <;> rfl
  · rename_i m n
    show (compare m.toDouble.signed n.toDouble.signed == .lt) = decide _
    rw [Bool.eq_iff_iff, beq_iff_eq, Int.compare_eq_lt, decide_eq_true_iff]
  · rename_i s t
    show (Comparison.orderString s t == .lt) = decide (s < t)
    rw [Bool.eq_iff_iff, beq_iff_eq, decide_eq_true_iff, ← Comparison.orderString_eq_gt,
      ← Comparison.orderString_swap]
    cases Comparison.orderString t s <;> simp

/-- What the rows are sorted by is what each ordering describes. -/
theorem orderRows_eq_lt (ordering : OrderBy) (left right : Row) :
    (orderRows ordering left right == .lt) = sooner ordering left right := by
  unfold orderRows sooner
  cases ordering.direction with
  | ascending => exact order_eq_lt _ _
  | descending =>
      show ((Comparison.order _ _).swap == .lt) = _
      rw [Comparison.order_swap]
      exact order_eq_lt _ _

theorem sortBy_eq (ordering : OrderBy) (rows : List Row) :
    sortBy ordering rows = sortRows (sooner ordering) rows := by
  unfold sortBy
  exact congrArg (fun precedes => sortRows precedes rows)
    (funext fun left => funext fun right => orderRows_eq_lt ordering left right)

theorem sooner_weak {ordering : OrderBy} {rows : List Row} (h : Sortable ordering rows) :
    WeakOrder (sooner ordering) (· ∈ rows) := by
  have hweak := orderRows_weak h
  simp only [orderRows_eq_lt] at hweak
  exact hweak

theorem sooner_self (ordering : OrderBy) (row : Row) : sooner ordering row row = false := by
  have hself : ∀ value : Json, below value value = false := by
    intro value
    cases value <;> simp [below, Json.isNull]
  unfold sooner
  cases ordering.direction with
  | ascending => exact hself _
  | descending => exact hself _

theorem tied_self (orderings : List OrderBy) (row : Row) : tied orderings row row = true := by
  simp [tied, sooner_self]

/-- Of two rows one is before the other, or all orderings tie them. -/
theorem tied_of_not_before {orderings : List OrderBy} {left right : Row}
    (hleft : before orderings left right = false) (hright : before orderings right left = false) :
    tied orderings left right = true := by
  induction orderings with
  | nil => rfl
  | cons ordering rest ih =>
      obtain ⟨hleft, hleftRest⟩ := Bool.or_eq_false_iff.mp hleft
      obtain ⟨hright, hrightRest⟩ := Bool.or_eq_false_iff.mp hright
      rw [hright, Bool.not_false, Bool.true_and] at hleftRest
      rw [hleft, Bool.not_false, Bool.true_and] at hrightRest
      have hrest : rest.all _ = true := ih hleftRest hrightRest
      simp [tied, hleft, hright, hrest]

theorem tied_cons (ordering : OrderBy) (rest : List OrderBy) (left right : Row) :
    tied (ordering :: rest) left right = (tied [ordering] left right && tied rest left right) := by
  simp [tied]

theorem tied_single {ordering : OrderBy} {left right : Row} :
    tied [ordering] left right = true
      ↔ sooner ordering left right = false ∧ sooner ordering right left = false := by
  simp [tied]

/-! ### Only one list is arranged -/

/-- Lists of the same rows in the order of the orderings are equal, if among tied rows they are. -/
theorem eq_of_ordered {orderings : List OrderBy} {rows others : List Row}
    (hperm : rows.Perm others)
    (hrows : rows.Pairwise fun left right => before orderings right left = false)
    (hothers : others.Pairwise fun left right => before orderings right left = false)
    (htied : ∀ row ∈ rows,
      rows.filter (tied orderings row) = others.filter (tied orderings row)) :
    rows = others := by
  induction rows generalizing others with
  | nil => exact hperm.nil_eq
  | cons first rows ih =>
      cases others with
      | nil => exact absurd hperm (List.not_perm_cons_nil)
      | cons other others =>
          obtain ⟨hfirst, hrowsTail⟩ := List.pairwise_cons.mp hrows
          obtain ⟨hother, hothersTail⟩ := List.pairwise_cons.mp hothers
          -- Neither of the two rows in front is before the other, so they stand among tied rows.
          obtain rfl : first = other := by
            apply Classical.byContradiction
            intro hne
            have hmem : first ∈ others := by
              simpa [hne] using hperm.subset (List.mem_cons_self (a := first) (l := rows))
            have hmem' : other ∈ rows := by
              simpa [Ne.symm hne] using
                hperm.symm.subset (List.mem_cons_self (a := other) (l := others))
            have hboth := htied first List.mem_cons_self
            rw [List.filter_cons_of_pos (tied_self orderings first), List.filter_cons_of_pos
              (tied_of_not_before (hother first hmem) (hfirst other hmem'))] at hboth
            exact hne (List.head_eq_of_cons_eq hboth)
          refine congrArg (first :: ·) (ih hperm.cons_inv hrowsTail hothersTail fun row hrow => ?_)
          have hboth := htied row (List.mem_cons_of_mem first hrow)
          by_cases h : tied orderings row first = true
          · rw [List.filter_cons_of_pos h, List.filter_cons_of_pos h] at hboth
            exact List.tail_eq_of_cons_eq hboth
          · rwa [List.filter_cons_of_neg h, List.filter_cons_of_neg h] at hboth

/-- **There is one way only to arrange rows.** -/
theorem Arranged.unique {orderings : List OrderBy} {rows sorted other : List Row}
    (hsorted : Arranged orderings rows sorted) (hother : Arranged orderings rows other) :
    sorted = other := by
  refine eq_of_ordered (hsorted.perm.trans hother.perm.symm) hsorted.ordered hother.ordered ?_
  intro row hrow
  have hmem : row ∈ rows := hsorted.perm.subset hrow
  rw [hsorted.stable row hmem, hother.stable row hmem]

/-! ### Sorting by all orderings -/

/-- **Sorting by an ordering leaves the rows that it ties with a given one as they are.** -/
theorem filter_sortBy_tied {ordering : OrderBy} {rows sorted : List Row}
    (h : Sortable ordering rows) (hsorted : ∀ row ∈ sorted, row ∈ rows) {row : Row}
    (hrow : row ∈ rows) :
    (sortBy ordering sorted).filter (tied [ordering] row)
      = sorted.filter (tied [ordering] row) := by
  have hweak := sooner_weak h
  rw [sortBy_eq, filter_sortRows hweak _ hsorted]
  refine sortRows_eq_self fun left hleft right hright => ?_
  obtain ⟨hleft, hleftTied⟩ := List.mem_filter.mp hleft
  obtain ⟨hright, hrightTied⟩ := List.mem_filter.mp hright
  exact hweak.trans (hsorted left hleft) hrow (hsorted right hright)
    (tied_single.mp hleftTied).2 (tied_single.mp hrightTied).1

/-- What holds of any two rows in the order in which they stand, if it does among the rows tied
with each. -/
theorem pairwise_of_tied {ordering : OrderBy} {rows : List Row} {holds : Row → Row → Prop}
    (h : ∀ row ∈ rows, (rows.filter (tied [ordering] row)).Pairwise holds) :
    rows.Pairwise fun left right => tied [ordering] left right = true → holds left right := by
  rw [List.pairwise_iff_forall_sublist]
  intro left right hsublist htied
  have hleft : left ∈ rows := hsublist.subset (by simp)
  have hpair := hsublist.filter (tied [ordering] left)
  rw [List.filter_cons_of_pos (tied_self _ left), List.filter_cons_of_pos htied,
    List.filter_nil] at hpair
  exact List.pairwise_iff_forall_sublist.mp (h left hleft) hpair

section Step

variable {ordering : OrderBy} {rest : List OrderBy} {rows sorted : List Row}
  (hsortable : Sortable ordering rows) (h : Arranged rest rows sorted)

include hsortable h

/-- Among the rows that an ordering ties the others are still in force, since sorting by it left
them as they were. -/
theorem Arranged.sortBy_ordered : (sortBy ordering sorted).Pairwise
    fun left right => before (ordering :: rest) right left = false := by
  have hmem : ∀ row ∈ sorted, row ∈ rows := fun _ hrow => h.perm.subset hrow
  have hfirst : (sortBy ordering sorted).Pairwise
      fun left right => sooner ordering right left = false :=
    sortBy_eq ordering _ ▸ sortRows_ordered (sooner_weak hsortable) hmem
  have hrest : (sortBy ordering sorted).Pairwise fun left right =>
      tied [ordering] left right = true → before rest right left = false := by
    refine pairwise_of_tied fun row hrow => ?_
    rw [sortBy_eq] at hrow
    rw [filter_sortBy_tied hsortable hmem (hmem row ((sortRows_perm sorted).subset hrow))]
    exact h.ordered.filter _
  refine (hfirst.and hrest).imp ?_
  rintro left right ⟨hlater, hrest⟩
  rw [before, hlater, Bool.false_or]
  by_cases hsooner : sooner ordering left right = true
  · rw [hsooner]
    rfl
  · rw [Bool.not_eq_true] at hsooner
    rw [hrest (tied_single.mpr ⟨hsooner, hlater⟩), Bool.and_false]

/-- Rows that one more ordering ties are found by two filters, which sorting commutes with. -/
theorem Arranged.sortBy_stable {row : Row} (hrow : row ∈ rows) :
    (sortBy ordering sorted).filter (tied (ordering :: rest) row)
      = rows.filter (tied (ordering :: rest) row) := by
  have hmem : ∀ row ∈ sorted, row ∈ rows := fun _ hrow => h.perm.subset hrow
  have hsplit : ∀ others : List Row, others.filter (tied (ordering :: rest) row)
      = (others.filter (tied rest row)).filter (tied [ordering] row) := by
    intro others
    rw [List.filter_filter]
    exact List.filter_congr fun other _ => tied_cons ordering rest row other
  calc (sortBy ordering sorted).filter (tied (ordering :: rest) row)
      = ((sortBy ordering sorted).filter (tied [ordering] row)).filter (tied rest row) := by
        rw [hsplit, List.filter_comm]
    _ = (sorted.filter (tied [ordering] row)).filter (tied rest row) := by
        rw [filter_sortBy_tied hsortable hmem hrow]
    _ = (sorted.filter (tied rest row)).filter (tied [ordering] row) := List.filter_comm _ _ _
    _ = (rows.filter (tied rest row)).filter (tied [ordering] row) := by rw [h.stable row hrow]
    _ = rows.filter (tied (ordering :: rest) row) := (hsplit rows).symm

/-- **Sorting arranged rows by one more ordering arranges them by it first.** -/
theorem Arranged.sortBy : Arranged (ordering :: rest) rows (sortBy ordering sorted) where
  perm := (sortBy_eq ordering _ ▸ sortRows_perm _).trans h.perm
  ordered := h.sortBy_ordered hsortable
  stable := fun _ hrow => h.sortBy_stable hsortable hrow

end Step

/-- **Sorting by all orderings, the last one first, arranges the rows.** -/
theorem sortByAll_arranged {orderings : List OrderBy} {rows : List Row}
    (h : ∀ ordering ∈ orderings, Sortable ordering rows) :
    Arranged orderings rows (sortByAll orderings rows) := by
  induction orderings with
  | nil => exact ⟨.refl rows, List.pairwise_of_forall fun _ _ => rfl, fun _ _ => rfl⟩
  | cons ordering rest ih =>
      rw [List.forall_mem_cons] at h
      exact (ih h.2).sortBy h.1

end Database

end GraphFetch
