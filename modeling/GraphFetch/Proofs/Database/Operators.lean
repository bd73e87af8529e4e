/-
How the operators of conditions go together.

Strict comparisons and equality say nothing of values that cannot be compared: of different kinds,
neither of them null, or lists or objects.  The order ties such values, and what is checked for
greater or equal is that the order does not put the one below the other.  So this holds of all
values that cannot be compared, in both directions, and nowhere else does it differ from being
greater or being equal.

Lists of values are checked by equality with their items.  No operator but the check for null is
satisfied by a row without a value, so the negated operators are complements on other rows only.
-/
import GraphFetch.Proofs.Database.Runs
import GraphFetch.Proofs.Database.Sorting

namespace GraphFetch

namespace Comparison

/-- **The order ties what is equal and what cannot be compared.** -/
theorem order_eq_eq {a b : Json} : order a b = .eq ↔ equals a b = true ∨ ¬ Comparable a b := by
  cases a <;> cases b <;> try simp [order, equals, Json.same, Comparable]
  · rename_i x y
    cases x <;> cases y <;> simp [orderBool]
  · rename_i m n
    rw [Number.order, Double.order, Int.compare_eq_eq, Number.agrees, Double.same_iff]
  · rename_i s t
    unfold orderString
    by_cases hlt : s < t
    · have hne : s ≠ t := fun heq => String.lt_irrefl t (heq ▸ hlt)
      simp [hlt, hne]
    · by_cases heq : s = t
      · simp [heq]
      · simp [hlt, heq]

end Comparison

namespace Database

open Comparison (Comparable equals order order_eq_eq)

/-- Whether a row satisfies an operator on one of its columns with a value. -/
def passes (row : Row) (column : String) (operator : Operator) (value : Const) : Bool :=
  satisfies row (⟨column, operator, some value⟩, some value.toJson)

/-! ### Values that are compared -/

/-- Greater or equal is what is greater, equal or cannot be compared. -/
theorem holds_gte {a b : Json} :
    holds .gte a b = true ↔ holds .gt a b = true ∨ holds .eq a b = true ∨ ¬ Comparable a b := by
  show (order a b != .lt) = true ↔ (order a b == .gt) = true ∨ equals a b = true ∨ _
  rw [← order_eq_eq]
  cases order a b <;> simp

/-- Less or equal is what is less, equal or cannot be compared. -/
theorem holds_lte {a b : Json} :
    holds .lte a b = true ↔ holds .lt a b = true ∨ holds .eq a b = true ∨ ¬ Comparable a b := by
  show (order a b != .gt) = true ↔ (order a b == .lt) = true ∨ equals a b = true ∨ _
  rw [← order_eq_eq]
  cases order a b <;> simp

theorem not_holds_lt_and_gt (a b : Json) : ¬ (holds .lt a b = true ∧ holds .gt a b = true) := by
  show ¬ ((order a b == .lt) = true ∧ (order a b == .gt) = true)
  cases order a b <;> simp

/-! ### Rows -/

section Rows

variable {row : Row} {column : String} {operator : Operator} {value : Const}

/-- A row satisfies an operator that takes a value if it has a value of its own, and the operator
holds of the two. -/
theorem passes_iff (hvalue : operator.isUnary = false) :
    passes row column operator value = true
      ↔ columnValue row column ≠ .null
        ∧ holds operator (columnValue row column) value.toJson = true := by
  have hnull : columnValue row column ≠ .null ↔ (columnValue row column).isNull = false := by
    cases columnValue row column <;> simp [Json.isNull]
  rw [hnull]
  unfold passes satisfies
  cases operator <;> simp_all [Operator.isUnary]

/-- A value is in a list if it equals one of its items. -/
theorem passes_isIn {items : List Json} (hitems : value.toJson = .arr items) :
    passes row column .isIn value = true
      ↔ ∃ item ∈ items, passes row column .eq (Const.ofJson item) = true := by
  have heq : ∀ item, passes row column .eq (Const.ofJson item) = true
      ↔ columnValue row column ≠ .null ∧ equals (columnValue row column) item = true := by
    intro item
    rw [passes_iff rfl, Const.toJson_ofJson]
    rfl
  rw [passes_iff rfl, hitems]
  show _ ∧ items.any (equals (columnValue row column)) = true ↔ _
  rw [List.any_eq_true]
  constructor
  · rintro ⟨hnull, item, hitem, hequal⟩
    exact ⟨item, hitem, (heq item).mpr ⟨hnull, hequal⟩⟩
  · rintro ⟨item, hitem, hpasses⟩
    obtain ⟨hnull, hequal⟩ := (heq item).mp hpasses
    exact ⟨hnull, item, hitem, hequal⟩

/-- **What is greater or equal is greater or equal, but for values that cannot be compared.**
Nothing is both less and greater, the negated operators are complements on rows with a value, and a
value is in a list if it equals one of its items. -/
theorem operators_agree (row : Row) (column : String) (value : Const) :
    (passes row column .gte value = true
        ↔ passes row column .gt value = true ∨ passes row column .eq value = true
          ∨ ¬ Comparable (columnValue row column) value.toJson)
      ∧ (passes row column .lte value = true
        ↔ passes row column .lt value = true ∨ passes row column .eq value = true
          ∨ ¬ Comparable (columnValue row column) value.toJson)
      ∧ ¬ (passes row column .lt value = true ∧ passes row column .gt value = true)
      ∧ (passes row column .notEq value = true
        ↔ columnValue row column ≠ .null ∧ ¬ passes row column .eq value = true)
      ∧ ∀ items, value.toJson = .arr items →
        (passes row column .notIn value = true
          ↔ columnValue row column ≠ .null ∧ ¬ passes row column .isIn value = true)
        ∧ (passes row column .isIn value = true
          ↔ ∃ item ∈ items, passes row column .eq (Const.ofJson item) = true) := by
  have hpresent : ¬ Comparable (columnValue row column) value.toJson →
      columnValue row column ≠ .null := by
    intro hapart hnull
    rw [hnull] at hapart
    exact hapart trivial
  refine ⟨?_, ?_, ?_, ?_, ?_⟩
  · rw [passes_iff rfl, passes_iff rfl, passes_iff rfl, holds_gte, and_or_left, and_or_left,
      and_iff_right_of_imp hpresent]
  · rw [passes_iff rfl, passes_iff rfl, passes_iff rfl, holds_lte, and_or_left, and_or_left,
      and_iff_right_of_imp hpresent]
  · rw [passes_iff rfl, passes_iff rfl]
    rintro ⟨⟨-, hlt⟩, -, hgt⟩
    exact not_holds_lt_and_gt _ _ ⟨hlt, hgt⟩
  · rw [passes_iff rfl, passes_iff rfl]
    simp +contextual [holds]
  · intro items hitems
    refine ⟨?_, passes_isIn hitems⟩
    rw [passes_iff rfl, passes_iff rfl, hitems]
    simp +contextual [holds]

end Rows

/-- A grade that is a text is in a list with an equal text, and not out of it. -/
theorem operators_agree_grade :
    passes [("grade", .str "b")] "grade" .isIn (.list [.number (.int 1), .string "b"]) = true
      ∧ ¬ passes [("grade", .str "b")] "grade" .notIn (.list [.number (.int 1), .string "b"])
        = true := by
  obtain ⟨-, -, -, -, hlist⟩ :=
    operators_agree [("grade", .str "b")] "grade" (.list [.number (.int 1), .string "b"])
  obtain ⟨hnotIn, hisIn⟩ := hlist [.num (.int 1), .str "b"] rfl
  have hin := hisIn.mpr ⟨.str "b", by simp, rfl⟩
  exact ⟨hin, fun hout => (hnotIn.mp hout).2 hin⟩

/-- **A text is greater than or equal to a number, and less than or equal to it**, and neither
greater nor less nor equal. -/
theorem operators_disagree :
    passes [("grade", .str "b")] "grade" .gte (.number (.int 5)) = true
      ∧ passes [("grade", .str "b")] "grade" .lte (.number (.int 5)) = true
      ∧ passes [("grade", .str "b")] "grade" .gt (.number (.int 5)) = false
      ∧ passes [("grade", .str "b")] "grade" .lt (.number (.int 5)) = false
      ∧ passes [("grade", .str "b")] "grade" .eq (.number (.int 5)) = false :=
  ⟨rfl, rfl, rfl, rfl, rfl⟩

end Database

end GraphFetch
