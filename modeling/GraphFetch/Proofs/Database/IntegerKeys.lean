/-
Integers as keys.

Numbers are compared as doubles, so that an integer and a fraction of the same value are equal.
Two integers are told apart, and stand in their order, if one of them is below 2^53 in
magnitude, or both have doubles of their own.  Otherwise neighbours can be one key: their order
is never turned around, but they may tie, and then a condition on one of them keeps the other and
a join attaches what belongs to the other.
-/
import GraphFetch.Proofs.Database.Selecting
import GraphFetch.Proofs.Number.Integers
import GraphFetch.Proofs.Outcome

namespace GraphFetch

namespace Comparison

open Double (ToldApart)

/-! ### Comparing integers -/

/-- An integer as a value. -/
abbrev integer (n : Int) : Json := .num (.int n)

theorem order_integer (m n : Int) :
    order (integer m) (integer n) = compare (Double.ofInt m).signed (Double.ofInt n).signed := rfl

theorem equals_integer_iff {m n : Int} :
    equals (integer m) (integer n) = true ↔ (Double.ofInt m).signed = (Double.ofInt n).signed :=
  Double.same_iff _ _

/-- **The order of integers is never turned around.** -/
theorem order_integer_ne_gt {m n : Int} (h : m ≤ n) : order (integer m) (integer n) ≠ .gt := by
  rw [order_integer, Ne, Int.compare_eq_gt]
  exact not_lt.mpr (Double.signed_ofInt_mono h)

/-- **Integers that are told apart compare as they do.** -/
theorem order_integer_exact {m n : Int} (h : ToldApart m n) :
    order (integer m) (integer n) = compare m n := by
  rw [order_integer]
  rcases lt_trichotomy m n with hlt | rfl | hgt
  · rw [Int.compare_eq_lt.mpr hlt, Int.compare_eq_lt]
    exact Double.signed_ofInt_lt h hlt
  · rw [Int.compare_eq_eq.mpr rfl, eq_comm, Int.compare_eq_eq]
  · rw [Int.compare_eq_gt.mpr hgt, Int.compare_eq_gt]
    exact Double.signed_ofInt_lt h.symm hgt

/-- **Integers that are told apart are equal only if they are the same.** -/
theorem equals_integer_exact {m n : Int} (h : ToldApart m n) :
    equals (integer m) (integer n) = true ↔ m = n := by
  rw [equals_integer_iff]
  constructor
  · intro hsame
    rcases lt_trichotomy m n with hlt | heq | hgt
    · exact absurd hsame (Double.signed_ofInt_lt h hlt).ne
    · exact heq
    · exact absurd hsame (Double.signed_ofInt_lt h.symm hgt).ne'
  · intro heq
    rw [heq]

end Comparison

namespace Database

open Comparison (equals order integer)
open Double (ToldApart)

/-! ### Conditions and joins -/

/-- A row that is selected for an integer has no other integer that is told apart from it. -/
theorem eq_of_mem_select {database : Database} {query : Query} {rows : List Row} {column : String}
    {n : Int} (hcondition : ⟨column, .eq, some (.number (.int n))⟩ ∈ query.conditions)
    (h : (database.select query).result = .ok rows) {row : Row} (hrow : row ∈ rows) {m : Int}
    (hcolumn : columnValue row column = integer m) (hapart : ToldApart m n) : m = n := by
  have hsatisfies := (List.mem_filter.mp (mem_satisfying_of_select h hrow)).2
  have hequal := List.all_eq_true.mp hsatisfies _ hcondition
  replace hequal : (!(columnValue row column).isNull
      && equals (columnValue row column) (integer n)) = true := hequal
  rw [hcolumn] at hequal
  exact (Comparison.equals_integer_exact hapart).mp (Bool.and_eq_true_iff.mp hequal).2

/-- Whether a direct join attaches a row to an owner. -/
def attaches (join : Join) (owner row : Row) : Bool :=
  hasKey join.relatedColumn (partnersOf join none owner) row

theorem attaches_iff {join : Join} {owner row : Row} {key related : Json}
    (howner : Named.find? join.ownerColumn owner = some key)
    (hrow : Named.find? join.relatedColumn row = some related) :
    attaches join owner row = true ↔ equals key related = true := by
  simp [attaches, hasKey, partnersOf, partners, howner, hrow]

/-- What a direct join attaches: of the rows that are fetched for all owners' keys, with the
relations below loaded into them, each owner gets some. -/
theorem loadNode_direct {database : Database} {modifiers : ModifierTable} {skipsUndefined : Bool}
    {entity : Entity} {node : RelationNode} {rows loaded : List Row} {relation : Relation}
    (hrelation : entity.relation? node.name = some relation)
    (hdirect : relation.join.through = none)
    (h : (loadNode database modifiers skipsUndefined entity node rows).result = .ok loaded) :
    ∃ query, ∃ found related : List Row,
      relationQuery database modifiers skipsUndefined relation node = .ok query
      ∧ (database.select (keyedQuery query relation.join
          (ownerKeys relation.join.ownerColumn rows))).result = .ok found
      ∧ (loadNodes database modifiers skipsUndefined (database.registry.entity relation.target)
          node.children found).result = .ok related
      ∧ loaded = rows.map fun owner => Named.put node.key (relationValue relation.kind
          ((related.filter (attaches relation.join owner)).map (project query node.children)))
          owner := by
  obtain ⟨other, query, found, related, hother, hquery, hfound, hrelated, rfl⟩ := loadNode_ok.mp h
  obtain rfl : relation = other := Option.some.inj (hrelation.symm.trans hother)
  have hlinked : ∀ keys, database.linked relation.join keys = none := by
    intro keys
    rw [linked, hdirect, Option.map_none]
  rw [wantedKeys, hlinked, Option.map_none, Option.getD_none] at hfound
  refine ⟨query, found, related, hquery, hfound, hrelated, List.map_congr_left fun owner _ => ?_⟩
  rw [hlinked]
  rfl

/-- **Comparing integers keeps their order, and is exact if one of them is below 2^53 in magnitude
or both have doubles of their own**: a condition on an integer then keeps no row with another one,
and a direct join attaches a row exactly if the two keys are the same. -/
theorem integer_keys_exact (m n : Int) :
    (m ≤ n → order (integer m) (integer n) ≠ .gt)
      ∧ (ToldApart m n →
        (equals (integer m) (integer n) = true ↔ m = n)
        ∧ order (integer m) (integer n) = compare m n
        ∧ (∀ (database : Database) (query : Query) (column : String) (rows : List Row),
          ⟨column, .eq, some (.number (.int n))⟩ ∈ query.conditions →
          (database.select query).result = .ok rows →
            ∀ row ∈ rows, columnValue row column = integer m → m = n)
        ∧ (∀ (database : Database) (modifiers : ModifierTable) (skipsUndefined : Bool)
          (entity : Entity) (node : RelationNode) (rows loaded : List Row) (relation : Relation),
          entity.relation? node.name = some relation → relation.join.through = none →
          (loadNode database modifiers skipsUndefined entity node rows).result = .ok loaded →
            ∃ query, ∃ found related : List Row,
              relationQuery database modifiers skipsUndefined relation node = .ok query
              ∧ (database.select (keyedQuery query relation.join
                  (ownerKeys relation.join.ownerColumn rows))).result = .ok found
              ∧ (loadNodes database modifiers skipsUndefined
                  (database.registry.entity relation.target) node.children found).result
                  = .ok related
              ∧ (loaded = rows.map fun owner => Named.put node.key (relationValue relation.kind
                  ((related.filter (attaches relation.join owner)).map
                    (project query node.children))) owner)
              ∧ ∀ owner row, Named.find? relation.join.ownerColumn owner = some (integer m) →
                Named.find? relation.join.relatedColumn row = some (integer n) →
                  (attaches relation.join owner row = true ↔ m = n))) := by
  refine ⟨Comparison.order_integer_ne_gt, fun hapart => ?_⟩
  have hequals : equals (integer m) (integer n) = true ↔ m = n :=
    Comparison.equals_integer_exact hapart
  refine ⟨hequals, Comparison.order_integer_exact hapart, ?_, ?_⟩
  · intro database query column rows hcondition h row hrow hcolumn
    exact eq_of_mem_select hcondition h hrow hcolumn hapart
  · intro database modifiers skipsUndefined entity node rows loaded relation hrelation hdirect h
    obtain ⟨query, found, related, hquery, hfound, hrelated, hloaded⟩ :=
      loadNode_direct hrelation hdirect h
    refine ⟨query, found, related, hquery, hfound, hrelated, hloaded, ?_⟩
    intro owner row howner hrow
    exact (attaches_iff howner hrow).trans hequals

/-! ### Accounts and their entries -/

namespace Ledger

def relation : Relation := ⟨"entries", .many, 1, ⟨"id", "account_id", none⟩⟩

def account : Entity :=
  { id := 0, name := "Account", table := "accounts", columns := [], virtuals := [], filters := [],
    customSingle := none, customList := none, relations := [("entries", relation)] }

def entry : Entity :=
  { id := 1, name := "Entry", table := "entries", columns := [], virtuals := [], filters := [],
    customSingle := none, customList := none, relations := [] }

def numbered (id : Int) : Row := [("id", integer id)]

def entryOf (id : Int) : Row := [("account_id", integer id)]

/-- Two accounts of neighbouring numbers, and an entry of the second one. -/
def database (id : Int) : Database :=
  ⟨⟨[account, entry]⟩, [("accounts", [numbered id, numbered (id + 1)]),
    ("entries", [entryOf (id + 1)])]⟩

/-- The accounts of a number. -/
def query (id : Int) : Query :=
  (Query.new 0 "accounts").apply (.filter ⟨"id", .eq, some (.number (.int id))⟩)

/-- The accounts with their entries. -/
def loading (id : Int) : Run (List Row) :=
  loadNode (database id) [] false account ⟨"entries", none, [], []⟩
    [numbered id, numbered (id + 1)]

end Ledger

/-- The last two integers below 2^53 are two keys. -/
theorem integer_keys_exact_ledger :
    ToldApart (2 ^ 53 - 2) (2 ^ 53 - 1)
      ∧ order (integer (2 ^ 53 - 2)) (integer (2 ^ 53 - 1)) = .lt
      ∧ (∃ rows,
        ((Ledger.database (2 ^ 53 - 2)).select (Ledger.query (2 ^ 53 - 1))).result = .ok rows
          ∧ ∀ row ∈ rows, columnValue row "id" ≠ integer (2 ^ 53 - 2))
      ∧ ∃ loaded, ∃ related : List Row, (Ledger.loading (2 ^ 53 - 2)).result = .ok loaded
        ∧ (loaded = [Ledger.numbered (2 ^ 53 - 2), Ledger.numbered (2 ^ 53 - 1)].map fun owner =>
          Named.put "entries" (.arr ((related.filter
            (attaches Ledger.relation.join owner)).map Json.obj)) owner)
        ∧ attaches Ledger.relation.join (Ledger.numbered (2 ^ 53 - 2))
          (Ledger.entryOf (2 ^ 53 - 1)) = false := by
  have hapart : ToldApart (2 ^ 53 - 2) (2 ^ 53 - 1) := by decide
  obtain ⟨-, hexact⟩ := integer_keys_exact (2 ^ 53 - 2) (2 ^ 53 - 1)
  obtain ⟨-, horder, hcondition, hjoin⟩ := hexact hapart
  refine ⟨hapart, horder, ?_, ?_⟩
  · obtain ⟨rows, hrows, -⟩ := Outcome.ok_of_any (show (((Ledger.database (2 ^ 53 - 2)).select
      (Ledger.query (2 ^ 53 - 1))).result.toOption.any fun _ => true) = true by decide +kernel)
    refine ⟨rows, hrows, fun row hrow hcolumn => ?_⟩
    exact absurd (hcondition _ _ "id" rows List.mem_cons_self hrows row hrow hcolumn) (by decide)
  · obtain ⟨loaded, hloaded, -⟩ := Outcome.ok_of_any (show ((Ledger.loading
      (2 ^ 53 - 2)).result.toOption.any fun _ => true) = true by decide +kernel)
    obtain ⟨query, found, related, hquery, -, -, hrows, hattached⟩ :=
      hjoin _ _ _ Ledger.account _ _ loaded Ledger.relation rfl rfl hloaded
    cases hquery
    refine ⟨loaded, related, hloaded, hrows.trans ?_, ?_⟩
    · refine List.map_congr_left fun owner _ => ?_
      exact congrArg (fun rows : List Row => Named.put "entries" (.arr (rows.map Json.obj)) owner)
        (List.map_id _)
    · rw [← Bool.not_eq_true, hattached _ _ rfl rfl]
      decide

/-- **From 2^53 on neighbouring integers are one key**: a condition on the first keeps the second,
and a join attaches to the first what belongs to the second. -/
theorem integer_keys_confused :
    equals (integer (2 ^ 53)) (integer (2 ^ 53 + 1)) = true
      ∧ order (integer (2 ^ 53)) (integer (2 ^ 53 + 1)) = .eq
      ∧ (∃ rows, ((Ledger.database (2 ^ 53)).select (Ledger.query (2 ^ 53))).result = .ok rows
        ∧ (rows.map fun row => (columnValue row "id").text)
          = ["9007199254740992", "9007199254740993"])
      ∧ ∃ loaded, (Ledger.loading (2 ^ 53)).result = .ok loaded
        ∧ (loaded.map fun row => (columnValue row "entries").text)
          = ["[\x7b\"account_id\":9007199254740993\x7d]",
            "[\x7b\"account_id\":9007199254740993\x7d]"] := by
  refine ⟨by decide +kernel, by decide +kernel, ?_, ?_⟩
  · have hselected : (((Ledger.database (2 ^ 53)).select
        (Ledger.query (2 ^ 53))).result.toOption.any fun rows =>
          (rows.map fun row => (columnValue row "id").text)
            == ["9007199254740992", "9007199254740993"]) = true := by decide +kernel
    obtain ⟨rows, hrows, htexts⟩ := Outcome.ok_of_any hselected
    exact ⟨rows, hrows, beq_iff_eq.mp htexts⟩
  · have hattached : ((Ledger.loading (2 ^ 53)).result.toOption.any fun loaded =>
        (loaded.map fun row => (columnValue row "entries").text)
          == ["[\x7b\"account_id\":9007199254740993\x7d]",
            "[\x7b\"account_id\":9007199254740993\x7d]"]) = true := by decide +kernel
    obtain ⟨loaded, hloaded, htexts⟩ := Outcome.ok_of_any hattached
    exact ⟨loaded, hloaded, beq_iff_eq.mp htexts⟩

end Database

end GraphFetch
