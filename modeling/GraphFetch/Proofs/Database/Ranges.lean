/-
Windows from one position to another.

A range names the first and the last row of a window, and both may be any number that fits 64
bits.  As an offset and a limit the number of its rows has to fit too, which it does but for the
range of all positions: this one leaves the limit as it is.  An inverted range has no row, and a
range that ends behind the last row has all rows from its first position on.

So a range takes the place of whatever window was there before, and the rows that are selected are
those at its positions.  Only the range of all positions does not: a limit that was set earlier
stays and cuts it.
-/
import GraphFetch.Proofs.Database.Selecting
import GraphFetch.Schema.Filters

namespace GraphFetch

namespace ArgumentFilter

/-- Whether a range holds every position that fits 64 bits. -/
abbrev EveryPosition (first last : Nat) : Prop := first = 0 ∧ last + 1 = countLimit

/-- The limit that a range leaves a query with. -/
def rangeLimit (limit : Option Nat) (first last : Nat) : Option Nat :=
  if last < first then some 0
  else if EveryPosition first last then limit
  else some (last - first + 1)

/-- A query after the range from one position to another. -/
def ranged (query : Query) (first last : Nat) : Query :=
  query.applyAll (range (some (.list [.number (.int first), .number (.int last)])))

/-- **A range sets the window and nothing else**, and the limit that it sets is a count. -/
theorem applyAll_range (query : Query) {start stop : Const} {first last : Nat}
    (hfirst : count? start = some first) (hstop : count? stop = some last)
    (hlast : last < countLimit) :
    query.applyAll (range (some (.list [start, stop])))
      = { query with offset := some first, limit := rangeLimit query.limit first last } := by
  simp only [range, hfirst, hstop]
  rw [window, rangeLimit]
  by_cases hinverted : last < first
  · simp only [if_pos hinverted, Query.applyAll, Query.apply]
  · by_cases hfits : last - first + 1 < countLimit
    · have hpart : ¬ EveryPosition first last := by
        intro hevery
        omega
      simp only [if_neg hinverted, if_pos hfits, if_neg hpart, Query.applyAll, Query.apply]
    · have hevery : EveryPosition first last := by
        constructor <;> omega
      simp only [if_neg hinverted, if_neg hfits, if_pos hevery, Query.applyAll, Query.apply]

theorem ranged_eq (query : Query) {first last : Nat} (hlast : last < countLimit) :
    ranged query first last
      = { query with offset := some first, limit := rangeLimit query.limit first last } := by
  have hcount : ∀ n : Nat, count? (.number (.int n)) = some n := by
    intro n
    simp [count?, Number.toNat?]
  exact applyAll_range query (hcount first) (hcount last) hlast

/-- No limit that a range sets overflows. -/
theorem rangeLimit_lt {limit : Option Nat} {first last count : Nat} (hlast : last < countLimit)
    (h : rangeLimit limit first last = some count) :
    count < countLimit ∨ EveryPosition first last ∧ limit = some count := by
  unfold rangeLimit at h
  by_cases hinverted : last < first
  · rw [if_pos hinverted] at h
    have hzero : 0 = count := Option.some.inj h
    omega
  · rw [if_neg hinverted] at h
    by_cases hevery : EveryPosition first last
    · rw [if_pos hevery] at h
      exact Or.inr ⟨hevery, h⟩
    · rw [if_neg hevery] at h
      have hspan : last - first + 1 = count := Option.some.inj h
      simp only [EveryPosition, not_and] at hevery
      omega

end ArgumentFilter

namespace Database

open ArgumentFilter (EveryPosition countLimit ranged rangeLimit ranged_eq rangeLimit_lt)

/-- The rows that satisfy the conditions of a query, in the order of its orderings. -/
def ordered (database : Database) (query : Query) : List Row :=
  sortByAll query.orderings (database.satisfying query)

/-- The rows at the positions from one to another, both included. -/
def rowsBetween (first last : Nat) (rows : List Row) : List Row :=
  (rows.zipIdx.filter fun place => first ≤ place.2 && place.2 ≤ last).map Prod.fst

theorem rowsBetween_eq (first last : Nat) (rows : List Row) :
    rowsBetween first last rows = window (some first) (some (last + 1 - first)) rows := by
  rw [window_eq_rowsAt]
  unfold rowsBetween rowsAt
  refine congrArg (List.map Prod.fst) (List.filter_congr fun place _ => ?_)
  rw [Option.all_some, Option.getD_some, Bool.eq_iff_iff]
  simp only [Bool.and_eq_true, decide_eq_true_eq]
  omega

theorem rowsBetween_inverted {first last : Nat} (h : last < first) (rows : List Row) :
    rowsBetween first last rows = [] := by
  have hnone : last + 1 - first = 0 := by omega
  rw [rowsBetween_eq, hnone]
  rfl

/-- A range that ends behind the last row has all rows from its first position on. -/
theorem rowsBetween_drop {first last : Nat} {rows : List Row} (h : rows.length ≤ last + 1) :
    rowsBetween first last rows = rows.drop first := by
  rw [rowsBetween_eq]
  show (rows.drop first).take (last + 1 - first) = rows.drop first
  refine List.take_of_length_le ?_
  rw [List.length_drop]
  omega

/-- The window that a range sets holds the rows at its positions. -/
theorem window_rangeLimit {limit : Option Nat} {first last : Nat} {rows : List Row}
    (hlimit : EveryPosition first last → limit = none ∧ rows.length ≤ countLimit) :
    window (some first) (rangeLimit limit first last) rows = rowsBetween first last rows := by
  unfold rangeLimit
  by_cases hinverted : last < first
  · rw [if_pos hinverted, rowsBetween_inverted hinverted]
    rfl
  · rw [if_neg hinverted]
    by_cases hevery : EveryPosition first last
    · obtain ⟨hnone, hrows⟩ := hlimit hevery
      rw [if_pos hevery, hnone, rowsBetween_drop (by omega)]
      rfl
    · have hspan : last + 1 - first = last - first + 1 := by omega
      rw [if_neg hevery, rowsBetween_eq, hspan]

/-- What is selected where a range comes last. -/
theorem select_ranged (database : Database) (query : Query) {first last : Nat}
    (hlast : last < countLimit) :
    (database.select (ranged query first last)).result
      = match unbound? query with
        | some condition => .error (.undefinedBinding condition.column)
        | none => .ok (window (some first) (rangeLimit query.limit first last)
            (database.ordered query)) := by
  rw [ranged_eq query hlast, select_eq, window_eq_rowsAt]
  show (match unbound? query with
    | some condition => Run.fail (.undefinedBinding condition.column)
    | none => _).result = _
  cases unbound? query with
  | some condition => rfl
  | none => rfl

/-- **A range that comes last selects the rows at its positions**, whatever window was set before:
none if it is inverted, and all from its first position on if it ends behind the last row.  It fails
only where the query does, and the limit that it sets is one.  The one exception is the range of all
positions over a limit that was set before. -/
theorem select_range (database : Database) (query : Query) {first last : Nat}
    (hfirst : first < countLimit) (hlast : last < countLimit)
    (hlimit : EveryPosition first last → query.limit = none) :
    (∀ count, (ranged query first last).limit = some count → count < countLimit)
      ∧ (∀ count, (ranged query first last).offset = some count → count < countLimit)
      ∧ (∀ condition, unbound? query = some condition →
        (database.select (ranged query first last)).result
          = .error (.undefinedBinding condition.column))
      ∧ (unbound? query = none →
        ∃ rows, (database.select (ranged query first last)).result = .ok rows
          ∧ (¬ EveryPosition first last ∨ (database.ordered query).length ≤ countLimit →
            rows = rowsBetween first last (database.ordered query))
          ∧ (last < first → rows = [])
          ∧ ((database.ordered query).length ≤ last →
            rows = (database.ordered query).drop first)) := by
  have hselected := @select_ranged database query first last hlast
  refine ⟨?_, ?_, ?_, ?_⟩
  · intro count hcount
    rw [ranged_eq query hlast] at hcount
    rcases rangeLimit_lt hlast hcount with hlt | ⟨hevery, hold⟩
    · exact hlt
    · rw [hlimit hevery] at hold
      exact absurd hold (by simp)
  · intro count hcount
    rw [ranged_eq query hlast] at hcount
    have heq : first = count := Option.some.inj hcount
    omega
  · intro condition hunbound
    rw [hselected, hunbound]
  · intro hunbound
    rw [hunbound] at hselected
    have hbetween : (EveryPosition first last → (database.ordered query).length ≤ countLimit) →
        window (some first) (rangeLimit query.limit first last) (database.ordered query)
          = rowsBetween first last (database.ordered query) :=
      fun hrows => window_rangeLimit fun hevery => ⟨hlimit hevery, hrows hevery⟩
    refine ⟨_, hselected, ?_, ?_, ?_⟩
    · intro hrows
      exact hbetween fun hevery => hrows.resolve_left (not_not_intro hevery)
    · intro hinverted
      rw [hbetween (by omega), rowsBetween_inverted hinverted]
    · intro hrows
      rw [hbetween (by omega), rowsBetween_drop (by omega)]

/-- The third and the fourth player of the ranking, where the second and the third were asked for
before. -/
theorem select_range_ranking :
    (2 < countLimit ∧ 3 < countLimit ∧ (EveryPosition 2 3 → Ranking.query.limit = none))
      ∧ Ranking.query.limit = some 2
      ∧ (Ranking.database.select (ranged Ranking.query 2 3)).result
        = .ok [Ranking.ada, Ranking.dot] := by
  have hpart : ¬ EveryPosition 2 3 := by
    rintro ⟨hzero, -⟩
    omega
  have hlast : 3 < countLimit := by decide
  have hlimit : EveryPosition 2 3 → Ranking.query.limit = none := fun hevery => absurd hevery hpart
  obtain ⟨-, -, -, hselects⟩ := select_range Ranking.database Ranking.query (by decide) hlast hlimit
  obtain ⟨rows, hrows, hbetween, -, -⟩ := hselects rfl
  refine ⟨⟨by decide, hlast, hlimit⟩, rfl, ?_⟩
  rw [hrows, hbetween (Or.inl hpart)]
  rfl

/-- **The range of all positions keeps an earlier limit**: of four players two are selected. -/
theorem select_range_limited :
    EveryPosition 0 (countLimit - 1)
      ∧ (Ranking.database.select (ranged Ranking.query 0 (countLimit - 1))).result
        = .ok [Ranking.ben, Ranking.eve]
      ∧ rowsBetween 0 (countLimit - 1) (Ranking.database.ordered Ranking.query)
        = [Ranking.ben, Ranking.eve, Ranking.ada, Ranking.dot] := by
  have hevery : EveryPosition 0 (countLimit - 1) := by decide
  have hlast : countLimit - 1 < countLimit := by decide
  refine ⟨hevery, ?_, ?_⟩
  · rw [select_ranged Ranking.database Ranking.query hlast, rangeLimit,
      if_neg (Nat.not_lt_zero _), if_pos hevery]
    rfl
  · rw [rowsBetween_drop (by decide)]
    rfl

end Database

end GraphFetch
