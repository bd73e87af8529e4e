/-
Outcomes that are values.

A step that may fail yields a value only if every step before it does.
-/
namespace GraphFetch

namespace Outcome

variable {ε δ α β : Type}

theorem bind_ok {outcome : Except ε α} {next : α → Except ε β} {value : β} :
    (outcome >>= next) = .ok value ↔ ∃ first, outcome = .ok first ∧ next first = .ok value := by
  cases outcome with
  | error fault =>
      constructor
      · intro h
        cases h
      · rintro ⟨first, h, -⟩
        cases h
  | ok first =>
      constructor
      · intro h
        exact ⟨first, rfl, h⟩
      · rintro ⟨other, h, hnext⟩
        cases h
        exact hnext

theorem bind_error {outcome : Except ε α} {next : α → Except ε β} {fault : ε} :
    (outcome >>= next) = .error fault
      ↔ outcome = .error fault ∨ ∃ first, outcome = .ok first ∧ next first = .error fault := by
  cases outcome with
  | error other =>
      constructor
      · intro h
        cases h
        exact Or.inl rfl
      · rintro (h | ⟨first, h, -⟩)
        · cases h
          rfl
        · cases h
  | ok first =>
      constructor
      · exact fun h => Or.inr ⟨first, rfl, h⟩
      · rintro (h | ⟨other, h, hnext⟩)
        · cases h
        · cases h
          exact hnext

theorem pure_ok {value other : α} : (pure value : Except ε α) = .ok other ↔ value = other := by
  constructor
  · intro h
    cases h
    rfl
  · rintro rfl
    rfl

theorem map_ok {outcome : Except ε α} {f : α → β} {value : β} :
    outcome.map f = .ok value ↔ ∃ first, outcome = .ok first ∧ f first = value := by
  cases outcome <;> simp [Except.map]

theorem map_error {outcome : Except ε α} {f : α → β} {fault : ε} :
    outcome.map f = .error fault ↔ outcome = .error fault := by
  cases outcome <;> simp [Except.map]

theorem mapError_error {outcome : Except ε α} {f : ε → δ} {fault : δ} :
    outcome.mapError f = .error fault ↔ ∃ first, outcome = .error first ∧ f first = fault := by
  cases outcome with
  | ok value => exact ⟨nofun, nofun⟩
  | error first =>
      constructor
      · intro h
        exact ⟨first, rfl, Except.error.inj h⟩
      · rintro ⟨other, hfirst, rfl⟩
        cases hfirst
        rfl

theorem mapError_ok {outcome : Except ε α} {f : ε → δ} {value : α} :
    outcome.mapError f = .ok value ↔ outcome = .ok value := by
  cases outcome with
  | error fault => exact ⟨nofun, nofun⟩
  | ok first =>
      constructor
      · intro h
        cases h
        rfl
      · intro h
        cases h
        rfl

theorem bind_map {next : α → Except ε β} {γ : Type} {f : β → γ} (outcome : Except ε α) :
    (outcome >>= next).map f = outcome >>= fun value => (next value).map f := by
  cases outcome <;> rfl

theorem map_id (outcome : Except ε α) : outcome.map id = outcome := by
  cases outcome <;> rfl

theorem toOption_some {outcome : Except ε α} {value : α} :
    outcome.toOption = some value ↔ outcome = .ok value := by
  cases outcome with
  | error fault => exact ⟨nofun, nofun⟩
  | ok first =>
      constructor
      · intro h
        cases h
        rfl
      · intro h
        cases h
        rfl

theorem ok_of_any {outcome : Except ε α} {holds : α → Bool}
    (h : outcome.toOption.any holds = true) :
    ∃ value, outcome = .ok value ∧ holds value = true := by
  cases outcome with
  | error fault => exact nomatch (show false = true from h)
  | ok value => exact ⟨value, rfl, h⟩

/-- Outcomes with the same values are the same but for their faults. -/
theorem toOption_congr {outcome : Except ε α} {other : Except δ α}
    (h : ∀ value, outcome = .ok value ↔ other = .ok value) : outcome.toOption = other.toOption := by
  cases outcome with
  | ok value =>
      rw [(h value).mp rfl]
      rfl
  | error fault =>
      cases other with
      | error fault => rfl
      | ok value => exact nomatch (h value).mpr rfl

/-- A value among those of a list of steps came of one of them. -/
theorem mem_mapM {f : α → Except ε β} {inputs : List α} {values : List β}
    (h : inputs.mapM f = .ok values) {value : β} (hvalue : value ∈ values) :
    ∃ input ∈ inputs, f input = .ok value := by
  induction inputs generalizing values with
  | nil =>
      obtain rfl := pure_ok.mp h
      exact absurd hvalue (by simp)
  | cons input rest ih =>
      rw [List.mapM_cons] at h
      obtain ⟨first, hfirst, h⟩ := bind_ok.mp h
      obtain ⟨others, hothers, heq⟩ := bind_ok.mp h
      obtain rfl := pure_ok.mp heq
      rcases List.mem_cons.mp hvalue with rfl | hvalue
      · exact ⟨input, List.mem_cons_self, hfirst⟩
      · obtain ⟨other, hother, heq⟩ := ih hothers hvalue
        exact ⟨other, List.mem_cons_of_mem _ hother, heq⟩

/-- A list of steps fails as its first step that fails. -/
theorem mapM_error {f : α → Except ε β} {before after : List α} {input : α} {fault : ε}
    (hbefore : ∀ earlier ∈ before, ∃ value, f earlier = .ok value)
    (hinput : f input = .error fault) : (before ++ input :: after).mapM f = .error fault := by
  induction before with
  | nil =>
      rw [List.nil_append, List.mapM_cons, hinput]
      rfl
  | cons first rest ih =>
      obtain ⟨value, hvalue⟩ := hbefore first List.mem_cons_self
      rw [List.cons_append, List.mapM_cons, hvalue,
        ih fun earlier hearlier => hbefore earlier (List.mem_cons_of_mem _ hearlier)]
      rfl

/-! ### Two outcomes -/

/-- Whether two outcomes are the same fault, or values that are related. -/
inductive Both (related : α → β → Prop) : Except ε α → Except ε β → Prop
  | error (fault : ε) : Both related (.error fault) (.error fault)
  | ok {value : α} {other : β} (h : related value other) : Both related (.ok value) (.ok other)

section Both

variable {α' β' : Type} {related : α → β → Prop} {related' : α' → β' → Prop}
  {outcome : Except ε α} {other : Except ε β}

theorem Both.elim (h : Both related outcome other) :
    (∃ fault, outcome = .error fault ∧ other = .error fault)
      ∨ ∃ value value', outcome = .ok value ∧ other = .ok value' ∧ related value value' := by
  cases h with
  | error fault => exact Or.inl ⟨fault, rfl, rfl⟩
  | ok h => exact Or.inr ⟨_, _, rfl, rfl, h⟩

theorem Both.bind {next : α → Except ε α'} {next' : β → Except ε β'}
    (h : Both related outcome other)
    (hnext : ∀ value value', outcome = .ok value → other = .ok value' → related value value' →
      Both related' (next value) (next' value')) :
    Both related' (outcome >>= next) (other >>= next') := by
  cases h with
  | error fault => exact .error fault
  | ok h => exact hnext _ _ rfl rfl h

theorem Both.pure {value : α} {value' : β} (h : related value value') :
    Both related (Pure.pure value : Except ε α) (Pure.pure value') :=
  .ok h

theorem Both.mono {weaker : α → β → Prop} (h : Both related outcome other)
    (hweaker : ∀ value value', related value value' → weaker value value') :
    Both weaker outcome other := by
  cases h with
  | error fault => exact .error fault
  | ok h => exact .ok (hweaker _ _ h)

theorem Both.mapError (h : Both related outcome other) (f : ε → δ) :
    Both related (outcome.mapError f) (other.mapError f) := by
  cases h with
  | error fault => exact .error (f fault)
  | ok h => exact .ok h

/-- An outcome is related to itself if its value is. -/
theorem Both.same {related : α → α → Prop} (outcome : Except ε α)
    (h : ∀ value, outcome = .ok value → related value value) : Both related outcome outcome := by
  cases outcome with
  | error fault => exact .error fault
  | ok value => exact .ok (h value rfl)

theorem Both.eq {outcome other : Except ε α} (h : Both Eq outcome other) : outcome = other := by
  cases h with
  | error fault => rfl
  | ok h => rw [h]

end Both

end Outcome

end GraphFetch
