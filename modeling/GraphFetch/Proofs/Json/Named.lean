/-
Entries, looked up.

Entries with distinct names are a map, and what is read back after a change is all that
counts of it: the place of an entry plays no part, so dropping one is leaving it out.
-/
import GraphFetch.Json.Named
import Mathlib.Data.List.Induction
import Mathlib.Data.List.Nodup

namespace GraphFetch

namespace Named

variable {α : Type}

theorem mem_of_find? {name : String} {value : α} {entries : List (String × α)}
    (h : find? name entries = some value) : (name, value) ∈ entries := by
  induction entries with
  | nil => exact absurd h (by simp [find?])
  | cons entry rest ih =>
      obtain ⟨key, first⟩ := entry
      unfold find? at h
      split at h
      · rename_i hkey
        cases h
        rw [hkey]
        exact List.mem_cons_self
      · exact List.mem_cons_of_mem _ (ih h)

theorem mem_of_mem_remove {name : String} {entry : String × α} {entries : List (String × α)}
    (h : entry ∈ remove name entries) : entry ∈ entries := by
  induction entries with
  | nil => exact h
  | cons first rest ih =>
      obtain ⟨key, value⟩ := first
      unfold remove at h
      split at h
      · split at h
        · rename_i last hlast
          rcases List.mem_cons.mp h with rfl | h
          · exact List.mem_cons_of_mem _ (List.mem_of_getLast? hlast)
          · exact List.mem_cons_of_mem _ (List.dropLast_subset rest h)
        · exact absurd h (by simp)
      · rcases List.mem_cons.mp h with rfl | h
        · exact List.mem_cons_self
        · exact List.mem_cons_of_mem _ (ih h)

theorem mem_put {name : String} {value : α} {entry : String × α} {entries : List (String × α)}
    (h : entry ∈ put name value entries) : entry = (name, value) ∨ entry ∈ entries := by
  induction entries with
  | nil => exact Or.inl (List.mem_singleton.mp h)
  | cons first rest ih =>
      obtain ⟨key, old⟩ := first
      unfold put at h
      split at h
      · rename_i hkey
        rcases List.mem_cons.mp h with rfl | h
        · exact Or.inl (by rw [hkey])
        · exact Or.inr (List.mem_cons_of_mem _ h)
      · rcases List.mem_cons.mp h with rfl | h
        · exact Or.inr List.mem_cons_self
        · rcases ih h with heq | h
          · exact Or.inl heq
          · exact Or.inr (List.mem_cons_of_mem _ h)

/-! ### Names -/

@[simp]
theorem names_nil : names ([] : List (String × α)) = [] := rfl

@[simp]
theorem names_cons (name : String) (value : α) (rest : List (String × α)) :
    names ((name, value) :: rest) = name :: names rest := rfl

@[simp]
theorem names_append (entries more : List (String × α)) :
    names (entries ++ more) = names entries ++ names more :=
  List.map_append

theorem find?_eq_none {name : String} {entries : List (String × α)} :
    find? name entries = none ↔ name ∉ names entries := by
  induction entries with
  | nil => simp [find?]
  | cons entry rest ih =>
      obtain ⟨key, value⟩ := entry
      by_cases h : key = name
      · simp [find?, h]
      · simp [find?, h, Ne.symm h, ih]

theorem mem_names_of_find? {name : String} {value : α} {entries : List (String × α)}
    (h : find? name entries = some value) : name ∈ names entries :=
  List.mem_map_of_mem (mem_of_find? h)

theorem find?_append (name : String) (entries more : List (String × α)) :
    find? name (entries ++ more) = (find? name entries).or (find? name more) := by
  induction entries with
  | nil => simp [find?]
  | cons entry rest ih =>
      obtain ⟨key, value⟩ := entry
      by_cases h : key = name <;> simp [find?, h, ih]

/-! ### Distinct names -/

/-- Whether no name has two entries. -/
def Distinct (entries : List (String × α)) : Prop := (names entries).Nodup

theorem Distinct.nil : Distinct ([] : List (String × α)) := List.nodup_nil

theorem Distinct.find? {name : String} {value : α} {entries : List (String × α)}
    (h : Distinct entries) (hmem : (name, value) ∈ entries) :
    Named.find? name entries = some value := by
  induction entries with
  | nil => exact absurd hmem (by simp)
  | cons entry rest ih =>
      obtain ⟨key, first⟩ := entry
      obtain ⟨hkey, hrest⟩ := List.nodup_cons.mp (show (key :: names rest).Nodup from h)
      rcases List.mem_cons.mp hmem with heq | hmem
      · cases heq
        simp [Named.find?]
      · have hne : key ≠ name := fun heq => hkey (heq ▸ List.mem_map_of_mem hmem)
        simp [Named.find?, hne, ih hrest hmem]

/-- Entries in another order are found all the same. -/
theorem Distinct.find?_perm {entries others : List (String × α)} (h : Distinct entries)
    (hperm : entries.Perm others) (name : String) :
    Named.find? name others = Named.find? name entries := by
  have hothers : Distinct others := ((hperm.map Prod.fst).nodup_iff).mp h
  cases hfind : Named.find? name entries with
  | none =>
      rw [find?_eq_none] at hfind ⊢
      exact fun hmem => hfind ((hperm.map Prod.fst).mem_iff.mpr hmem)
  | some value => exact hothers.find? (hperm.mem_iff.mp (mem_of_find? hfind))

theorem find?_filter_ne (name other : String) (entries : List (String × α)) :
    find? other (entries.filter fun entry => entry.1 ≠ name)
      = if other = name then none else find? other entries := by
  induction entries with
  | nil => simp [find?]
  | cons entry rest ih =>
      obtain ⟨key, value⟩ := entry
      by_cases hkey : key = name
      · rw [List.filter_cons_of_neg (by simpa using hkey), ih]
        by_cases hother : other = name
        · simp [hother]
        · have hne : key ≠ other := fun heq => hother (heq ▸ hkey)
          simp [find?, hother, hne]
      · rw [List.filter_cons_of_pos (by simpa using hkey), find?, ih]
        by_cases hother : key = other
        · have hne : other ≠ name := fun heq => hkey (hother.trans heq)
          simp [find?, hother, hne]
        · simp [find?, hother]

/-! ### Putting -/

theorem find?_put (name other : String) (value : α) (entries : List (String × α)) :
    find? other (put name value entries)
      = if other = name then some value else find? other entries := by
  by_cases h : other = name
  · rw [if_pos h, h, find?_put_self]
  · rw [if_neg h, find?_put_of_ne h]

theorem put_of_notMem {name : String} {entries : List (String × α)} (h : name ∉ names entries)
    (value : α) : put name value entries = entries ++ [(name, value)] := by
  induction entries with
  | nil => rfl
  | cons entry rest ih =>
      obtain ⟨key, old⟩ := entry
      simp only [names_cons, List.mem_cons, not_or] at h
      simp [put, Ne.symm h.1, ih h.2]

theorem names_put_of_mem {name : String} {entries : List (String × α)} (h : name ∈ names entries)
    (value : α) : names (put name value entries) = names entries := by
  induction entries with
  | nil => exact absurd h (by simp)
  | cons entry rest ih =>
      obtain ⟨key, old⟩ := entry
      by_cases hkey : key = name
      · simp [put, hkey]
      · have hrest : name ∈ names rest := by simpa [Ne.symm hkey] using h
        simp [put, hkey, ih hrest]

theorem Distinct.put {entries : List (String × α)} (h : Distinct entries) (name : String)
    (value : α) : Distinct (Named.put name value entries) := by
  unfold Distinct at h ⊢
  by_cases hmem : name ∈ names entries
  · rwa [names_put_of_mem hmem]
  · rw [put_of_notMem hmem, names_append]
    refine List.nodup_append.mpr ⟨h, List.nodup_singleton _, ?_⟩
    rintro key hkey other hother rfl
    obtain rfl : key = name := List.mem_singleton.mp hother
    exact hmem hkey

theorem find?_putNew (name other : String) (value : α) (entries : List (String × α)) :
    find? other (putNew name value entries)
      = if other = name then (find? name entries).or (some value) else find? other entries := by
  unfold putNew
  cases hfind : find? name entries with
  | some old =>
      dsimp only
      split
      · rename_i heq
        rw [heq, hfind]
        rfl
      · rfl
  | none =>
      rw [find?_append]
      by_cases hother : other = name
      · simp [hother, hfind, find?]
      · simp [hother, Ne.symm hother, find?]

theorem Distinct.putNew {entries : List (String × α)} (h : Distinct entries) (name : String)
    (value : α) : Distinct (Named.putNew name value entries) := by
  unfold Named.putNew
  cases hfind : Named.find? name entries with
  | some old => exact h
  | none =>
      dsimp only
      rw [← put_of_notMem (find?_eq_none.mp hfind)]
      exact h.put name value

/-! ### Dropping -/

theorem remove_perm {entries : List (String × α)} (h : Distinct entries) (name : String) :
    (entries.filter fun entry => entry.1 ≠ name).Perm (remove name entries) := by
  induction entries with
  | nil => exact .nil
  | cons entry rest ih =>
      obtain ⟨key, value⟩ := entry
      obtain ⟨hkey, hrest⟩ := List.nodup_cons.mp (show (key :: names rest).Nodup from h)
      unfold remove
      by_cases hname : key = name
      · have hkeep : (rest.filter fun entry => entry.1 ≠ name) = rest :=
          List.filter_eq_self.mpr fun entry hentry => by
            have hne : entry.1 ≠ name := fun heq =>
              hkey (hname ▸ heq ▸ List.mem_map_of_mem hentry)
            simpa using hne
        rw [List.filter_cons_of_neg (by simpa using hname), hkeep, if_pos hname]
        cases hlast : rest.getLast? with
        | none =>
            rw [List.getLast?_eq_none_iff.mp hlast]
        | some last =>
            obtain ⟨before, rfl⟩ := List.getLast?_eq_some_iff.mp hlast
            rw [List.dropLast_concat]
            exact List.perm_append_singleton last before
      · rw [List.filter_cons_of_pos (by simpa using hname), if_neg hname]
        exact (ih hrest).cons _

theorem Distinct.remove {entries : List (String × α)} (h : Distinct entries) (name : String) :
    Distinct (Named.remove name entries) := by
  have hfilter : Distinct (entries.filter fun entry => entry.1 ≠ name) :=
    h.sublist (List.filter_sublist.map Prod.fst)
  exact (((remove_perm h name).map Prod.fst).nodup_iff).mp hfilter

theorem Distinct.find?_remove {entries : List (String × α)} (h : Distinct entries)
    (name other : String) :
    Named.find? other (Named.remove name entries)
      = if other = name then none else Named.find? other entries := by
  have hfilter : Distinct (entries.filter fun entry => entry.1 ≠ name) :=
    h.sublist (List.filter_sublist.map Prod.fst)
  rw [hfilter.find?_perm (remove_perm h name), find?_filter_ne]

/-! ### Lists of entries -/

theorem Distinct.foldl_put (more : List (String × α)) {entries : List (String × α)}
    (h : Distinct entries) :
    Distinct (more.foldl (fun map (name, value) => Named.put name value map) entries) := by
  induction more generalizing entries with
  | nil => exact h
  | cons entry rest ih => exact ih (h.put entry.1 entry.2)

theorem distinct_ofList (entries : List (String × α)) : Distinct (ofList entries) :=
  Distinct.nil.foldl_put entries

/-- Of the entries of one name the last counts. -/
theorem find?_ofList (name : String) (entries : List (String × α)) :
    find? name (ofList entries) = find? name entries.reverse := by
  have hfold : ∀ entries map : List (String × α),
      find? name (entries.foldl (fun map entry => put entry.1 entry.2 map) map)
        = (find? name entries.reverse).or (find? name map) := by
    intro entries
    induction entries with
    | nil => exact fun _ => rfl
    | cons entry rest ih =>
        intro map
        rw [List.foldl_cons, ih, List.reverse_cons, find?_append, find?_put, Option.or_assoc]
        congr 1
        by_cases h : entry.1 = name
        · simp [find?, h]
        · simp [find?, h, Ne.symm h]
  exact (hfold entries []).trans (Option.or_none)

theorem find?_reverse_of_notMem {name : String} {entries : List (String × α)}
    (h : name ∉ names entries) : find? name entries.reverse = none := by
  rw [find?_eq_none]
  intro hmem
  obtain ⟨entry, hentry, rfl⟩ := List.mem_map.mp hmem
  exact h (List.mem_map_of_mem (List.mem_reverse.mp hentry))

/-- An entry whose name no later one has is found. -/
theorem find?_ofList_last {name : String} {before after : List (String × α)}
    (h : name ∉ names after) (value : α) :
    find? name (ofList (before ++ (name, value) :: after)) = some value := by
  rw [find?_ofList, List.reverse_append, List.reverse_cons, find?_append, find?_append,
    find?_reverse_of_notMem h]
  simp [find?]

/-- A map has the names of its entries, each where it stands first. -/
theorem names_ofList (entries : List (String × α)) :
    names (ofList entries) = (names entries).eraseDups := by
  induction entries using List.reverseRecOn with
  | nil => rfl
  | append_singleton before entry ih =>
      obtain ⟨name, value⟩ := entry
      have hput : ofList (before ++ [(name, value)]) = put name value (ofList before) := by
        rw [ofList, List.foldl_append]
        rfl
      have hmem : name ∈ names (ofList before) ↔ name ∈ names before := by
        rw [ih, List.mem_eraseDups]
      rw [hput, names_append, List.eraseDups_append, ← ih]
      show _ = _ ++ ([name].removeAll (names before)).eraseDups
      by_cases hname : name ∈ names before
      · have hnone : [name].removeAll (names before) = [] := by simp [List.removeAll, hname]
        rw [names_put_of_mem (hmem.mpr hname), hnone, List.eraseDups_nil, List.append_nil]
      · have hself : [name].removeAll (names before) = [name] := by simp [List.removeAll, hname]
        rw [put_of_notMem (mt hmem.mp hname), names_append, hself]
        rfl

theorem mem_ofList {entry : String × α} {entries : List (String × α)} (h : entry ∈ ofList entries) :
    entry ∈ entries := by
  have hfold : ∀ {more map : List (String × α)},
      entry ∈ more.foldl (fun map (name, value) => Named.put name value map) map →
        entry ∈ map ∨ entry ∈ more := by
    intro more
    induction more with
    | nil => exact Or.inl
    | cons first rest ih =>
        intro map hmem
        rcases ih hmem with hput | hrest
        · rcases mem_put hput with rfl | hmap
          · exact Or.inr List.mem_cons_self
          · exact Or.inl hmap
        · exact Or.inr (List.mem_cons_of_mem _ hrest)
  rcases hfold h with hnil | hmem
  · exact absurd hnil (by simp)
  · exact hmem

/-! ### Entries under one name -/

/-- The entries under one name. -/
def only (name : String) (entries : List (String × α)) : List (String × α) :=
  entries.filter fun entry => entry.1 = name

/-- The entries with a change made to those under one name. -/
def changeAt (name : String) (change : α → α) (entries : List (String × α)) : List (String × α) :=
  entries.map fun entry => (entry.1, if entry.1 = name then change entry.2 else entry.2)

theorem only_cons (name key : String) (value : α) (rest : List (String × α)) :
    only name ((key, value) :: rest)
      = if key = name then (key, value) :: only name rest else only name rest := by
  unfold only
  by_cases h : key = name
  · rw [List.filter_cons_of_pos (by simpa using h), if_pos h]
  · rw [List.filter_cons_of_neg (by simpa using h), if_neg h]

theorem only_put (name other : String) (value : α) (entries : List (String × α)) :
    only name (put other value entries)
      = if other = name then put other value (only name entries) else only name entries := by
  induction entries with
  | nil => by_cases h : other = name <;> simp [only, put, h]
  | cons entry rest ih =>
      obtain ⟨key, old⟩ := entry
      by_cases hkey : key = other
      · by_cases hother : other = name <;> simp [put, only_cons, hkey, hother]
      · by_cases hname : key = name
        · have hother : other ≠ name := fun heq => hkey (hname.trans heq.symm)
          simp [put, only_cons, hname, hother, Ne.symm hother, ih]
        · simp [put, only_cons, hkey, hname, ih]

theorem changeAt_cons (name key : String) (change : α → α) (value : α)
    (rest : List (String × α)) :
    changeAt name change ((key, value) :: rest)
      = (key, if key = name then change value else value) :: changeAt name change rest := rfl

theorem changeAt_put (name other : String) (change : α → α) (value : α)
    (entries : List (String × α)) :
    changeAt name change (put other value entries)
      = put other (if other = name then change value else value)
        (changeAt name change entries) := by
  induction entries with
  | nil => rfl
  | cons entry rest ih =>
      obtain ⟨key, old⟩ := entry
      by_cases hkey : key = other <;> simp [put, changeAt_cons, hkey, ih]

/-- A map has under one name what the list of its entries has there. -/
theorem ofList_only (name : String) (entries : List (String × α)) :
    ofList (only name entries) = only name (ofList entries) := by
  have hfold : ∀ more map : List (String × α),
      (only name more).foldl (fun map (key, value) => put key value map) (only name map)
        = only name (more.foldl (fun map (key, value) => put key value map) map) := by
    intro more
    induction more with
    | nil => exact fun _ => rfl
    | cons entry rest ih =>
        intro map
        obtain ⟨key, value⟩ := entry
        rw [List.foldl_cons, ← ih, only_put, only_cons]
        by_cases hkey : key = name
        · rw [if_pos hkey, if_pos hkey, List.foldl_cons]
        · rw [if_neg hkey, if_neg hkey]
  exact hfold entries []

/-- What is changed under one name of a list of entries is changed under that of their map. -/
theorem ofList_changeAt (name : String) (change : α → α) (entries : List (String × α)) :
    ofList (changeAt name change entries) = changeAt name change (ofList entries) := by
  have hfold : ∀ more map : List (String × α),
      (changeAt name change more).foldl (fun map (key, value) => put key value map)
          (changeAt name change map)
        = changeAt name change (more.foldl (fun map (key, value) => put key value map) map) := by
    intro more
    induction more with
    | nil => exact fun _ => rfl
    | cons entry rest ih =>
        intro map
        rw [List.foldl_cons, ← ih, changeAt_put]
        rfl
  exact hfold entries []

/-! ### Related entries -/

variable {β : Type}

/-- Whether entries have the names of others, in the same order, and values that are related. -/
def Related (related : α → β → Prop) : List (String × α) → List (String × β) → Prop :=
  List.Forall₂ fun entry other => entry.1 = other.1 ∧ related entry.2 other.2

variable {related : α → β → Prop} {entries : List (String × α)} {others : List (String × β)}

/-- Both lack a name, or they have related values under it. -/
theorem Related.find? (h : Related related entries others) (name : String) :
    (Named.find? name entries = none ∧ Named.find? name others = none)
      ∨ ∃ value other, Named.find? name entries = some value
          ∧ Named.find? name others = some other ∧ related value other := by
  induction h with
  | nil => exact Or.inl ⟨rfl, rfl⟩
  | @cons entry other rest more hentry _ ih =>
      obtain ⟨key, value⟩ := entry
      obtain ⟨key', value'⟩ := other
      obtain ⟨rfl, hvalue⟩ := hentry
      rw [Named.find?, Named.find?]
      split
      · exact Or.inr ⟨value, value', rfl, rfl, hvalue⟩
      · exact ih

theorem Related.put (h : Related related entries others) (name : String) {value : α} {other : β}
    (hvalue : related value other) :
    Related related (Named.put name value entries) (Named.put name other others) := by
  induction h with
  | nil => exact .cons ⟨rfl, hvalue⟩ .nil
  | @cons entry first rest more hentry hrest ih =>
      obtain ⟨key, old⟩ := entry
      obtain ⟨key', old'⟩ := first
      obtain ⟨rfl, hold⟩ := hentry
      rw [Named.put, Named.put]
      split
      · exact .cons ⟨rfl, hvalue⟩ hrest
      · exact .cons ⟨rfl, hold⟩ ih

end Named

end GraphFetch
