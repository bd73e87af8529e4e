/-
Equality of values.

Whole values are compared without regard to the order of members, and a database compares
numbers by the doubles nearest to them, whatever their texts.  Neither has to be an
equivalence on lists of members as such: where a name stands twice, only its first value is
looked up.  In a value that was read no name stands twice in one object, and on such values
both are equivalences.

Symmetry is where this is needed.  Members of equal number, each of which has its value
among others of distinct names, leave none of the others out.
-/
import GraphFetch.Database.Comparison
import GraphFetch.Proofs.Json.Named
import GraphFetch.Proofs.Json.Text
import Mathlib.Data.List.Perm.Subperm

namespace GraphFetch

/-! ### Numbers -/

namespace Number

theorem same_self (n : Number) : n.same n = true := by
  cases n with
  | int n => simp [same]
  | float x => simp [same, Double.same]

theorem same_symm {m n : Number} (h : m.same n = true) : n.same m = true := by
  cases m <;> cases n <;> simp_all [same, Double.same]

theorem same_trans {l m n : Number} (h₁ : l.same m = true) (h₂ : m.same n = true) :
    l.same n = true := by
  cases l <;> cases m <;> cases n <;> simp_all [same, Double.same]

end Number

namespace Json

/-! ### Values and their parts -/

/-- What holds of a value if it holds of its parts holds of every value. -/
@[elab_as_elim]
theorem inductionOn {motive : Json → Prop} (null : motive .null) (bool : ∀ b, motive (.bool b))
    (num : ∀ n, motive (.num n)) (str : ∀ s, motive (.str s))
    (arr : ∀ items, (∀ item ∈ items, motive item) → motive (.arr items))
    (obj : ∀ members, (∀ member ∈ members, motive member.2) → motive (.obj members)) :
    ∀ v, motive v
  | .null => null
  | .bool b => bool b
  | .num n => num n
  | .str s => str s
  | .arr items => arr items fun item _ => inductionOn null bool num str arr obj item
  | .obj members => obj members fun member _ =>
      inductionOn null bool num str arr obj member.2
termination_by v => sizeOf v
decreasing_by
  · have := List.sizeOf_lt_of_mem ‹_ ∈ items›
    simp only [Json.arr.sizeOf_spec]
    omega
  · have := List.sizeOf_lt_of_mem ‹_ ∈ members›
    obtain ⟨name, value⟩ := member
    simp only [Prod.mk.sizeOf_spec] at this
    simp only [Json.obj.sizeOf_spec]
    omega

mutual

/-- Whether no object in a value has two members of one name. -/
def Unambiguous : Json → Prop
  | arr items => UnambiguousItems items
  | obj members => Named.Distinct members ∧ UnambiguousMembers members
  | _ => True

def UnambiguousItems : List Json → Prop
  | [] => True
  | item :: rest => item.Unambiguous ∧ UnambiguousItems rest

def UnambiguousMembers : List (String × Json) → Prop
  | [] => True
  | (_, value) :: rest => value.Unambiguous ∧ UnambiguousMembers rest

end

theorem unambiguousItems_iff {items : List Json} :
    UnambiguousItems items ↔ ∀ item ∈ items, item.Unambiguous := by
  induction items with
  | nil => simp [UnambiguousItems]
  | cons item rest ih => simp [UnambiguousItems, ih]

theorem unambiguousMembers_iff {members : List (String × Json)} :
    UnambiguousMembers members ↔ ∀ member ∈ members, member.2.Unambiguous := by
  induction members with
  | nil => simp [UnambiguousMembers]
  | cons member rest ih => simp [UnambiguousMembers, ih]

/-- A value that can be read from a text: its numbers are such as values carry, and in no object
does a name stand twice. -/
structure Proper (v : Json) : Prop where
  representable : v.Representable
  unambiguous : v.Unambiguous

theorem proper_int (n : Int) : (Json.num (.int n)).Proper := ⟨trivial, trivial⟩

theorem proper_str (s : String) : (Json.str s).Proper := ⟨trivial, trivial⟩

/-! ### Equality of whole values -/

theorem sameItems_iff {items others : List Json} :
    sameItems items others = true ↔ items.length = others.length
      ∧ ∀ i (hi : i < items.length) (hj : i < others.length), same items[i] others[i] = true := by
  have hpairs : sameItems items others = true
      ↔ List.Forall₂ (fun item other => same item other = true) items others := by
    induction items generalizing others with
    | nil => cases others <;> simp [sameItems]
    | cons item rest ih => cases others <;> simp [sameItems, ih]
  rw [hpairs, List.forall₂_iff_get]
  rfl

theorem sameMembers_iff {members others : List (String × Json)} :
    sameMembers members others = true ↔ ∀ member ∈ members,
      ∃ other, Named.find? member.1 others = some other ∧ same member.2 other = true := by
  induction members with
  | nil => simp [sameMembers]
  | cons member rest ih =>
      obtain ⟨name, value⟩ := member
      rw [sameMembers, Bool.and_eq_true, ih, List.forall_mem_cons]
      refine and_congr_left fun _ => ?_
      cases Named.find? name others <;> simp

/-- **Values are equal if they are of one kind and equal as values of that kind**: lists if their
items are, place by place, and objects if they have as many members and every member of one has its
value in the other. -/
theorem same_iff {v w : Json} : v.same w = true ↔
    match v, w with
    | null, null => True
    | bool b, bool c => b = c
    | num n, num m => n.same m = true
    | str s, str t => s = t
    | arr items, arr others => items.length = others.length
      ∧ ∀ i (hi : i < items.length) (hj : i < others.length), same items[i] others[i] = true
    | obj members, obj others => members.length = others.length ∧ ∀ member ∈ members,
      ∃ other, Named.find? member.1 others = some other ∧ same member.2 other = true
    | _, _ => False := by
  cases v <;> cases w <;> simp [same, sameItems_iff, sameMembers_iff]

theorem null_same {w : Json} : Json.null.same w = true ↔ null = w := by
  rw [same_iff]
  cases w <;> simp

theorem bool_same {b : Bool} {w : Json} : (bool b).same w = true ↔ bool b = w := by
  rw [same_iff]
  cases w <;> simp

theorem num_same {n : Number} {w : Json} :
    (num n).same w = true ↔ ∃ m, w = num m ∧ n.same m = true := by
  rw [same_iff]
  cases w <;> simp

theorem str_same {s : String} {w : Json} : (str s).same w = true ↔ str s = w := by
  rw [same_iff]
  cases w <;> simp

theorem arr_same {items : List Json} {w : Json} :
    (arr items).same w = true ↔ ∃ others, w = arr others ∧ items.length = others.length
      ∧ ∀ i (hi : i < items.length) (hj : i < others.length), same items[i] others[i] = true := by
  rw [same_iff]
  cases w <;> simp

theorem obj_same {members : List (String × Json)} {w : Json} :
    (obj members).same w = true ↔ ∃ others, w = obj others ∧ members.length = others.length
      ∧ ∀ member ∈ members,
        ∃ other, Named.find? member.1 others = some other ∧ same member.2 other = true := by
  rw [same_iff]
  cases w <;> simp

theorem same_self {v : Json} (hv : v.Unambiguous) : v.same v = true := by
  induction v using inductionOn with
  | null => exact null_same.mpr rfl
  | bool b => exact bool_same.mpr rfl
  | num n => exact num_same.mpr ⟨n, rfl, n.same_self⟩
  | str s => exact str_same.mpr rfl
  | arr items ih =>
      rw [Unambiguous, unambiguousItems_iff] at hv
      refine arr_same.mpr ⟨items, rfl, rfl, ?_⟩
      intro i hi _
      exact ih _ (List.getElem_mem hi) (hv _ (List.getElem_mem hi))
  | obj members ih =>
      rw [Unambiguous, unambiguousMembers_iff] at hv
      refine obj_same.mpr ⟨members, rfl, rfl, ?_⟩
      intro member hmember
      exact ⟨member.2, hv.1.find? hmember, ih member hmember (hv.2 member hmember)⟩

/-- Members with distinct names that all stand among as many others leave none of these out. -/
theorem names_subset {members others : List (String × Json)} (hdistinct : Named.Distinct members)
    (hlength : members.length = others.length)
    (hsub : Named.names members ⊆ Named.names others) :
    Named.names others ⊆ Named.names members := by
  have hperm : (Named.names members).Perm (Named.names others) := by
    refine (List.Nodup.subperm hdistinct hsub).perm_of_length_le ?_
    simp [Named.names, hlength]
  exact hperm.symm.subset

/-- A member that stands among members with the names of others has its value there. -/
theorem find?_of_names_subset {members others : List (String × Json)}
    (hothers : Named.Distinct others) (hsub : Named.names others ⊆ Named.names members)
    (hmembers : ∀ member ∈ members, ∃ other, Named.find? member.1 others = some other
      ∧ same member.2 other = true) {other : String × Json} (hother : other ∈ others) :
    ∃ member ∈ members, member.1 = other.1 ∧ same member.2 other.2 = true := by
  obtain ⟨member, hmember, hname⟩ := List.mem_map.mp (hsub (List.mem_map_of_mem hother))
  obtain ⟨value, hvalue, hsame⟩ := hmembers member hmember
  rw [hname, hothers.find? hother] at hvalue
  cases hvalue
  exact ⟨member, hmember, hname, hsame⟩

theorem same_symm {v w : Json} (hv : v.Unambiguous) (hw : w.Unambiguous) (h : v.same w = true) :
    w.same v = true := by
  induction v using inductionOn generalizing w with
  | null =>
      obtain rfl := null_same.mp h
      exact h
  | bool b =>
      obtain rfl := bool_same.mp h
      exact h
  | num n =>
      obtain ⟨m, rfl, hsame⟩ := num_same.mp h
      exact num_same.mpr ⟨n, rfl, Number.same_symm hsame⟩
  | str s =>
      obtain rfl := str_same.mp h
      exact h
  | arr items ih =>
      obtain ⟨others, rfl, hlength, hitems⟩ := arr_same.mp h
      rw [Unambiguous, unambiguousItems_iff] at hv hw
      refine arr_same.mpr ⟨items, rfl, hlength.symm, ?_⟩
      intro i hj hi
      exact ih _ (List.getElem_mem hi) (hv _ (List.getElem_mem hi)) (hw _ (List.getElem_mem hj))
        (hitems i hi hj)
  | obj members ih =>
      obtain ⟨others, rfl, hlength, hmembers⟩ := obj_same.mp h
      rw [Unambiguous, unambiguousMembers_iff] at hv hw
      refine obj_same.mpr ⟨members, rfl, hlength.symm, ?_⟩
      intro other hother
      have hsub : Named.names members ⊆ Named.names others := by
        intro name hname
        obtain ⟨member, hmember, rfl⟩ := List.mem_map.mp hname
        obtain ⟨value, hvalue, -⟩ := hmembers member hmember
        exact Named.mem_names_of_find? hvalue
      obtain ⟨member, hmember, hname, hsame⟩ :=
        find?_of_names_subset hw.1 (names_subset hv.1 hlength hsub) hmembers hother
      refine ⟨member.2, hname ▸ hv.1.find? hmember, ?_⟩
      exact ih member hmember (hv.2 member hmember) (hw.2 other hother) hsame

theorem same_trans {u v w : Json} (h₁ : u.same v = true) (h₂ : v.same w = true) :
    u.same w = true := by
  induction u using inductionOn generalizing v w with
  | null =>
      obtain rfl := null_same.mp h₁
      exact h₂
  | bool b =>
      obtain rfl := bool_same.mp h₁
      exact h₂
  | num n =>
      obtain ⟨m, rfl, hfirst⟩ := num_same.mp h₁
      obtain ⟨l, rfl, hsecond⟩ := num_same.mp h₂
      exact num_same.mpr ⟨l, rfl, Number.same_trans hfirst hsecond⟩
  | str s =>
      obtain rfl := str_same.mp h₁
      exact h₂
  | arr items ih =>
      obtain ⟨between, rfl, hfirst, hitems⟩ := arr_same.mp h₁
      obtain ⟨others, rfl, hsecond, hothers⟩ := arr_same.mp h₂
      refine arr_same.mpr ⟨others, rfl, hfirst.trans hsecond, ?_⟩
      intro i hi hk
      have hj : i < between.length := hfirst ▸ hi
      exact ih _ (List.getElem_mem hi) (hitems i hi hj) (hothers i hj hk)
  | obj members ih =>
      obtain ⟨between, rfl, hlength, hmembers⟩ := obj_same.mp h₁
      obtain ⟨others, rfl, hlength', hothers⟩ := obj_same.mp h₂
      refine obj_same.mpr ⟨others, rfl, hlength.trans hlength', ?_⟩
      intro member hmember
      obtain ⟨value, hvalue, hfirst⟩ := hmembers member hmember
      obtain ⟨other, hother, hsecond⟩ := hothers _ (Named.mem_of_find? hvalue)
      exact ⟨other, hother, ih member hmember hfirst hsecond⟩

end Json

/-! ### Equality of keys -/

namespace Comparison

open Json (Unambiguous)

theorem equals_self {v : Json} (hv : v.Unambiguous) : equals v v = true := by
  cases v with
  | num n => simp [equals, Number.agrees, Double.same]
  | _ => exact Json.same_self hv

/-- Values of which one is no number are compared as whole values. -/
theorem equals_eq_same {v w : Json} (h : ∀ m n, ¬(v = .num m ∧ w = .num n)) :
    equals v w = v.same w := by
  cases v with
  | num m =>
      cases w with
      | num n => exact absurd ⟨rfl, rfl⟩ (h m n)
      | _ => rfl
  | _ => rfl

theorem equals_symm {v w : Json} (hv : v.Unambiguous) (hw : w.Unambiguous)
    (h : equals v w = true) : equals w v = true := by
  by_cases hnumbers : ∃ m n, v = .num m ∧ w = .num n
  · obtain ⟨m, n, rfl, rfl⟩ := hnumbers
    simp only [equals, Number.agrees, Double.same, beq_iff_eq] at h ⊢
    exact h.symm
  · rw [equals_eq_same (fun m n hmn => hnumbers ⟨m, n, hmn⟩)] at h
    rw [equals_eq_same (fun m n hmn => hnumbers ⟨n, m, hmn.2, hmn.1⟩)]
    exact Json.same_symm hv hw h

/-- What a number equals is a number. -/
theorem exists_num_of_equals {n : Number} {v : Json} (h : equals (.num n) v = true) :
    ∃ m, v = .num m := by
  cases v with
  | num m => exact ⟨m, rfl⟩
  | _ => simp [equals, Json.same] at h

/-- What equals a number is a number. -/
theorem exists_num_of_equals_num {n : Number} {v : Json} (h : equals v (.num n) = true) :
    ∃ m, v = .num m := by
  cases v with
  | num m => exact ⟨m, rfl⟩
  | _ => simp [equals, Json.same] at h

theorem equals_trans {u v w : Json} (h₁ : equals u v = true) (h₂ : equals v w = true) :
    equals u w = true := by
  by_cases hnumber : ∃ l, u = .num l
  · obtain ⟨l, rfl⟩ := hnumber
    obtain ⟨m, rfl⟩ := exists_num_of_equals h₁
    obtain ⟨n, rfl⟩ := exists_num_of_equals h₂
    simp only [equals, Number.agrees, Double.same, beq_iff_eq] at h₁ h₂ ⊢
    exact h₁.trans h₂
  · have hmiddle : ¬∃ m, v = .num m := by
      rintro ⟨m, rfl⟩
      exact hnumber (exists_num_of_equals_num h₁)
    rw [equals_eq_same (fun l _ h => hnumber ⟨l, h.1⟩)] at h₁ ⊢
    rw [equals_eq_same (fun m _ h => hmiddle ⟨m, h.1⟩)] at h₂
    exact Json.same_trans h₁ h₂

end Comparison

end GraphFetch
