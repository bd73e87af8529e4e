/-
What the text that is hashed for a key tells.

A key stands for one object of a field, a request and the values of variables, and what is
hashed is its text.  Since no two values have one text, nothing of the three is lost in it:
fields and values that differ make texts that differ, and so do requests, unless all that
they differ in is the member that disables the cache.  The order of members counts, in the
request and below.
-/
import GraphFetch.Cache.Key
import GraphFetch.Proofs.Json.Text

namespace GraphFetch

namespace Json

theorem representableMembers_iff {members : List (String × Json)} :
    RepresentableMembers members ↔ ∀ member ∈ members, member.2.Representable := by
  induction members with
  | nil => simp [RepresentableMembers]
  | cons member rest ih => simp [RepresentableMembers, ih]

end Json

namespace CacheKey

/-! ### Requests up to one member -/

/-- Members that are equal one by one and in order once those of an ignored name are passed over. -/
inductive SameMembers (ignored : String) : List (String × Json) → List (String × Json) → Prop
  | nil : SameMembers ignored [] []
  | passLeft {value : Json} {members others : List (String × Json)}
      (h : SameMembers ignored members others) :
      SameMembers ignored ((ignored, value) :: members) others
  | passRight {value : Json} {members others : List (String × Json)}
      (h : SameMembers ignored members others) :
      SameMembers ignored members ((ignored, value) :: others)
  | both {name : String} {value : Json} {members others : List (String × Json)}
      (hname : name ≠ ignored) (h : SameMembers ignored members others) :
      SameMembers ignored ((name, value) :: members) ((name, value) :: others)

/-- Requests that are equal but for the member of an ignored name. -/
inductive SameRequest (ignored : String) : Json → Json → Prop
  | equal (payload : Json) : SameRequest ignored payload payload
  | members {members others : List (String × Json)} (h : SameMembers ignored members others) :
      SameRequest ignored (.obj members) (.obj others)

section

variable {ignored : String}

theorem SameMembers.filter_eq {members others : List (String × Json)}
    (h : SameMembers ignored members others) :
    members.filter (fun member => member.1 ≠ ignored)
      = others.filter fun member => member.1 ≠ ignored := by
  induction h with
  | nil => rfl
  | passLeft _ ih => rw [List.filter_cons_of_neg (by simp), ih]
  | passRight _ ih => rw [List.filter_cons_of_neg (by simp), ih]
  | both hname _ ih =>
      rw [List.filter_cons_of_pos (by simpa using hname), ih,
        List.filter_cons_of_pos (by simpa using hname)]

theorem sameMembers_of_filter_eq {members others : List (String × Json)}
    (h : members.filter (fun member => member.1 ≠ ignored)
      = others.filter fun member => member.1 ≠ ignored) :
    SameMembers ignored members others := by
  induction members generalizing others with
  | nil =>
      induction others with
      | nil => exact .nil
      | cons other others ih =>
          obtain ⟨name, value⟩ := other
          by_cases hname : name = ignored
          · subst hname
            exact .passRight (ih (by simpa using h))
          · simp [hname] at h
  | cons member members ih =>
      obtain ⟨name, value⟩ := member
      by_cases hname : name = ignored
      · subst hname
        exact .passLeft (ih (by simpa using h))
      · -- What stands ignored in front of the others is passed over until the member comes.
        induction others with
        | nil => simp [hname] at h
        | cons other others ih' =>
            obtain ⟨name', value'⟩ := other
            by_cases hname' : name' = ignored
            · subst hname'
              exact .passRight (ih' (by simpa using h))
            · rw [List.filter_cons_of_pos (by simpa using hname),
                List.filter_cons_of_pos (by simpa using hname')] at h
              obtain ⟨⟨rfl, rfl⟩, hrest⟩ : (name = name' ∧ value = value') ∧ _ := by
                simpa only [List.cons.injEq, Prod.mk.injEq] using h
              exact .both hname (ih hrest)

/-- Requests without the member are equal exactly if the requests are but for it. -/
theorem sameRequest_iff {payload other : Json} :
    SameRequest ignored payload other
      ↔ withoutBypass ignored payload = withoutBypass ignored other := by
  constructor
  · rintro (_ | h)
    · rfl
    · exact congrArg Json.obj h.filter_eq
  · intro h
    cases payload with
    | obj members =>
        cases other with
        | obj others => exact .members (sameMembers_of_filter_eq (Json.obj.inj h))
        | _ => cases h
    | _ =>
        cases other <;> cases h
        exact .equal _

theorem withoutBypass_representable {payload : Json} (h : payload.Representable) :
    (withoutBypass ignored payload).Representable := by
  cases payload with
  | obj members =>
      rw [withoutBypass, Json.Representable, Json.representableMembers_iff]
      rw [Json.Representable, Json.representableMembers_iff] at h
      exact fun member hmember => h member (List.mem_of_mem_filter hmember)
  | _ => exact h

end

/-! ### Contents -/

section

variable {field other bypassField : String} {payload request : Json} {bindings values : Variables}

theorem content_inj :
    content field payload bypassField bindings = content other request bypassField values
      ↔ field = other ∧ withoutBypass bypassField payload = withoutBypass bypassField request
        ∧ bindings.toJson = values.toJson := by
  simp [content]

theorem content_representable (hpayload : payload.Representable)
    (hbindings : bindings.toJson.Representable) :
    (content field payload bypassField bindings).Representable := by
  rw [content, Json.Representable, Json.representableMembers_iff]
  simp only [List.forall_mem_cons, List.not_mem_nil, false_implies, implies_true, and_true]
  exact ⟨trivial, withoutBypass_representable hpayload, hbindings⟩

/-- **The text that is hashed for a key tells all that the key stands for.** -/
theorem content_text_inj (hpayload : payload.Representable) (hrequest : request.Representable)
    (hbindings : bindings.toJson.Representable) (hvalues : values.toJson.Representable) :
    (content field payload bypassField bindings).text
        = (content other request bypassField values).text
      ↔ field = other ∧ SameRequest bypassField payload request
        ∧ bindings.toJson = values.toJson := by
  rw [sameRequest_iff, ← content_inj]
  constructor
  · exact Json.text_injective (content_representable hpayload hbindings)
      (content_representable hrequest hvalues)
  · intro h
    rw [h]

end

/-! ### Requests for authors -/

namespace Authors

def query : String × Json := ("query", .str "query($ids: [ID]) \x7b authors \x7b id \x7d \x7d")

def given : String × Json := ("variables", .obj [("ids", .arr [.str "A", .null])])

def bypass (disabled : Bool) : String × Json := ("skipCache", .bool disabled)

def bindings (id : Const) : Variables := [("ids", .list [id, .null])]

/-- The text hashed for the authors of a request. -/
def hashed (members : List (String × Json)) (id : Const) : String :=
  (content "authors:authors" (.obj members) "skipCache" (bindings id)).text

theorem representable {members : List (String × Json)}
    (h : members ⊆ [query, given, bypass false, bypass true]) :
    (Json.obj members).Representable := by
  rw [Json.Representable, Json.representableMembers_iff]
  intro member hmember
  have hall : ∀ member ∈ [query, given, bypass false, bypass true],
      member.2.Representable := by
    simp [query, given, bypass, Json.Representable, Json.RepresentableItems,
      Json.RepresentableMembers]
  exact hall member (h hmember)

theorem representable_bindings {id : Const} (h : id.toJson.Representable) :
    (bindings id).toJson.Representable := by
  simp [bindings, Variables.toJson, Const.toJson, Const.toJsonMembers, Const.toJsonItems,
    Json.Representable, Json.RepresentableMembers, Json.RepresentableItems, h]

end Authors

/-- Where the cache is disabled or not, and whether a variable was written as a name or as a
string, is not told; the order of members is. -/
theorem content_text_inj_authors :
    Authors.hashed [Authors.bypass false, Authors.query, Authors.given] (.enum "A")
      = Authors.hashed [Authors.query, Authors.given, Authors.bypass true] (.string "A")
    ∧ Authors.hashed [Authors.query, Authors.given] (.string "A")
      ≠ Authors.hashed [Authors.given, Authors.query] (.string "A") := by
  have hname : (Authors.bindings (.enum "A")).toJson.Representable :=
    Authors.representable_bindings trivial
  have hstring : (Authors.bindings (.string "A")).toJson.Representable :=
    Authors.representable_bindings trivial
  constructor
  · refine (content_text_inj (Authors.representable (by simp)) (Authors.representable (by simp))
      hname hstring).mpr ⟨rfl, .members ?_, rfl⟩
    exact .passLeft (.both (by decide) (.both (by decide) (.passRight .nil)))
  · intro h
    obtain ⟨-, hsame, -⟩ := (content_text_inj (Authors.representable (by simp))
      (Authors.representable (by simp)) hstring hstring).mp h
    have hmembers := sameRequest_iff.mp hsame
    simp [withoutBypass, Authors.query, Authors.given] at hmembers

end CacheKey

end GraphFetch
