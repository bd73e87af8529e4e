/-
What a payload is accepted as.

Of the members of a payload three are read, and the others are passed over.  So a
request is accepted as the same, or refused for the same reason, with and without the
member that disables the cache, unless that is one of the three.

Once its text is read nothing is left of a payload but a document, the operation that is
asked for and values of variables.  What is accepted has names for names, since it was
read from a document.
-/
import GraphFetch.Cache.Key
import GraphFetch.Proofs.Document.Names
import GraphFetch.Proofs.Document.Roots

namespace GraphFetch

/-! ### Members that are passed over -/

namespace RecordType

variable {ν σ : Type} {type : RecordType ν σ}

/-- A member of an open record that no field is named like. -/
theorem readMember_unknown (hopen : type.closed = false) {name : String}
    (hname : ∀ field ∈ type.fields, field.name ≠ name) (record : σ) (value : ν) :
    type.readMember record (name, value) = .ok record := by
  unfold readMember
  have hnone : (type.fields.find? fun field => field.name == name) = none :=
    List.find?_eq_none.mpr fun field hfield => by simpa using hname field hfield
  simp [hnone, hopen]

theorem foldlM_readMember_filter (hopen : type.closed = false) {name : String}
    (hname : ∀ field ∈ type.fields, field.name ≠ name) (members : List (String × ν))
    (record : σ) :
    (members.filter fun member => member.1 ≠ name).foldlM type.readMember record
      = members.foldlM type.readMember record := by
  induction members generalizing record with
  | nil => rfl
  | cons member rest ih =>
      obtain ⟨other, value⟩ := member
      by_cases h : other = name
      · subst h
        rw [List.filter_cons_of_neg (by simp), List.foldlM_cons,
          readMember_unknown hopen hname]
        exact ih record
      · rw [List.filter_cons_of_pos (by simpa using h), List.foldlM_cons, List.foldlM_cons]
        cases type.readMember record (other, value) with
        | error fault => rfl
        | ok next => exact ih next

/-- An open record is read the same without a member that no field is named like. -/
theorem ofMembers_filter (hopen : type.closed = false) {name : String}
    (hname : ∀ field ∈ type.fields, field.name ≠ name) (start : σ) (members : List (String × ν)) :
    type.ofMembers start (members.filter fun member => member.1 ≠ name)
      = type.ofMembers start members := by
  have hgiven : ∀ field ∈ type.fields,
      ((members.filter fun member => member.1 ≠ name).map (·.1)).contains field.name
        = (members.map (·.1)).contains field.name := by
    intro field hfield
    have hne := hname field hfield
    rw [Bool.eq_iff_iff]
    simp only [List.contains_iff_mem, List.mem_map, List.mem_filter, decide_eq_true_eq]
    constructor
    · rintro ⟨member, ⟨hmember, -⟩, heq⟩
      exact ⟨member, hmember, heq⟩
    · rintro ⟨member, hmember, heq⟩
      exact ⟨member, ⟨hmember, heq ▸ hne⟩, heq⟩
  have hcheck : ∀ record : σ,
      type.checkGiven ((members.filter fun member => member.1 ≠ name).map (·.1)) record
        = type.checkGiven (members.map (·.1)) record := by
    intro record
    unfold checkGiven
    rw [← List.head?_filter, ← List.head?_filter,
      List.filter_congr fun field hfield => by rw [hgiven field hfield]]
  unfold ofMembers
  rw [foldlM_readMember_filter hopen hname]
  simp only [hcheck]

end RecordType

/-! ### Payloads -/

/-- The members of a payload that are read. -/
def payloadFields : List String := ["query", "operationName", "variables"]

theorem Request.ofJson_withoutBypass {bypassField : String} (h : bypassField ∉ payloadFields)
    (payload : Json) :
    Request.ofJson (CacheKey.withoutBypass bypassField payload) = Request.ofJson payload := by
  cases payload with
  | obj members =>
      refine RecordType.ofMembers_filter rfl (fun field hfield heq => h ?_) _ members
      rw [← heq]
      simp only [Request.type, List.mem_cons, List.not_mem_nil, or_false] at hfield
      rcases hfield with rfl | rfl | rfl
      · exact List.mem_cons_self
      · exact List.mem_cons_of_mem _ List.mem_cons_self
      · exact List.mem_cons_of_mem _ (List.mem_cons_of_mem _ List.mem_cons_self)
  | _ => rfl

/-- **The member that disables the cache has no part in what a request is accepted as.** -/
theorem AcceptedRequest.ofJson_withoutBypass {bypassField : String}
    (h : bypassField ∉ payloadFields) (payload : Json) :
    AcceptedRequest.ofJson (CacheKey.withoutBypass bypassField payload)
      = AcceptedRequest.ofJson payload := by
  unfold AcceptedRequest.ofJson
  rw [Request.ofJson_withoutBypass h]

/-! ### Documents -/

/-- What is left to do once a document was read. -/
def AcceptedRequest.ofDocument (document : Document) (operationName : Option String)
    (bindings : Variables) : Except EngineError AcceptedRequest := do
  let operation ← (document.selectOperation operationName).mapError .request
  if operation.kind ≠ .query then throw (.request (.unsupportedOperation operation.kind))
  let fields ← (document.fragments.rootFields operation.selections).mapError .plan
  return ⟨operation.withDefaults bindings, fields.map (·.root document.fragments)⟩

/-- Whether a payload asks for an operation of a document, with values for its variables. -/
def Asks (payload : Json) (document : Document) (operationName : Option String)
    (bindings : Variables) : Prop :=
  ∃ request, Request.ofJson payload = .ok request ∧ Document.parse request.query = .ok document
    ∧ request.operationName = operationName ∧ request.bindings = bindings

theorem Asks.accepted {payload : Json} {document : Document} {operationName : Option String}
    {bindings : Variables} (h : Asks payload document operationName bindings) :
    AcceptedRequest.ofJson payload
      = AcceptedRequest.ofDocument document operationName bindings := by
  obtain ⟨request, hrequest, hdocument, rfl, rfl⟩ := h
  unfold AcceptedRequest.ofJson AcceptedRequest.ofDocument
  rw [hrequest]
  simp only [Except.mapError, bind, Except.bind, hdocument]

/-- The document that characters stand for.  Where a text is written out, its characters are easier to
compute with than the text, which is made of bytes. -/
def Document.ofChars (chars : List Char) : Except DocumentError Document :=
  match definitions ⟨chars, none⟩ with
  | none => .error .grammar
  | some (definitions, input) =>
    match input.fault with
    | some fault => .error fault
    | none => ofDefinitions definitions

theorem Document.parse_eq (text : String) : parse text = ofChars text.toList := by
  unfold parse ofChars
  rfl

theorem Asks.of_text {text : String} {document : Document}
    (h : Document.ofChars text.toList = .ok document) :
    Asks (.obj [("query", .str text)]) document none [] :=
  ⟨⟨text, none, []⟩, rfl, (Document.parse_eq text).trans h, rfl, rfl⟩

/-- What a payload of a text alone is accepted as, in terms of the characters of the text. -/
theorem AcceptedRequest.ofJson_query (chars : List Char) :
    ofJson (.obj [("query", .str (String.ofList chars))])
      = (Document.ofChars chars).mapError (fun error => .request (.document error))
          >>= fun document => ofDocument document none [] := by
  have hrequest : Request.ofJson (.obj [("query", .str (String.ofList chars))])
      = .ok ⟨String.ofList chars, none, []⟩ := rfl
  have hparse : Document.parse (String.ofList chars) = Document.ofChars chars := by
    rw [Document.parse_eq, String.toList_ofList]
  unfold ofJson ofDocument
  rw [hrequest, ← hparse]
  rfl

/-! ### Root fields -/

open Document (IsName WellNamed AllWellNamed wellNamed_iff allWellNamed_iff)

theorem responseKey_isName {name : String} {asName : Option String} (hname : IsName name)
    (hasName : ∀ other, asName = some other → IsName other) : IsName (responseKey name asName) := by
  cases asName with
  | none => exact hname
  | some other => exact hasName other rfl

/-- The root fields of selections with names for names have such names, and so has what is below. -/
theorem Fragments.rootFields_wellNamed {fragments : Fragments}
    (hfragments : ∀ fragment ∈ fragments, AllWellNamed fragment.2) {selections : List Selection}
    (hselections : AllWellNamed selections) {fields : List WrittenField}
    (h : fragments.rootFields selections = .ok fields) :
    ∀ field ∈ fields.map (·.root fragments),
      IsName field.name ∧ IsName field.key ∧ (field.children ()).WellNamed := by
  intro field hfield
  obtain ⟨written, hwritten, rfl⟩ := List.mem_map.mp hfield
  have hstands := (rootFields_gathers h).mem_iff.mp hwritten
  have hnamed : WellNamed written.selection :=
    (wellNamed_iff _).mpr (hstands.holds
      (fun fragment hfragment => (allWellNamed_iff _).mp (hfragments fragment hfragment))
      ((allWellNamed_iff _).mp hselections))
  rw [WrittenField.selection, WellNamed] at hnamed
  obtain ⟨hname, hasName, hbelow⟩ := hnamed
  exact ⟨hname, responseKey_isName hname hasName, expand_wellNamed hfragments hbelow⟩

/-- Whether root fields are the same but for how they are written. -/
structure RootSelection.Alike (selection other : RootSelection) : Prop where
  name : selection.name = other.name
  asName : selection.asName = other.asName
  arguments : selection.arguments = other.arguments
  children : selection.children = other.children

namespace RootSelection.Alike

variable {selection other : RootSelection}

theorem refl (selection : RootSelection) : selection.Alike selection := ⟨rfl, rfl, rfl, rfl⟩

theorem key (h : selection.Alike other) : selection.key = other.key := by
  unfold RootSelection.key WrittenField.key
  rw [h.name, h.asName]

end RootSelection.Alike

theorem Document.selectOperation_mem {document : Document} {name : Option String}
    {operation : Operation} (h : document.selectOperation name = .ok operation) :
    operation ∈ document.operations := by
  unfold Document.selectOperation at h
  split at h
  · split at h
    · rename_i hfind
      cases h
      exact List.mem_of_find?_eq_some hfind
    · exact absurd h (by simp)
  · rename_i honly
    cases h
    rw [honly]
    exact List.mem_singleton_self _
  · exact absurd h (by simp)
  · exact absurd h (by simp)

/-- Documents whose operations are related one by one, and keep their names, select related ones. -/
theorem Document.selectOperation_both {related : Operation → Operation → Prop}
    (hname : ∀ operation other, related operation other → operation.name = other.name)
    {document other : Document} (h : List.Forall₂ related document.operations other.operations)
    (name : Option String) :
    Outcome.Both related (document.selectOperation name) (other.selectOperation name) := by
  obtain ⟨operations, fragments⟩ := document
  obtain ⟨others, fragments'⟩ := other
  unfold Document.selectOperation
  dsimp only at h ⊢
  cases name with
  | some name =>
      dsimp only
      induction h with
      | nil => exact .error _
      | @cons first second rest more hfirst _ ih =>
          have hsame : (first.name == some name) = (second.name == some name) := by
            rw [hname _ _ hfirst]
          rw [List.find?_cons, List.find?_cons, hsame]
          cases second.name == some name with
          | true => exact .ok hfirst
          | false => exact ih
  | none =>
      cases h with
      | nil => exact .error _
      | cons hfirst hrest =>
          cases hrest with
          | nil => exact .ok hfirst
          | cons _ _ => exact .error _

/-- **What is accepted has names for names.** -/
theorem AcceptedRequest.ofJson_wellNamed {payload : Json} {request : AcceptedRequest}
    (h : AcceptedRequest.ofJson payload = .ok request) :
    ∀ field ∈ request.fields, IsName field.name ∧ IsName field.key
      ∧ (field.children ()).WellNamed := by
  unfold AcceptedRequest.ofJson at h
  obtain ⟨decoded, -, h⟩ := Outcome.bind_ok.mp h
  obtain ⟨document, hdocument, h⟩ := Outcome.bind_ok.mp h
  obtain ⟨operation, hoperation, h⟩ := Outcome.bind_ok.mp h
  have hnamed := Document.parse_allNamed (Outcome.mapError_ok.mp hdocument)
  have hmember := Document.selectOperation_mem (Outcome.mapError_ok.mp hoperation)
  dsimp only at h
  split at h
  · exact absurd h (by simp [throw, throwThe, MonadExceptOf.throw, bind, Except.bind])
  · obtain ⟨fields, hfields, h⟩ := Outcome.bind_ok.mp h
    obtain rfl := Outcome.pure_ok.mp h
    exact Fragments.rootFields_wellNamed hnamed.fragments (hnamed.operations operation hmember)
      (Outcome.mapError_ok.mp hfields)

end GraphFetch
