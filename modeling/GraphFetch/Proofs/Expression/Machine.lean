/-
Expressions, one token after the other.

What can stand behind the tokens so far depends on where in a segment they end and on how many
brackets are open, and on nothing else: a segment inside of others ends where they all do, so no
more than the brackets has to be remembered.  A machine with nine places and one counter therefore
takes the tokens of an expression step by step.

The readers keep to its steps.  Where one succeeds it has taken tokens that the machine takes, and
where one fails it points at the token at which the machine is stuck, or at the end if no expression
ends there.  That is shown for each reader with a condition on the state in which it leaves the
machine, and carried through the sequences of readers by one lemma.

From every state the machine comes to an end of some expression.  So what it has taken can always be
completed, and what it refuses cannot.
-/
import GraphFetch.Proofs.Expression.Grammar

namespace GraphFetch

namespace Expression

/-! ### States -/

/-- Where in an expression its tokens so far end. -/
inductive Place
  | list
  | segment
  | named
  | aliased
  | relation
  | modifier
  | modifiers
  | modified
  | closed
deriving DecidableEq

namespace Place

/-- Whether a segment can end here. -/
def isEnd : Place → Bool
  | named | relation | modified | closed => true
  | _ => false

/-- Where a segment goes on behind a token of its own. -/
def next : Place → Token → Option Place
  | list, .name _ | segment, .name _ => some named
  | named, .colon => some aliased
  | aliased, .name _ => some relation
  | named, .openModifiers | relation, .openModifiers => some modifier
  | modifier, .name _ => some modifiers
  | modifiers, .comma => some modifier
  | modifiers, .closeModifiers => some modified
  | named, .dot | relation, .dot | modified, .dot => some list
  | _, _ => none

/-- Tokens with which a segment ends. -/
def completion : Place → List Token
  | list | segment | aliased => [.name ['x']]
  | modifier => [.name ['x'], .closeModifiers]
  | modifiers => [.closeModifiers]
  | _ => []

end Place

/-- Where an expression's tokens so far end, and how many brackets are open there. -/
structure State where
  place : Place
  depth : Nat

namespace State

def start : State := ⟨.list, 0⟩

/-- Whether an expression can end. -/
def isFinal (s : State) : Bool := s.place.isEnd && s.depth == 0

/-- Whether a segment can end in brackets. -/
def isWithin (s : State) : Bool := s.place.isEnd && s.depth != 0

/-- The state behind a token around the segments of a list. -/
def around (s : State) : Token → Option State
  | .openList => if s.place = .list then some ⟨.segment, s.depth + 1⟩ else none
  | .comma => if s.isWithin then some ⟨.segment, s.depth⟩ else none
  | .closeList => if s.isWithin then some ⟨.closed, s.depth - 1⟩ else none
  | _ => none

/-- The state behind a token, if it can stand there. -/
def next (s : State) (token : Token) : Option State :=
  match s.place.next token with
  | some place => some ⟨place, s.depth⟩
  | none => s.around token

/-- The state behind several tokens. -/
def run (s : State) (tokens : List Token) : Option State := tokens.foldlM next s

/-- Tokens with which an expression ends. -/
def completion (s : State) : List Token :=
  s.place.completion ++ List.replicate s.depth .closeList

theorem run_cons (s : State) (token : Token) (tokens : List Token) :
    s.run (token :: tokens) = (s.next token).bind fun s' => s'.run tokens := by
  unfold run
  rw [List.foldlM_cons]
  rfl

theorem run_append (s : State) (tokens others : List Token) :
    s.run (tokens ++ others) = (s.run tokens).bind fun s' => s'.run others := by
  unfold run
  rw [List.foldlM_append]
  rfl

/-- Which name it is makes no difference. -/
theorem next_name (s : State) (chars others : List Char) :
    s.next (.name chars) = s.next (.name others) := by
  obtain ⟨place, depth⟩ := s
  cases place <;> rfl

/-- No expression goes on with a character that is left over. -/
theorem next_stray (s : State) (c : Char) : s.next (.stray c) = none := by
  obtain ⟨place, depth⟩ := s
  cases place <;> rfl

theorem run_closeLists {place : Place} (hend : place.isEnd = true) (depth : Nat) :
    ∃ s : State, run ⟨place, depth⟩ (List.replicate depth .closeList) = some s
      ∧ s.isFinal = true := by
  induction depth generalizing place with
  | zero => exact ⟨⟨place, 0⟩, rfl, by simp [isFinal, hend]⟩
  | succ depth ih =>
      obtain ⟨s, hrun, hfinal⟩ := ih (show Place.closed.isEnd = true from rfl)
      refine ⟨s, ?_, hfinal⟩
      have hclose : next ⟨place, depth + 1⟩ .closeList = some ⟨.closed, depth⟩ := by
        cases place <;> first | rfl | exact nomatch hend
      rw [List.replicate_succ, run_cons, hclose]
      exact hrun

/-- **Every state is one in an expression.** -/
theorem run_completion (s : State) : ∃ s', s.run s.completion = some s' ∧ s'.isFinal = true := by
  obtain ⟨place, depth⟩ := s
  have hsegment : ∃ other : Place, other.isEnd = true
      ∧ run ⟨place, depth⟩ place.completion = some ⟨other, depth⟩ := by
    cases place <;> exact ⟨_, by decide, rfl⟩
  obtain ⟨other, hend, hrun⟩ := hsegment
  rw [completion, run_append, hrun]
  exact run_closeLists hend depth

end State

/-! ### Readers -/

/-- Whether tokens in front of the rest bring the machine from one state into another. -/
def Takes (s : State) (spots : List Spot) (s' : State) (rest : List Spot) : Prop :=
  ∃ front, spots = front ++ rest ∧ s.run (front.map Spot.token) = some s'

/-- Whether the machine cannot take the next token, and no expression ends here. -/
def State.Stuck (s : State) : List Spot → Prop
  | [] => s.isFinal = false
  | spot :: _ => s.next spot.token = none

/-- Whether a reader takes what the machine takes, and leaves it in such a state or where it is
stuck. -/
def Tracks {α : Type} (s : State) (spots : List Spot) (leaves : State → List Spot → Prop) :
    Except Failure (α × List Spot) → Prop
  | .ok (_, rest) => ∃ s', Takes s spots s' rest ∧ leaves s' rest
  | .error (_, rest) => ∃ s', Takes s spots s' rest ∧ s'.Stuck rest

section Readers

variable {s s' s'' : State} {spots rest more : List Spot} {depth : Nat}

theorem Takes.refl (s : State) (spots : List Spot) : Takes s spots s spots := ⟨[], rfl, rfl⟩

theorem Takes.trans (h : Takes s spots s' rest) (h' : Takes s' rest s'' more) :
    Takes s spots s'' more := by
  obtain ⟨front, rfl, hfront⟩ := h
  obtain ⟨between, rfl, hbetween⟩ := h'
  refine ⟨front ++ between, by rw [List.append_assoc], ?_⟩
  rw [List.map_append, State.run_append, hfront]
  exact hbetween

theorem Takes.single {token : Token} (h : s.next token = some s') (offset : Nat)
    (rest : List Spot) : Takes s (⟨token, offset⟩ :: rest) s' rest :=
  ⟨[⟨token, offset⟩], rfl, by rw [List.map_singleton, State.run_cons, h]; rfl⟩

/-- The machine has to take a token to get to another place. -/
theorem Takes.length_lt (h : Takes s spots s' rest) (hplace : s.place ≠ s'.place) :
    rest.length < spots.length := by
  obtain ⟨front, rfl, hfront⟩ := h
  cases front with
  | nil =>
      cases hfront
      exact absurd rfl hplace
  | cons first front =>
      rw [List.length_append, List.length_cons]
      omega

variable {α β : Type} {leaves leaves' : State → List Spot → Prop}

theorem Tracks.done (value : α) (h : leaves s rest) :
    Tracks s rest leaves (.ok (value, rest)) :=
  ⟨s, .refl s rest, h⟩

theorem Tracks.stuck (fault : Fault) (h : s.Stuck rest) :
    Tracks s rest leaves (.error (fault, rest) : Except Failure (α × List Spot)) :=
  ⟨s, .refl s rest, h⟩

/-- What a reader does behind tokens that the machine takes. -/
theorem Tracks.after {outcome : Except Failure (α × List Spot)} (h : Takes s spots s' rest)
    (houtcome : Tracks s' rest leaves outcome) : Tracks s spots leaves outcome := by
  match outcome, houtcome with
  | .ok (value, behind), ⟨s'', htakes, hleaves⟩ => exact ⟨s'', h.trans htakes, hleaves⟩
  | .error (fault, behind), ⟨s'', htakes, hstuck⟩ => exact ⟨s'', h.trans htakes, hstuck⟩

theorem Tracks.single {token : Token} {offset : Nat} {outcome : Except Failure (α × List Spot)}
    (s' : State) (h : s.next token = some s') (houtcome : Tracks s' rest leaves outcome) :
    Tracks s (⟨token, offset⟩ :: rest) leaves outcome :=
  .after (.single h offset rest) houtcome

theorem Tracks.mono {outcome : Except Failure (α × List Spot)} (h : Tracks s spots leaves outcome)
    (hleaves : ∀ s' rest, leaves s' rest → leaves' s' rest) : Tracks s spots leaves' outcome := by
  match outcome, h with
  | .ok (value, behind), ⟨s', htakes, hleft⟩ => exact ⟨s', htakes, hleaves s' behind hleft⟩
  | .error (fault, behind), h => exact h

/-- Readers one after the other. -/
theorem Tracks.bind {outcome : Except Failure (α × List Spot)}
    {next : α × List Spot → Except Failure (β × List Spot)} (h : Tracks s spots leaves outcome)
    (hnext : ∀ value s' rest, Takes s spots s' rest → leaves s' rest →
      Tracks s' rest leaves' (next (value, rest))) : Tracks s spots leaves' (outcome >>= next) := by
  match outcome, h with
  | .ok (value, behind), ⟨s', htakes, hleaves⟩ =>
      exact .after htakes (hnext value s' behind htakes hleaves)
  | .error (fault, behind), h => exact h

/-- Whether nothing but a name can stand here. -/
structure NameDue (s s' : State) (spots : List Spot) : Prop where
  name : ∀ chars, s.next (.name chars) = some s'
  other : ∀ spot ∈ spots.head?, (∀ chars, spot.token ≠ .name chars) → s.next spot.token = none
  notFinal : s.isFinal = false

theorem NameDue.stuck (h : NameDue s s' spots)
    (hname : ∀ chars offset rest, spots = ⟨.name chars, offset⟩ :: rest → False) :
    s.Stuck spots := by
  cases spots with
  | nil => exact h.notFinal
  | cons spot rest =>
      obtain ⟨token, offset⟩ := spot
      exact h.other _ rfl fun chars heq => hname chars offset rest (heq ▸ rfl)

/-- Where a name can stand nothing else can, but for a bracket in front of a list. -/
theorem nameDue (place : Place) {next : Place} (hplace : place.next (.name []) = some next)
    (depth : Nat) (hopen : place ≠ .list ∨ ∀ spot ∈ spots.head?, spot.token ≠ .openList) :
    NameDue ⟨place, depth⟩ ⟨next, depth⟩ spots := by
  have hplaces : place = .list ∨ place = .segment ∨ place = .aliased ∨ place = .modifier := by
    cases place <;> simp [Place.next] at hplace <;> simp
  refine ⟨fun chars => ?_, fun spot hspot hname => ?_, ?_⟩
  · rw [State.next_name _ chars [], State.next, hplace]
  · obtain ⟨token, offset⟩ := spot
    rcases hplaces with rfl | rfl | rfl | rfl <;> cases token <;>
      first
      | rfl
      | exact absurd rfl (hname _)
      | exact absurd rfl (hopen.resolve_left (not_not_intro rfl) _ hspot)
  · rcases hplaces with rfl | rfl | rfl | rfl <;> rfl

theorem readName_tracks (h : NameDue s s' spots) :
    Tracks s spots (fun left _ => left = s') (readName spots) := by
  unfold readName
  split
  · exact .single s' (h.name _) (.done _ rfl)
  · rename_i hname
    exact .stuck _ (h.stuck hname)

/-- Where the tokens do not begin with one, what they begin with is another one. -/
theorem head_ne {token : Token} (h : ∀ offset more, spots = ⟨token, offset⟩ :: more → False) :
    ∀ spot ∈ spots.head?, spot.token ≠ token := by
  intro spot hspot htoken
  obtain ⟨more, rfl⟩ := List.head?_eq_some_iff.mp hspot
  exact h spot.offset more (htoken ▸ rfl)

/-- Whether the machine is left at one of some places, behind which none but some tokens can go on
within the segment. -/
structure Leaves (places : List Place) (onward : List Token) (depth : Nat) (s : State)
    (rest : List Spot) : Prop where
  depth_eq : s.depth = depth
  place_mem : s.place ∈ places
  next : ∀ spot ∈ rest.head?, spot.token ∈ onward ∨ s.place.next spot.token = none

theorem readHead_tracks (h : NameDue s ⟨.named, depth⟩ spots) :
    Tracks s spots (Leaves [.named, .relation] [.openModifiers, .dot] depth) (readHead spots) := by
  unfold readHead
  refine (readName_tracks h).bind fun first s' rest _ hleft => ?_
  subst hleft
  dsimp only
  split
  · refine .single ⟨.aliased, depth⟩ rfl ?_
    refine (readName_tracks (nameDue .aliased rfl depth (.inl (by decide)))).bind ?_
    intro name s' rest _ hleft
    subst hleft
    refine .done _ ⟨rfl, by simp, fun spot _ => ?_⟩
    cases spot.token <;> simp [Place.next]
  · rename_i hcolon
    refine .done _ ⟨rfl, by simp, fun spot hspot => ?_⟩
    have hother := head_ne hcolon spot hspot
    cases htoken : spot.token <;> first | exact absurd htoken hother | simp [Place.next]

theorem readModifierNames_tracks (depth : Nat) (spots : List Spot) :
    Tracks ⟨.modifier, depth⟩ spots (fun left _ => left = ⟨.modified, depth⟩)
      (readModifierNames spots) := by
  fun_induction readModifierNames spots with
  | case1 chars offset offset' more ih =>
      refine .single ⟨.modifiers, depth⟩ rfl (.single ⟨.modifier, depth⟩ rfl ?_)
      exact ih.bind fun names s' rest _ hleft => .done _ hleft
  | case2 chars offset offset' more =>
      exact .single ⟨.modifiers, depth⟩ rfl (.single _ rfl (.done _ rfl))
  | case3 chars offset rest hcomma hclose =>
      refine .single ⟨.modifiers, depth⟩ rfl (.stuck _ ?_)
      cases rest with
      | nil => rfl
      | cons spot more =>
          obtain ⟨token, next⟩ := spot
          cases token <;>
            first | rfl | exact absurd rfl (hcomma _ _) | exact absurd rfl (hclose _ _)
  | case4 spots hcomma hclose hname =>
      exact .stuck _ ((nameDue .modifier rfl depth (.inl (by decide))).stuck hname)

theorem readModifiers_tracks
    (h : Leaves [.named, .relation] [.openModifiers, .dot] depth s spots) :
    Tracks s spots (Leaves [.named, .relation, .modified] [.dot] depth) (readModifiers spots) := by
  obtain ⟨place, depth'⟩ := s
  obtain ⟨rfl, hplace, hnext⟩ := h
  unfold readModifiers
  split
  · have hopen : State.next ⟨place, depth'⟩ .openModifiers = some ⟨.modifier, depth'⟩ := by
      cases place <;> first | rfl | simp at hplace
    refine .single _ hopen ((readModifierNames_tracks depth' _).mono fun s' rest hleft => ?_)
    subst hleft
    refine ⟨rfl, by simp, fun spot _ => ?_⟩
    cases spot.token <;> simp [Place.next]
  · rename_i hopen
    refine .done _ ⟨rfl, List.mem_append_left [Place.modified] hplace, fun spot hspot => ?_⟩
    refine (hnext spot hspot).imp_left fun honward => ?_
    exact (List.mem_cons.mp honward).resolve_left (head_ne hopen spot hspot)

/-- The places behind a whole segment. -/
def ends : List Place := [.named, .relation, .modified, .closed]

theorem Leaves.isEnd (h : Leaves ends [] depth s rest) : s.place.isEnd = true := by
  obtain ⟨place, depth'⟩ := s
  have hplace := h.place_mem
  cases place <;> first | rfl | simp [ends] at hplace

/-- Where a segment can end is not where it cannot. -/
theorem Leaves.ne_place {place : Place} (h : Leaves ends [] depth s rest)
    (hplace : place.isEnd = false) : place ≠ s.place := by
  intro heq
  rw [heq, h.isEnd] at hplace
  exact Bool.noConfusion hplace

/-- Behind a whole segment there is nothing but what stands around segments. -/
theorem Leaves.next_eq {spot : Spot} (h : Leaves ends [] depth s (spot :: rest)) :
    s.next spot.token = s.around spot.token := by
  have hnext : s.place.next spot.token = none := (h.next spot rfl).resolve_left (by simp)
  rw [State.next, hnext]

theorem Leaves.isWithin (h : Leaves ends [] (depth + 1) s rest) : s.isWithin = true := by
  simp [State.isWithin, h.isEnd, h.depth_eq]

theorem Leaves.next_comma {offset : Nat} {more : List Spot}
    (h : Leaves ends [] (depth + 1) s (⟨.comma, offset⟩ :: more)) :
    s.next .comma = some ⟨.segment, depth + 1⟩ := by
  rw [h.next_eq, State.around, if_pos h.isWithin, h.depth_eq]

theorem Leaves.next_closeList {offset : Nat} {more : List Spot}
    (h : Leaves ends [] (depth + 1) s (⟨.closeList, offset⟩ :: more)) :
    s.next .closeList = some ⟨.closed, depth⟩ := by
  rw [h.next_eq, State.around, if_pos h.isWithin, h.depth_eq, Nat.add_sub_cancel]

/-- Without a comma and a bracket an open list does not go on. -/
theorem Leaves.stuck (h : Leaves ends [] (depth + 1) s rest)
    (hrest : ∀ spot ∈ rest.head?, spot.token ≠ .comma ∧ spot.token ≠ .closeList) :
    s.Stuck rest := by
  cases rest with
  | nil => simp [State.Stuck, State.isFinal, h.depth_eq]
  | cons spot more =>
      obtain ⟨hcomma, hclose⟩ := hrest spot rfl
      show s.next spot.token = none
      rw [h.next_eq]
      have hlist : s.place ≠ .list := (h.ne_place rfl).symm
      cases htoken : spot.token <;> first | rfl | exact absurd htoken ‹_› | exact if_neg hlist

/-- A segment does not begin where one goes on. -/
theorem NameDue.place_ne {s left : State} {onward : List Token}
    (h : NameDue s ⟨.named, depth⟩ spots)
    (hleft : Leaves [.named, .relation, .modified] onward depth left rest) :
    s.place ≠ left.place := by
  intro heq
  have hnone : s.place.next (.name []) = none := by
    rw [heq]
    have hplace := hleft.place_mem
    generalize left.place = place at hplace
    cases place <;> first | rfl | simp at hplace
  have hname := h.name []
  rw [State.next, hnone] at hname
  exact nomatch hname

theorem Leaves.next_dot {offset : Nat} {more : List Spot}
    (h : Leaves [.named, .relation, .modified] [.dot] depth s (⟨.dot, offset⟩ :: more)) :
    s.next .dot = some ⟨.list, depth⟩ := by
  obtain ⟨place, depth'⟩ := s
  obtain ⟨rfl, hplace, -⟩ := h
  cases place <;> first | rfl | simp at hplace

/-- Without a dot a segment is whole behind its head. -/
theorem Leaves.whole (h : Leaves [.named, .relation, .modified] [.dot] depth s rest)
    (hrest : ∀ spot ∈ rest.head?, spot.token ≠ .dot) : Leaves ends [] depth s rest := by
  refine ⟨h.depth_eq, List.mem_append_left [Place.closed] h.place_mem, fun spot hspot => ?_⟩
  refine (h.next spot hspot).imp_left fun honward => ?_
  exact absurd (List.mem_singleton.mp honward) (hrest spot hspot)

mutual

/-- A list is read token by token as the machine takes it, and so are the segments in it.  Two calls
more than tokens are left are enough. -/
theorem readList_tracks : ∀ (fuel depth : Nat) (spots : List Spot), spots.length + 2 ≤ fuel →
    Tracks ⟨.list, depth⟩ spots (Leaves ends [] depth) (readList fuel spots)
  | 0, depth, spots, hfuel => by omega
  | fuel + 1, depth, spots, hfuel => by
    by_cases hopen : ∃ offset rest, spots = ⟨.openList, offset⟩ :: rest
    · obtain ⟨offset, rest, rfl⟩ := hopen
      rw [List.length_cons] at hfuel
      rw [readList]
      refine .single ⟨.segment, depth + 1⟩ rfl ?_
      refine (readSegments_tracks fuel depth rest (by omega)).mono fun s' rest hleft => ?_
      subst hleft
      exact ⟨rfl, by simp [ends], fun spot _ => Or.inr (by cases spot.token <;> rfl)⟩
    · have hbare : ∀ offset rest, spots = ⟨.openList, offset⟩ :: rest → False :=
        fun offset rest heq => hopen ⟨offset, rest, heq⟩
      rw [readList]
      · have hdue := nameDue .list rfl depth (.inr (head_ne hbare))
        exact (readSegment_tracks fuel depth hdue (by omega)).bind
          fun node s' rest _ hleft => .done _ hleft
      · exact hbare

theorem readSegments_tracks : ∀ (fuel depth : Nat) (spots : List Spot), spots.length + 2 ≤ fuel →
    Tracks ⟨.segment, depth + 1⟩ spots (fun left _ => left = ⟨.closed, depth⟩)
      (readSegments fuel spots)
  | 0, depth, spots, hfuel => by omega
  | fuel + 1, depth, spots, hfuel => by
    rw [readSegments]
    have hdue : NameDue ⟨.segment, depth + 1⟩ ⟨.named, depth + 1⟩ spots :=
      nameDue _ rfl _ (.inl (by decide))
    refine (readSegment_tracks fuel (depth + 1) hdue (by omega)).bind
      fun node s' rest htakes hleft => ?_
    dsimp only
    split
    · rename_i offset more
      have hlength := htakes.length_lt (hleft.ne_place rfl)
      rw [List.length_cons] at hlength
      exact .single _ hleft.next_comma ((readSegments_tracks fuel depth more (by omega)).bind
        fun nodes left rest _ hleft => .done _ hleft)
    · exact .single _ hleft.next_closeList (.done _ rfl)
    · rename_i hcomma hclose
      exact .stuck _ (hleft.stuck fun spot hspot =>
        ⟨head_ne hcomma spot hspot, head_ne hclose spot hspot⟩)

theorem readSegment_tracks : ∀ (fuel depth : Nat) {s : State} {spots : List Spot},
    NameDue s ⟨.named, depth⟩ spots → spots.length + 1 ≤ fuel →
    Tracks s spots (Leaves ends [] depth) (readSegment fuel spots)
  | 0, depth, s, spots, hdue, hfuel => by omega
  | fuel + 1, depth, s, spots, hdue, hfuel => by
    rw [readSegment]
    refine (readHead_tracks hdue).bind fun head s' between hhead hleft => ?_
    refine (readModifiers_tracks hleft).bind fun modifiers s'' rest hmodifiers hleft => ?_
    dsimp only
    split
    · rename_i offset more
      have hlength := (hhead.trans hmodifiers).length_lt (hdue.place_ne hleft)
      rw [List.length_cons] at hlength
      exact .single _ hleft.next_dot ((readList_tracks fuel depth more (by omega)).bind
        fun children left rest _ hleft => .done _ hleft)
    · rename_i hdot
      exact .done _ (hleft.whole (head_ne hdot))

end

/-! ### Whole expressions -/

/-- Whether the machine takes all tokens of an expression. -/
def Accepts (tokens : List Token) : Prop :=
  ∃ s, State.start.run tokens = some s ∧ s.isFinal = true

/-- What is left behind a whole list outside of brackets cannot stand there. -/
theorem Leaves.leftover {spot : Spot} (h : Leaves ends [] 0 s (spot :: rest)) :
    s.Stuck (spot :: rest) := by
  have hlist : s.place ≠ .list := (h.ne_place rfl).symm
  have hwithin : s.isWithin = false := by simp [State.isWithin, h.depth_eq]
  show s.next spot.token = none
  rw [h.next_eq]
  cases spot.token <;> simp [State.around, hlist, hwithin]

/-- All tokens are read as an expression that the machine takes, or up to where it is stuck. -/
theorem readAll_tracks (spots : List Spot) :
    match readAll spots with
    | .ok _ => spots = [] ∨ Accepts (spots.map Spot.token)
    | .error (_, rest) => ∃ s, Takes .start spots s rest ∧ s.Stuck rest := by
  by_cases hne : spots = []
  · subst hne
    exact Or.inl rfl
  · have hlength : 0 < spots.length := List.length_pos_iff.mpr hne
    have htracks := readList_tracks (3 * spots.length) 0 spots (by omega)
    rw [readAll]
    · cases hlist : readList (3 * spots.length) spots with
      | error failure =>
          rw [hlist] at htracks
          exact htracks
      | ok found =>
          rw [hlist] at htracks
          obtain ⟨s, htakes, hleft⟩ := htracks
          obtain ⟨nodes, rest⟩ := found
          cases rest with
          | nil =>
              obtain ⟨front, rfl, hrun⟩ := htakes
              rw [List.append_nil]
              exact Or.inr ⟨s, hrun, by simp [State.isFinal, hleft.isEnd, hleft.depth_eq]⟩
          | cons spot more => exact ⟨s, htakes, hleft.leftover⟩
    · exact hne

/-- What the machine is stuck in is no part of an expression. -/
theorem State.Stuck.not_accepts (h : Takes .start spots s rest) (hstuck : s.Stuck rest) :
    ¬ Accepts (spots.map Spot.token) := by
  obtain ⟨front, rfl, hfront⟩ := h
  intro ⟨last, hrun, hfinal⟩
  rw [List.map_append, State.run_append, hfront, Option.bind_some] at hrun
  cases rest with
  | nil =>
      cases hrun
      exact nomatch hfinal.symm.trans hstuck
  | cons spot more =>
      have hnext : s.next spot.token = none := hstuck
      rw [List.map_cons, State.run_cons, hnext] at hrun
      exact nomatch hrun

/-- **What is read as nodes is what the machine takes.** -/
theorem readAll_ok_iff (spots : List Spot) :
    (∃ nodes, readAll spots = .ok nodes) ↔ spots = [] ∨ Accepts (spots.map Spot.token) := by
  have htracks := readAll_tracks spots
  constructor
  · intro ⟨nodes, hnodes⟩
    rw [hnodes] at htracks
    exact htracks
  · intro haccepts
    cases hall : readAll spots with
    | ok nodes => exact ⟨nodes, rfl⟩
    | error failure =>
        rw [hall] at htracks
        obtain ⟨s, htakes, hstuck⟩ := htracks
        obtain rfl | haccepts := haccepts
        · exact nomatch hall
        · exact absurd haccepts (hstuck.not_accepts htakes)

end Readers

end Expression

end GraphFetch
