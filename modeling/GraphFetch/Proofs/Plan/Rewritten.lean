/-
Compiling fields with other arguments.

Which columns a selection needs, which relations it attaches and what shape its answer has is
a matter of its fields alone.  So rewriting arguments leaves the projections and the shape as
they are; and the nodes but for what they refer to, as long as naming the modifiers of one
relation succeeds for both or fails for both, in the same way.
-/
import GraphFetch.Engine.Shaped
import GraphFetch.Proofs.Database.Agreement
import GraphFetch.Proofs.Document.Rewritten
import GraphFetch.Proofs.Plan.References

namespace GraphFetch

open Outcome (Both)

variable {change : ArgumentChange} {selected other : Selected}

namespace Plan

/-! ### Columns -/

theorem collectColumns_rewrites (entity : Entity) (h : selected.Rewrites change other)
    (columns : List String) :
    collectColumns entity columns selected = collectColumns entity columns other := by
  induction h generalizing columns with
  | none => rfl
  | missing _ _ => rfl
  | field _ _ _ _ ih => exact ih _

/-- Rewritten fields need the same columns. -/
theorem projectionModifier_rewrites {context context' : PlanContext}
    (hsettings : context.settings = context'.settings) (entity : Entity)
    (h : selected.Rewrites change other) :
    projectionModifier context entity selected = projectionModifier context' entity other := by
  unfold projectionModifier
  rw [hsettings, collectColumns_rewrites entity h]

/-- A projection keeps queries in every relation that selecting columns keeps them in. -/
theorem projectionModifier_carries {related : Query → Query → Prop}
    (hselect : ∀ columns, Carries related [.select columns] [.select columns])
    {context : PlanContext} {entity : Entity} {projection : Option Edit}
    (h : projectionModifier context entity selected = .ok projection) :
    Carries related projection.toList projection.toList := by
  unfold projectionModifier at h
  split at h
  · obtain ⟨columns, -, h⟩ := Outcome.bind_ok.mp h
    split at h
    · obtain rfl := Outcome.pure_ok.mp h
      exact .nil
    · obtain rfl := Outcome.pure_ok.mp h
      exact hselect _
  · cases h
    exact .nil

/-! ### Relations -/

/-- **Rewritten fields compile to the same nodes but for what they refer to**, if naming the
modifiers of a relation keeps the tables of names, and the references, in a relation. -/
theorem compileFields_both {context context' : PlanContext}
    (hregistry : context.registry = context'.registry) (named : Naming → Naming → Prop)
    (refer : List String → List String → Prop)
    (hname : ∀ id {arguments others children below before before'}, change arguments others →
      children.Rewrites change below → named before before' →
      Both (fun made made' => refer made.1 made'.1 ∧ named made.2 made'.2)
        (nameModifiers context (context.registry.entity id) arguments children before)
        (nameModifiers context' (context.registry.entity id) others below before'))
    (h : selected.Rewrites change other) (entity : Entity) (taken : List String)
    {before before' : Naming} (hbefore : named before before') :
    Both (fun made made' => SameNodes refer made.1 made'.1 ∧ named made.2 made'.2)
      (compileFields context entity taken selected before)
      (compileFields context' entity taken other before') := by
  induction h generalizing entity taken before before' with
  | none => exact .ok ⟨.nil, hbefore⟩
  | missing _ _ => exact .error _
  | @field name asName arguments others children below rest more harguments hchildren _
      ihBelow ih =>
      rw [compileFields, compileFields]
      cases entity.relation? name with
      | none => exact ih entity taken hbefore
      | some relation =>
          dsimp only
          split
          · exact .error _
          · rw [← hregistry]
            refine (hname _ harguments hchildren hbefore).bind fun made made' _ _ hmade => ?_
            refine (ihBelow _ _ hmade.2).bind fun inner inner' _ _ hinner => ?_
            refine (ih _ _ hinner.2).bind fun nodes nodes' _ _ hnodes => .pure ⟨?_, hnodes.2⟩
            exact .cons hmade.1 hinner.1 hnodes.1

/-- What `compileFields` makes of rewritten fields goes into their loads. -/
theorem compile_both {context context' : PlanContext}
    (hregistry : context.registry = context'.registry) (named : Naming → Naming → Prop)
    (refer : List String → List String → Prop)
    (hname : ∀ id {arguments others children below before before'}, change arguments others →
      children.Rewrites change below → named before before' →
      Both (fun made made' => refer made.1 made'.1 ∧ named made.2 made'.2)
        (nameModifiers context (context.registry.entity id) arguments children before)
        (nameModifiers context' (context.registry.entity id) others below before'))
    (h : selected.Rewrites change other) (entity : Entity) (hstart : named .start .start) :
    Both (fun load load' => SameNodes refer load.relations load'.relations
        ∧ ∃ nextIndex nextIndex', named ⟨nextIndex, load.modifiers⟩ ⟨nextIndex', load'.modifiers⟩)
      (compile context entity selected) (compile context' entity other) := by
  refine (compileFields_both hregistry named refer hname h entity [] hstart).bind
    fun made made' _ _ hmade => ?_
  obtain ⟨nodes, naming⟩ := made
  obtain ⟨nodes', naming'⟩ := made'
  exact .pure ⟨hmade.1, naming.nextIndex, naming'.nextIndex, hmade.2⟩

/-! ### Arguments -/

/-- The modifier of arguments applies what they do. -/
theorem argumentModifier_both {related : Query → Query → Prop} {context context' : PlanContext}
    {entity : Entity} {arguments others : List (String × Literal)}
    (h : Both (Carries related) (allArgumentEdits context.bindings entity arguments)
      (allArgumentEdits context'.bindings entity others)) :
    Both (fun filters filters' => Carries related filters.toList filters'.toList)
      (argumentModifier context entity arguments) (argumentModifier context' entity others) := by
  have hmodifier : ∀ (context : PlanContext) (arguments : List (String × Literal)),
      argumentModifier context entity arguments
        = allArgumentEdits context.bindings entity arguments >>= fun edits =>
          pure (if arguments.isEmpty then none else some (.all edits)) := by
    intro context arguments
    cases arguments <;> rfl
  have happlied : ∀ {bindings : Variables} {arguments : List (String × Literal)}
    {edits : List Edit},
      allArgumentEdits bindings entity arguments = .ok edits → ∀ query : Query,
      query.applyAll (if arguments.isEmpty then none else some (Edit.all edits)).toList
        = query.applyAll edits := by
    intro bindings arguments edits hedits query
    cases arguments with
    | nil =>
        cases hedits
        rfl
    | cons first rest =>
        show query.apply (.all edits) = _
        rw [Query.apply]
  rw [hmodifier, hmodifier]
  refine h.bind fun edits edits' hok hok' hcarries => .pure fun query query' hrelated => ?_
  rw [happlied hok, happlied hok']
  exact hcarries query query' hrelated

/-- Nodes that mirror rewritten fields refer to modifiers that act alike on the queries in a
relation, if the arguments do. -/
theorem Mirrors.sameNodes {texts : Prop} {skipsUndefined : Bool} {related : Query → Query → Prop}
    (halike : ∀ {query query'}, related query query' → query.Alike texts query')
    (hself : ∀ query : Query, query.skipsUndefined = skipsUndefined → related query query)
    (hselect : ∀ columns, Carries related [.select columns] [.select columns])
    {context context' : PlanContext} (hregistry : context.registry = context'.registry)
    (hsettings : context.settings = context'.settings)
    (harguments : ∀ id {arguments others}, change arguments others →
      Both (fun filters others => Carries related filters.toList others.toList)
        (argumentModifier context (context.registry.entity id) arguments)
        (argumentModifier context' (context.registry.entity id) others))
    {modifiers modifiers' : ModifierTable} {entity : Entity} {nodes nodes' : List RelationNode}
    (hmirrors : Mirrors context modifiers entity selected nodes)
    (hmirrors' : Mirrors context' modifiers' entity other nodes')
    (h : selected.Rewrites change other) :
    SameNodes (Database.Refers texts skipsUndefined modifiers modifiers') nodes nodes' := by
  induction hmirrors generalizing other nodes' with
  | none =>
      cases h
      cases hmirrors'
      exact .nil
  | plain hname _ ih =>
      cases h with
      | field _ _ hrest =>
          cases hmirrors' with
          | plain _ hrest' => exact ih hrest' hrest
          | relation hname' => exact nomatch hname.symm.trans hname'
  | @relation _ _ _ _ _ _ _ _ relation _ _ _ hname hprojection hfilters happlied _ _ ihBelow ih =>
      cases h with
      | field hchange hchildren hrest =>
          cases hmirrors' with
          | plain hname' => exact nomatch hname.symm.trans hname'
          | relation hname' hprojection' hfilters' happlied' hbelow' hrest' =>
              obtain rfl := Option.some.inj (hname.symm.trans hname')
              rw [← hregistry] at hprojection' hfilters' hbelow'
              rw [projectionModifier_rewrites hsettings _ hchildren] at hprojection
              obtain rfl := Except.ok.inj (hprojection.symm.trans hprojection')
              have hargument := harguments relation.target hchange
              rw [hfilters, hfilters'] at hargument
              cases hargument with
              | ok hcarries =>
                  have hedits := (projectionModifier_carries hselect hprojection').append hcarries
                  refine .cons (fun query hskips => ?_)
                    (ihBelow hbelow' hchildren) (ih hrest' hrest)
                  rw [happlied, happlied']
                  exact .ok (halike (hedits query query (hself query hskips)))

end Plan

/-! ### Shapes -/

namespace Shaped

theorem shapeFields_rewrites (registry : Registry) (h : selected.Rewrites change other)
    (entity : Entity) (row : Row) (output : List (String × Json)) :
    shapeFields registry entity row output selected
      = shapeFields registry entity row output other := by
  induction h generalizing entity row output with
  | none => rfl
  | missing _ _ => rfl
  | field _ _ _ ihBelow ih =>
      rw [shapeFields, shapeFields]
      simp only [ihBelow, ih]

/-- Rewritten fields give values the same shape. -/
theorem ofValue_rewrites (registry : Registry) (entity : Entity)
    {children below : Unit → Selected} (h : (children ()).Rewrites change (below ()))
    (value : Json) :
    ofValue registry entity children value = ofValue registry entity below value := by
  unfold ofValue ofRow
  simp only [shapeFields_rewrites registry h]

end Shaped

end GraphFetch
