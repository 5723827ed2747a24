import ModelInputs.Proofs.Reading.Shown
import ModelInputs.Proofs.Repeating
import ModelInputs.Proofs.Run.Assigning

/-!
# Dead entities in expressions

An entity that has left the registry is dead, and expressions of the living are not to yield it. All
that inputs of living entities hold is living, and so is what their outputs show, if these show
nothing but the entity and what its inputs hold. When an entity dies, no search is made of the
results that are assigned to attributes, of the inputs of dead entities, to which a synonym of a
living one may still lead, and of the entities that expressions of providers belong to. Where the
last two are living, expressions yield living entities exactly if attributes hold living ones.

* `World.GettersShowHeld`, `World.DefaultsNameNone`: what is asked of classes and defaults;
* `World.SynonymsLiving`, `World.ProvidersLiving`, `World.AttributesLiving`: places that are not
  searched when an entity dies;
* **`World.Assigned.closedUnder`**: the living show the living;
* **`World.killed_unreachable_iff`**: expressions of living entities;
* **`World.not_forall_unreachable`**: a synonym that leads to a dead entity.
-/

namespace ModelInputs

open Logged

/-! ## Values of inputs -/

namespace Value

variable {S T : EntityId → Prop} {v : Value}

theorem shownOfItems_eq (vs : List Value) : shownOfItems vs = vs.flatMap shown := by
  induction vs with
  | nil => rfl
  | cons v vs ih => rw [shownOfItems, ih, List.flatMap_cons]

theorem shownOfEntries_eq (entries : List (Value × Value)) :
    shownOfEntries entries = entries.flatMap (·.2.shown) := by
  induction entries with
  | nil => rfl
  | cons entry entries ih => rw [shownOfEntries, ih, List.flatMap_cons]

theorem shown_list_map {α : Type} {f : α → Value} (hf : ∀ x, (f x).shown = []) (xs : List α) :
    (list (xs.map f)).shown = [] := by
  rw [shown, shownOfItems_eq, List.flatMap_map]
  exact List.flatMap_eq_nil_iff.2 fun x _ => hf x

theorem shown_ofEntities (es : List EntityId) : (ofEntities es).shown = es := by
  rw [ofEntities, shown, shownOfItems_eq, List.flatMap_map]
  exact List.flatMap_singleton' es

theorem shown_ofEntityLists (lists : List (List EntityId)) :
    (ofEntityLists lists).shown = lists.flatten := by
  rw [ofEntityLists, shown, shownOfItems_eq, List.flatMap_map, ← List.flatMap_id]
  exact List.flatMap_congr fun es _ => shown_ofEntities es

/-- A key list shows its lists, but not its keys. -/
theorem shown_map_keyEntries (lists : List (EntityId × List EntityId)) :
    (map (keyEntries lists)).shown = lists.flatMap (·.2) := by
  rw [shown, shownOfEntries_eq, keyEntries, List.flatMap_map]
  exact List.flatMap_congr fun entry _ => shown_ofEntities entry.2

theorem LeadsOnlyTo.mono (h : v.LeadsOnlyTo S) (hST : ∀ e, S e → T e) : v.LeadsOnlyTo T :=
  ⟨fun e he => hST e (h.shows e he), fun c hc => hST _ (h.chain c hc),
    fun e he => hST e (h.constant e he), fun exp this type hv =>
      ⟨fun e he => hST e ((h.expression exp this type hv).1 e he),
        (h.expression exp this type hv).2⟩⟩

end Value

/-- A value that was read for an input shows no other entities than it refers to. -/
theorem InputKind.Fits.shown_subset {kind : InputKind} {v : Value} (h : kind.Fits v) :
    v.shown ⊆ v.mentions := by
  cases h with
  | entity | interfaceEntity | relativeEntity | sampleEntity => exact List.Subset.refl _
  | entities | interfaceEntities =>
    rw [Value.shown_ofEntities, Value.mentions_ofEntities]
    exact List.Subset.refl _
  | entityLists =>
    rw [Value.shown_ofEntityLists, Value.mentions_ofEntityLists]
    exact List.Subset.refl _
  | keyLists =>
    rw [Value.shown_map_keyEntries, Value.mentions_map_keyEntries]
    intro e he
    obtain ⟨entry, hentry, he⟩ := List.mem_flatMap.1 he
    exact List.mem_flatMap.2 ⟨entry, hentry, .tail _ he⟩
  | ints | floats | texts | colours | vectors | attributes | customOutputs =>
    rw [Value.shown_list_map fun _ => rfl]
    exact List.nil_subset _
  | _ => exact List.nil_subset _

namespace Input

variable {S : EntityId → Prop} {i : Input} {v : Value}

/-- The value of an input that can be searched can be read. -/
theorem Searchable.current?_eq (hi : i.Searchable) : i.current? = .ok i.stored := by
  unfold current?
  split
  · next hk =>
    have hlist : i.kind.isKeyList = true := by
      rw [hk]
      rfl
    have hfits := hi.fits (.inl hlist)
    rw [hk] at hfits
    rw [stored_of_isKeyList hlist]
    generalize i.value = value at hfits
    cases hfits
    rfl
  · rfl

theorem stored_of_isDefault (hk : i.kind.isKeyList = false) (hd : i.isDefault = true) :
    i.stored = i.default := by
  unfold stored
  split
  · next hkind =>
    rw [hkind] at hk
    cases hk
  · exact if_pos hd

/-- What applies to an input that can be searched is a value of its kind or the default. -/
theorem Searchable.stored_cases (hi : i.Searchable) :
    (i.stored = i.value ∧ i.kind.Fits i.value) ∨ i.stored = i.default := by
  cases hlist : i.kind.isKeyList with
  | true => exact .inl ⟨stored_of_isKeyList hlist, hi.fits (.inl hlist)⟩
  | false =>
    cases hd : i.isDefault with
    | false => exact .inl ⟨stored_of_isSet hd, hi.fits (.inr hd)⟩
    | true => exact .inr (stored_of_isDefault hlist hd)

/-- The value that applies to an input leads to what it refers to, and to the entity that an
expression of a provider belongs to. -/
theorem Plain.leadsOnlyTo (hi : i.Plain) (hdefault : i.default.LeadsOnlyTo S)
    (hmentions : ∀ y ∈ i.stored.mentions, S y)
    (hprovider : ∀ exp this type, i.value = .provider (.expression exp (some this) type) → S this)
    (hv : i.current? = .ok v) : v.LeadsOnlyTo S := by
  rw [hi.searchable.current?_eq] at hv
  cases hv
  obtain ⟨hvalue, hfits⟩ | hvalue := hi.searchable.stored_cases
  · rw [hvalue] at hmentions ⊢
    refine ⟨fun y hy => hmentions y (hfits.shown_subset hy), fun c hc => ?_, fun e he => ?_,
      fun exp this type hexp => ⟨?_, hi.addsNone exp this type hexp⟩⟩
    · rw [hc] at hmentions
      exact hmentions _ (.head _)
    · rw [he] at hmentions
      exact hmentions _ (.head _)
    · rintro e rfl
      exact hprovider exp e type hexp
  · rw [hvalue]
    exact hdefault

end Input

namespace World

variable {w w' : World} {e : EntityId} {name : String}

/-! ## Places of entities -/

/-- An output of the class of a living entity shows no other entities than itself and what its
inputs hold. -/
def GettersShowHeld (w : World) : Prop :=
  ∀ e ∈ w.registered, ∀ name spec x t v, w.outputSpec? e name = some spec → w.entity? e = some x →
    spec.read e x t = .ok v → ∀ y ∈ v.shown,
      y = e ∨ ∃ keyword i, x.input? keyword = some i ∧ y ∈ i.mentions

/-- No default has anything to do with an entity. -/
def DefaultsNameNone (w : World) : Prop :=
  w.InputsAll fun i => i.default.LeadsOnlyTo fun _ => False

/-- Inputs of living entities that are outputs have the values of inputs of living entities. -/
def SynonymsLiving (w : World) : Prop :=
  ∀ e ∈ w.registered, ∀ name id, w.handle? e name = some (.input id) →
    (w.target id).entity ∈ w.registered

/-- The expressions that provide entities to living ones belong to living ones. -/
def ProvidersLiving (w : World) : Prop :=
  ∀ id i exp this type, id.entity ∈ w.registered → w.input? id = some i →
    i.value = .provider (.expression exp (some this) type) → this ∈ w.registered

/-- The results that attributes of living entities have hold living ones only. -/
def AttributesLiving (w : World) : Prop :=
  ∀ e ∈ w.registered, ∀ name a d r, w.handle? e name = some (.attribute a) →
    w.attribute? a = some d → d.value = some r → r.HoldsOnly (· ∈ w.registered)

/-- Expressions of living entities yield living entities only, at any time, also within arrays and
maps. -/
def YieldsLiving (w : World) : Prop :=
  ∀ e ∈ w.registered, ∀ exp everywhere t, exp.root.AddsNone →
    Confined (· ∈ w.registered) (w.evaluate exp (some e) t everywhere)

/-! ## Values of living entities -/

theorem Assigned.mem_registered (hw : w.Assigned) {id : InputId} {i : Input}
    (hid : id.entity ∈ w.registered) (hi : w.input? id = some i) {y : EntityId}
    (hy : y ∈ i.mentions) : y ∈ w.registered := by
  obtain hy | hy := List.mem_append.1 hy
  · exact hw.integral.mem_registered hid hi hy
  · exact ((hw.integral.holds id i hid hi).keyless y hy).1

theorem Assigned.leadsOnlyTo_valueOf (hw : w.Assigned) (hdefaults : w.DefaultsNameNone)
    (hproviders : w.ProvidersLiving) {id : InputId} (hid : (w.target id).entity ∈ w.registered)
    {v : Value} (hv : w.valueOf id = .ok v) : v.LeadsOnlyTo (· ∈ w.registered) := by
  unfold valueOf at hv
  split at hv
  · next i hi =>
    refine (hw.plainInputs _ i hi).leadsOnlyTo ((hdefaults _ i hi).mono nofun) ?_ ?_ hv
    · exact fun y hy => hw.mem_registered hid hi (List.mem_append_left _ hy)
    · exact fun exp this type hvalue => hproviders _ i exp this type hid hi hvalue
  · cases hv
    exact ⟨nofun, nofun, nofun, nofun⟩

/-- **The living show the living.** -/
theorem Assigned.closedUnder (hw : w.Assigned) (hgetters : w.GettersShowHeld)
    (hdefaults : w.DefaultsNameNone) (hsynonyms : w.SynonymsLiving)
    (hproviders : w.ProvidersLiving) (hattributes : w.AttributesLiving) :
    w.ClosedUnder (· ∈ w.registered) where
  named name e he := World.mem_registered.2 ⟨name, mem_of_lookup_eq_some he⟩
  outputs e name t v he hv y hy := by
    unfold outputValue at hv
    split at hv
    · next spec x hspec hx =>
      obtain rfl | ⟨keyword, i, hi, hy⟩ := hgetters e he name spec x t v hspec hx hv y hy
      · exact he
      · have hinput : w.input? ⟨e, keyword⟩ = some i := by
          rw [input?, hx]
          exact hi
        exact hw.mem_registered he hinput hy
    · cases hv
  attributes e name a d he hh hd := by
    refine ⟨fun r hr => hattributes e he name a d r hh hd hr, fun exp hexp => ?_⟩
    obtain ⟨x, hx, hmem⟩ := mem_attributes_of_handle? hh
    obtain ⟨d', hd', rfl, hadds⟩ := (hw.ownDefinitions e x hx).attributes _ hmem
    cases hd'.symm.trans hd
    exact ⟨he, hadds exp hexp⟩
  customOutputs e name o he hh := by
    obtain ⟨x, hx, hmem⟩ := mem_customOutputs_of_handle? hh
    obtain ⟨rfl, hadds⟩ := (hw.ownDefinitions e x hx).customOutputs _ hmem
    exact ⟨he, hadds⟩
  inputs e name id v he hh hv :=
    hw.leadsOnlyTo_valueOf hdefaults hproviders (hsynonyms e he name id hh) hv

/-! ## Expressions of living entities -/

/-- An output of the entity itself. -/
def ownOutput (name : String) : Expression :=
  ⟨"this." ++ name, .output (.entity none 0) name 5⟩

/-- An attribute that has a result yields it. -/
theorem evaluate_ownOutput {a : AttributeId} {d : Attribute} {r : Result}
    (hh : w.handle? e name = some (.attribute a)) (hd : w.attribute? a = some d)
    (hr : d.value = some r) (everywhere : Bool) (t : Float) :
    w.evaluate (ownOutput name) (some e) t everywhere = .ok r := by
  rw [evaluate, evaluateWith_eq_ok]
  refine bind_eq_ok.2 ⟨.entity (some e), rfl, Expr.evalOutput_eq_ok.2 ?_⟩
  refine Option.map_eq_some_iff.2 ⟨_, hh, ?_⟩
  show w.resultWith _ t (.attribute a) = .ok r
  rw [resultWith, hd]
  show w.attributeResult _ d t = .ok r
  rw [attributeResult, hr]

/-- **Expressions of living entities yield living entities exactly if attributes hold such.** -/
theorem Assigned.yieldsLiving_iff (hw : w.Assigned) (hgetters : w.GettersShowHeld)
    (hdefaults : w.DefaultsNameNone) (hsynonyms : w.SynonymsLiving)
    (hproviders : w.ProvidersLiving) : w.YieldsLiving ↔ w.AttributesLiving := by
  constructor
  · intro h e he name a d r hh hd hr
    exact h e he (ownOutput name) false 0.0 (Expr.addsNone_of_mentions rfl) r
      (evaluate_ownOutput hh hd hr false 0.0)
  · intro hattributes e he exp everywhere t hexp
    have hclosed := hw.closedUnder hgetters hdefaults hsynonyms hproviders hattributes
    exact hclosed.confined_evaluate hexp he everywhere t

/-- **A killed entity is unreachable from expressions** of the entities that stay, whatever is done
to the model then, as long as neither the results that are assigned to their attributes hold dead
entities, nor their synonyms stand for inputs of dead ones, nor the expressions of their providers
belong to dead ones. Given the last two, this is so exactly if attributes hold living ones. -/
theorem killed_unreachable_iff {p : Palette} (hp : p.IsPlain) (hg : p.HasGroups) {w₀ : World}
    (hw₀ : AssignedReached p w₀) (he : e ∈ w₀.registered)
    (hrun : Relation.ReflTransGen AssigningStep (w₀.kill e).world w)
    (hgetters : w.GettersShowHeld) (hdefaults : w.DefaultsNameNone)
    (hsynonyms : w.SynonymsLiving) (hproviders : w.ProvidersLiving) :
    e ∉ w.registered ∧ (w.YieldsLiving ↔ w.AttributesLiving) ∧
      (w.AttributesLiving → ∀ source fold exp, Expression.parse? source fold = .ok exp →
        ∀ y ∈ w.registered, ∀ everywhere t r,
          w.evaluate exp (some y) t everywhere = .ok r → e ∉ r.entities) := by
  have hassigned₀ := hw₀.assigned hp hg
  have hkilled : (w₀.kill e).world.Assigned :=
    (AssigningStep.step (.kill he)).assigned hassigned₀
  obtain ⟨hassigned, -, hdead⟩ :=
    hkilled.of_run hrun (isOut_kill hassigned₀.integral.wellFormed he)
  have hiff := hassigned.yieldsLiving_iff hgetters hdefaults hsynonyms hproviders
  refine ⟨hdead, hiff, fun hattributes source fold exp hparse y hy everywhere t r hr hmem => ?_⟩
  exact hdead (hiff.2 hattributes y hy exp everywhere t (Expression.addsNone_of_parse? hparse) r hr
    e hmem)

/-! ## Worlds whose inputs all have values of their own -/

/-- Where no input is a synonym, inputs have their own values. -/
theorem synonymsLiving_of_direct (h : w.InputsAll fun i => i.kind.target? = none) :
    w.SynonymsLiving := by
  intro e he name id hh
  obtain ⟨x, -, ⟨_, ha, -⟩ | ⟨_, ho, -⟩ | houtput | hinput⟩ := handle?_cases hh
  · cases ha
  · cases ho
  · cases houtput
  · cases hinput
    have htarget : (w.input? ⟨e, name⟩).bind (·.kind.target?) = none := by
      cases hi : w.input? ⟨e, name⟩ with
      | none => rfl
      | some i => exact h _ i hi
    have heq : w.target ⟨e, name⟩ = ⟨e, name⟩ := targetWithin_eq_self _ htarget
    rw [heq]
    exact he

theorem defaultsNameNone_of_map {values : List Value}
    (hvalues : (w.entities.flatMap (·.inputs)).map (·.default) = values)
    (h : ∀ v ∈ values, v = .none ∨ v = .list []) : w.DefaultsNameNone := by
  refine inputsAll_of_map hvalues fun v hv => ?_
  obtain rfl | rfl := h v hv
  · exact ⟨nofun, nofun, nofun, nofun⟩
  · exact ⟨nofun, nofun, nofun, nofun⟩

/-! ## Nodes -/

/-- A palette of groups and of nodes, which have a next one and attributes. -/
def wiring : Palette where
  classes := [Palette.groupClass, {
    name := "Node"
    parents := ["Entity"]
    inputs := [
      .make "Next" "Options" (.entity (.named "Entity")),
      .make "AttributeDefinitionList" "Options" .attributes (.list [])]
    outputs := [{
      name := "Following"
      type := .named "Entity"
      read := fun _ x _ => Palette.storedInput x "Next" }] }]

theorem wiring_isPlain : wiring.IsPlain := by
  refine .of_classes fun c hc => ?_
  obtain rfl | hc := List.mem_cons.1 hc
  · refine ⟨by decide, fun i hi => ?_⟩
    rw [List.mem_singleton.1 hi]
    exact ⟨rfl, rfl, rfl⟩
  · rw [List.mem_singleton.1 hc]
    refine ⟨by decide, fun i hi => ?_⟩
    obtain rfl | hi := List.mem_cons.1 hi
    · exact Input.isNew_make _ _ rfl rfl
    · rw [List.mem_singleton.1 hi]
      exact Input.isNew_make _ _ rfl rfl

theorem wiring_hasGroups : wiring.HasGroups := by
  refine .of_classes rfl fun c hc hsub => ?_
  obtain rfl | hc := List.mem_cons.1 hc
  · exact ⟨_, .head _, rfl, _, _, _, rfl, rfl⟩
  · rw [List.mem_singleton.1 hc] at hsub
    cases hsub

/-- A new node. -/
def wiredNode (name : String) : Entity where
  name := name
  className := "Node"
  inNamespace := true
  inputs := wiring.inputs "Node"

/-- A node. -/
def firstNode : World where
  palette := wiring
  entities := [wiredNode "A"]
  registry := [("A", ⟨0⟩)]

/-- Two nodes. -/
def bothNodes : World where
  palette := wiring
  entities := [wiredNode "A", wiredNode "B"]
  registry := [("A", ⟨0⟩), ("B", ⟨1⟩)]

theorem bothNodes_reached : Reached wiring bothNodes := by
  have hfirst : create? { palette := wiring } "Node" "A" = .ok (firstNode, ⟨0⟩) := rfl
  have hsecond : firstNode.create? "Node" "B" = .ok (bothNodes, ⟨1⟩) := rfl
  exact ⟨{}, false, .tail (.tail .refl (.create hfirst)) (.create hsecond)⟩

theorem outputs_wiredNode : wiring.outputs "Node" = [{
    name := "Following"
    type := .named "Entity"
    read := fun _ x _ => Palette.storedInput x "Next" }] := by
  rw [show wiring.outputs "Node" = Palette.outputsOf [{
    name := "Node"
    parents := ["Entity"]
    inputs := [
      .make "Next" "Options" (.entity (.named "Entity")),
      .make "AttributeDefinitionList" "Options" .attributes (.list [])]
    outputs := [{
      name := "Following"
      type := .named "Entity"
      read := fun _ x _ => Palette.storedInput x "Next" }] }] from rfl]
  simp [Palette.outputsOf]

/-- The only output of the class of a node is the next node. -/
theorem outputSpec?_wiredNode (hp : w.palette = wiring) (hc : w.classOf e = "Node")
    {spec : OutputSpec} (h : w.outputSpec? e name = some spec) :
    name = "Following" ∧ spec.read = fun _ x _ => Palette.storedInput x "Next" := by
  rw [outputSpec?, Palette.output?, hp, hc, outputs_wiredNode] at h
  have hname := List.find?_some h
  rw [List.mem_singleton.1 (List.mem_of_find?_eq_some h)] at hname ⊢
  exact ⟨(beq_iff_eq.1 hname).symm, rfl⟩

/-- The only node that is left has no next one. -/
theorem gettersShowHeld_of_unset (hp : w.palette = wiring) (hregistered : w.registered = [⟨0⟩])
    (hc : w.classOf ⟨0⟩ = "Node")
    (hnext : (w.entity? ⟨0⟩).map (Palette.storedInput · "Next") = some (.ok .none)) :
    w.GettersShowHeld := by
  intro e he name spec x t v hspec hx hv
  rw [hregistered, List.mem_singleton] at he
  subst he
  rw [hx] at hnext
  rw [(outputSpec?_wiredNode hp hc hspec).2] at hv
  cases hv.symm.trans (Option.some.inj hnext)
  exact nofun

/-- The entity that an expression belongs to. -/
def ownSelf : Expression :=
  ⟨"this", .entity none 0⟩

/-- The definition of an attribute. -/
def lastArguments : Arguments where
  keyword := "AttributeDefinitionList"
  args := ["Last", "this"]
  balanced := by decide

/-- The attribute. -/
def lastDefinition : Attribute where
  entity := ⟨0⟩
  name := "Last"
  expression := some ownSelf

set_option maxRecDepth 20000 in
theorem parse?_ownSelf : Expression.parse? "this" true = .ok ownSelf := by
  cbv

theorem readAttributes_last :
    (bothNodes.readAttributes ⟨0⟩ lastArguments).Gives [lastDefinition] := by
  have hname : bothNodes.checkAttributeName ⟨0⟩ "Last" [] = .ok () := by
    have hspec : bothNodes.outputSpec? ⟨0⟩ "Last" = none := by
      refine Option.eq_none_iff_forall_ne_some.2 fun spec h => ?_
      exact absurd (outputSpec?_wiredNode rfl rfl h).1 (by decide)
    have hdeclared : bothNodes.isDeclaredOutput ⟨0⟩ "Last" = false := by
      rw [isDeclaredOutput, hspec]
      rfl
    rw [checkAttributeName, checkNewName, hasOutput, hdeclared]
    rfl
  have hread : (bothNodes.readAttribute ⟨0⟩ [] lastArguments).Gives lastDefinition := by
    refine readAttribute_gives.2 ⟨rfl, hname, _, rfl, ?_⟩
    rw [readDefinition_expression rfl rfl rfl, gives_ofExcept, expressionAttribute_eq_ok]
    exact ⟨ownSelf, none, parse?_ownSelf, rfl, rfl⟩
  refine gives_ofInput_bind.2 ⟨[lastArguments], rfl, ?_⟩
  refine (Steady.gives_bind fun _ => steady_pure _).2 ⟨lastDefinition, ?_, gives_pure.2 rfl⟩
  exact Steady.gives_adapt.2 hread

/-- The first node has the attribute. -/
def definedPair : World :=
  bothNodes.applied ⟨0⟩ lastArguments (.attributes ⟨0⟩ [lastDefinition])

theorem definedPair_reached : Reached wiring definedPair := by
  have hgives : (bothNodes.applyArguments ⟨0⟩ lastArguments).Gives
      (definedPair, ⟨⟨0⟩, "AttributeDefinitionList"⟩) := by
    obtain ⟨i, hi, hk⟩ : ∃ i, bothNodes.input? ⟨⟨0⟩, "AttributeDefinitionList"⟩ = some i ∧
        i.kind = .attributes := ⟨_, rfl, rfl⟩
    refine (applyArguments_gives_iff rfl (i := i) hi).2
      ⟨rfl, .attributes ⟨0⟩ [lastDefinition], ?_, rfl⟩
    exact (gives_readKind_attributes hk).2 ⟨_, readAttributes_last, rfl⟩
  have hdefine : Step bothNodes definedPair := applyItems_of_gives _ _ hgives ▸ .apply
  obtain ⟨settings, recordsEdits, h⟩ := bothNodes_reached
  exact ⟨settings, recordsEdits, h.tail hdefine⟩

/-- The attribute holds the node itself, in an array. -/
def assignedPair : World :=
  definedPair.updateAttribute ⟨0⟩ (Attribute.assign (.array [.entity (some ⟨0⟩)]))

theorem isBalanced_nameB : Record.isBalanced ["B"] = true := by decide

/-- The second node is the next one of the first. -/
def wiredPair : World :=
  (assignedPair.applyItems ⟨0⟩ [] []
    [{ keyword := "Next", args := ["B"], balanced := isBalanced_nameB }]).world

theorem wiredPair_reached : AssignedReached wiring wiredPair := by
  obtain ⟨settings, recordsEdits, h⟩ := definedPair_reached.assignedReached
  have hassign : definedPair.setAttribute? ⟨0⟩ "Last" (.array [.entity (some ⟨0⟩)]) =
      .ok assignedPair := rfl
  exact ⟨settings, recordsEdits, .tail (.tail h (.setAttribute hassign)) (.step .apply)⟩

/-- The first node, once the second one is dead. -/
def remainingNode : World :=
  (wiredPair.kill ⟨1⟩).world

/-- The next node of the first one is no longer there, and its attribute holds the node itself. -/
theorem killed_unreachable_wiredPair :
    AssignedReached wiring wiredPair ∧ ⟨1⟩ ∈ wiredPair.registered ∧
      wiredPair.valueOf ⟨⟨0⟩, "Next"⟩ = .ok (.entity ⟨1⟩) ∧ remainingNode.GettersShowHeld ∧
      remainingNode.DefaultsNameNone ∧ remainingNode.SynonymsLiving ∧
      remainingNode.ProvidersLiving ∧ ⟨1⟩ ∉ remainingNode.registered ∧
      remainingNode.YieldsLiving ∧
      ∀ t, remainingNode.evaluate (ownOutput "Last") (some ⟨0⟩) t =
        .ok (.array [.entity (some ⟨0⟩)]) := by
  have hmem : (⟨1⟩ : EntityId) ∈ wiredPair.registered := .tail _ (.head _)
  have hregistered : remainingNode.registered = [⟨0⟩] := rfl
  have hgetters : remainingNode.GettersShowHeld := gettersShowHeld_of_unset rfl rfl rfl rfl
  have hdeclared : (remainingNode.entities.flatMap (·.inputs)).map (·.default) =
      [.none, .list [], .none, .list []] := rfl
  have hdefaults : remainingNode.DefaultsNameNone := defaultsNameNone_of_map hdeclared (by simp)
  have hkinds : (remainingNode.entities.flatMap (·.inputs)).map (·.kind.target?) =
      [none, none, none, none] := rfl
  have hsynonyms : remainingNode.SynonymsLiving :=
    synonymsLiving_of_direct (inputsAll_of_map (P := (· = none)) hkinds (by simp))
  have hvalues : (remainingNode.entities.flatMap (·.inputs)).map (·.value) =
      [.none, .list [.handle (.attribute ⟨0⟩)], .none, .none] := rfl
  have hproviders : remainingNode.ProvidersLiving := by
    intro id i exp this type _ hi hvalue
    refine absurd hvalue (inputsAll_of_map (P := (· ≠ _)) hvalues ?_ id i hi)
    simp
  obtain ⟨hdead, hiff, -⟩ := killed_unreachable_iff (w := remainingNode) wiring_isPlain
    wiring_hasGroups wiredPair_reached hmem .refl hgetters hdefaults hsynonyms hproviders
  have hlast : remainingNode.handle? ⟨0⟩ "Last" = some (.attribute ⟨0⟩) := rfl
  refine ⟨wiredPair_reached, hmem, rfl, hgetters, hdefaults, hsynonyms, hproviders, hdead,
    hiff.2 ?_, evaluate_ownOutput hlast rfl rfl false⟩
  intro e he name a d r hh hd hr
  rw [hregistered, List.mem_singleton] at he
  subst he
  obtain ⟨x, hx, ha⟩ := mem_attributes_of_handle? hh
  cases hx
  cases List.mem_singleton.1 ha
  cases hd
  cases hr
  intro y hy
  rw [List.mem_singleton.1 hy, hregistered]
  exact .head _

/-! ## Synonyms -/

/-- Three nodes. -/
def threeNodes : World where
  palette := wiring
  entities := [wiredNode "A", wiredNode "B", wiredNode "E"]
  registry := [("A", ⟨0⟩), ("B", ⟨1⟩), ("E", ⟨2⟩)]

/-- An output of the first node that stands for the next one of the second node. -/
def nextOfSecond : Input :=
  { Input.make "Syn" "Options" (.synonym ⟨⟨1⟩, "Next"⟩) with isOutput := true }

/-- The first node has that output. -/
def synonymNodes : World :=
  threeNodes.updateEntity ⟨0⟩ fun x => { x with inputs := x.inputs ++ [nextOfSecond] }

/-- The third node is the next one of the second. -/
def chainedNodes : World :=
  (synonymNodes.applyItems ⟨1⟩ [] []
    [{ keyword := "Next", args := ["E"], balanced := by decide }]).world

/-- The second node is dead. -/
def halfDead : World :=
  (chainedNodes.kill ⟨1⟩).world

theorem halfDead_reached : AssignedReached wiring halfDead := by
  have hcreate : bothNodes.create? "Node" "E" = .ok (threeNodes, ⟨2⟩) := rfl
  have hadd : threeNodes.addInput? ⟨0⟩ nextOfSecond = .ok synonymNodes := rfl
  have hnew : nextOfSecond.IsNew := ⟨rfl, rfl, rfl⟩
  have hmem : (⟨1⟩ : EntityId) ∈ chainedNodes.registered := .tail _ (.head _)
  obtain ⟨settings, recordsEdits, h⟩ := bothNodes_reached
  have hreached : Reached wiring halfDead :=
    ⟨settings, recordsEdits,
      .tail (.tail (.tail (.tail h (.create hcreate)) (.addInput hnew hadd)) .apply) (.kill hmem)⟩
  exact hreached.assignedReached

/-- The output of the first node. -/
def ownSynonym : Expression :=
  ⟨"this.Syn", .output (.entity none 0) "Syn" 5⟩

set_option maxRecDepth 20000 in
theorem parse?_ownSynonym : Expression.parse? "this.Syn" true = .ok ownSynonym := by
  cbv

theorem evaluate_ownSynonym (t : Float) :
    (halfDead.kill ⟨2⟩).world.evaluate ownSynonym (some ⟨0⟩) t = .ok (.entity (some ⟨2⟩)) := by
  have hhandle : (halfDead.kill ⟨2⟩).world.handle? ⟨0⟩ "Syn" =
      some (.input ⟨⟨0⟩, "Syn"⟩) := by
    have hspec : (halfDead.kill ⟨2⟩).world.outputSpec? ⟨0⟩ "Syn" = none := by
      refine Option.eq_none_iff_forall_ne_some.2 fun spec h => ?_
      exact absurd (outputSpec?_wiredNode rfl rfl h).1 (by decide)
    rw [handle?, hspec]
    rfl
  rw [evaluate, evaluateWith_eq_ok]
  refine bind_eq_ok.2 ⟨.entity (some ⟨0⟩), rfl, Expr.evalOutput_eq_ok.2 ?_⟩
  refine Option.map_eq_some_iff.2 ⟨_, hhandle, ?_⟩
  rfl

/-- A killed entity may still be reached: a dead entity keeps its inputs when another one dies, and
a synonym that is an output of a living one leads there. -/
theorem not_forall_unreachable :
    ¬ ∀ (p : Palette) (w₀ : World) (e : EntityId), p.IsPlain → p.HasGroups →
      AssignedReached p w₀ → e ∈ w₀.registered → (w₀.kill e).world.GettersShowHeld →
      (w₀.kill e).world.DefaultsNameNone → ∀ source fold exp,
        Expression.parse? source fold = .ok exp → ∀ y ∈ (w₀.kill e).world.registered, ∀ t r,
          (w₀.kill e).world.evaluate exp (some y) t = .ok r → e ∉ r.entities := by
  intro h
  have hmem : (⟨2⟩ : EntityId) ∈ halfDead.registered := .tail _ (.head _)
  have hdeclared : ((halfDead.kill ⟨2⟩).world.entities.flatMap (·.inputs)).map (·.default) =
      [.none, .list [], .none, .none, .list [], .none, .list []] := rfl
  refine h wiring halfDead ⟨2⟩ wiring_isPlain wiring_hasGroups halfDead_reached hmem
    (gettersShowHeld_of_unset rfl rfl rfl rfl) (defaultsNameNone_of_map hdeclared (by simp)) _ _ _
    parse?_ownSynonym ⟨0⟩ (.head _) 0.0 _ (evaluate_ownSynonym 0.0) (.head _)

end World

end ModelInputs
