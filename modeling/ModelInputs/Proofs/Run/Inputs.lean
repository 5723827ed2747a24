import ModelInputs.Proofs.Run.Growth

/-!
# Inputs from step to step

Where the inputs of a world come from once an entity is created, an input is added or an entity is
renamed, and which entities are registered then.

* **`World.input?_create`**, **`World.input?_addInput`**, **`World.input?_rename`**: an input is one
  that was there, or a new one;
* `World.mem_registered_create`, `World.WellFormed.mem_registered_rename`: what is registered.
-/

namespace ModelInputs

namespace World

variable {w w' : World} {e : EntityId} {id : InputId} {i : Input}

/-! ## New entities -/

/-- An entity and the registry change, but no input does. -/
theorem input?_updateEntity (w : World) (registry : List (String × EntityId)) (e : EntityId)
    {f : Entity → Entity} (hf : ∀ x, (f x).inputs = x.inputs) (id : InputId) :
    (({ w with registry := registry } : World).updateEntity e f).input? id = w.input? id := by
  have hread : (({ w with registry := registry } : World).updateEntity e f).entity? id.entity =
      if e = id.entity then (w.entity? id.entity).map f else w.entity? id.entity :=
    entity?_updateEntity _ e id.entity f
  unfold input?
  rw [hread]
  cases w.entity? id.entity with
  | none =>
    split
    · rfl
    · rfl
  | some x =>
    split
    · rw [Option.map_some, Option.bind_some, Option.bind_some, Entity.input?, Entity.input?, hf]
    · rfl

/-- What is created is the entity, which may be registered then. -/
theorem create?_eq_ok {className name : String} {loose : Bool}
    (h : w.create? className name loose = .ok (w', e)) :
    e = ⟨w.entities.length⟩ ∧
      ((loose = true ∧ w' = { w with entities := w.entities ++ [w.newEntity className name] }) ∨
        w' = ({ w with
          entities := w.entities ++ [w.newEntity className name]
          registry := w.registry ++ [(name, e)] } : World).updateEntity e fun x =>
            { x with inNamespace := true }) := by
  obtain ⟨-, rfl, hloose | ⟨-, hregister⟩⟩ := create?_cases h
  · exact ⟨rfl, .inl hloose⟩
  · obtain ⟨-, rfl⟩ := register?_eq_ok hregister
    have hname : nameOf { w with entities := w.entities ++ [w.newEntity className name] }
        ⟨w.entities.length⟩ = name := by
      rw [nameOf, entity?_append, if_pos rfl]
      rfl
    rw [hname]
    exact ⟨rfl, .inr rfl⟩

theorem input?_append (w : World) (x : Entity) (id : InputId) :
    ({ w with entities := w.entities ++ [x] } : World).input? id =
      if id.entity.index = w.entities.length then x.input? id.keyword else w.input? id := by
  unfold input?
  rw [entity?_append]
  split
  · rfl
  · rfl

/-- **The inputs of the new entity are those that its class declares**, and the others are as they
were. -/
theorem input?_create {className name : String} {loose : Bool}
    (h : w.create? className name loose = .ok (w', e)) (id : InputId) :
    w'.input? id = if id.entity = e then (w.newEntity className name).input? id.keyword
      else w.input? id := by
  have happend : ({ w with entities := w.entities ++ [w.newEntity className name] } : World).input? id =
      if id.entity = e then (w.newEntity className name).input? id.keyword else w.input? id := by
    rw [input?_append, (create?_eq_ok h).1]
    refine if_congr ⟨fun hindex => ?_, fun hentity => ?_⟩ rfl rfl
    · rw [← hindex]
    · rw [hentity]
  obtain ⟨-, ⟨-, rfl⟩ | rfl⟩ := create?_eq_ok h
  · exact happend
  · rw [← happend]
    exact input?_updateEntity { w with entities := w.entities ++ [w.newEntity className name] } _ e
      (f := fun x => { x with inNamespace := true }) (fun _ => rfl) id

/-- An entity that is created is a new one. -/
theorem entity?_eq_none_of_create {className name : String} {loose : Bool}
    (h : w.create? className name loose = .ok (w', e)) : w.entity? e = none := by
  rw [(create?_eq_ok h).1]
  exact List.getElem?_eq_none (Nat.le_refl _)

/-- The entities that were there are found as they were. -/
theorem entity?_create {className name : String} {loose : Bool}
    (h : w.create? className name loose = .ok (w', e)) {y : EntityId} (hy : y ≠ e) :
    w'.entity? y = w.entity? y := by
  have happend : ({ w with entities := w.entities ++ [w.newEntity className name] } : World).entity? y =
      w.entity? y := by
    rw [entity?_append, if_neg]
    rintro hindex
    rw [(create?_eq_ok h).1, ← hindex] at hy
    exact hy rfl
  obtain ⟨-, ⟨-, rfl⟩ | rfl⟩ := create?_eq_ok h
  · exact happend
  · rw [entity?_updateEntity, if_neg (Ne.symm hy)]
    exact happend

theorem classOf_create {className name : String} {loose : Bool}
    (h : w.create? className name loose = .ok (w', e)) : w'.classOf e = className := by
  have happend : ({ w with entities := w.entities ++ [w.newEntity className name] } : World).entity? e =
      some (w.newEntity className name) := by
    rw [entity?_append, (create?_eq_ok h).1, if_pos rfl]
  obtain ⟨-, ⟨-, rfl⟩ | rfl⟩ := create?_eq_ok h
  · rw [classOf, happend]
    rfl
  · have hread : (({ w with
        entities := w.entities ++ [w.newEntity className name]
        registry := w.registry ++ [(name, e)] } : World).updateEntity e fun x =>
          { x with inNamespace := true }).entity? e =
        some { w.newEntity className name with inNamespace := true } := by
      rw [entity?_updateEntity, if_pos rfl]
      exact congrArg (Option.map _) happend
    rw [classOf, hread]
    rfl

theorem mem_registered_create {className name : String} {loose : Bool}
    (h : w.create? className name loose = .ok (w', e)) {y : EntityId} :
    (y ∈ w.registered → y ∈ w'.registered) ∧
      (y ∈ w'.registered → y = e ∨ y ∈ w.registered) := by
  obtain ⟨-, ⟨-, rfl⟩ | rfl⟩ := create?_eq_ok h
  · exact ⟨id, .inr⟩
  · have hregistered : registered (({ w with
        entities := w.entities ++ [w.newEntity className name]
        registry := w.registry ++ [(name, e)] } : World).updateEntity e fun x =>
          { x with inNamespace := true }) = w.registered ++ [e] :=
      List.map_append
    rw [hregistered, List.mem_append, List.mem_singleton]
    exact ⟨.inl, Or.symm⟩

theorem mem_names_create {className name n : String} {loose : Bool}
    (h : w.create? className name loose = .ok (w', e)) (hn : n ∈ w'.registry.map (·.1)) :
    n = name ∨ n ∈ w.registry.map (·.1) := by
  obtain ⟨-, ⟨-, rfl⟩ | rfl⟩ := create?_eq_ok h
  · exact .inr hn
  · have happend : n ∈ (w.registry ++ [(name, e)]).map (·.1) := hn
    rw [List.map_append, List.mem_append, List.map_singleton, List.mem_singleton] at happend
    exact happend.symm

/-! ## New inputs and names -/

/-- **An input is the new one, or was there before.** -/
theorem input?_addInput {i' : Input} (h : w.addInput? e i = .ok w') (hi : w'.input? id = some i') :
    (id.entity = e ∧ i' = i) ∨ w.input? id = some i' := by
  obtain ⟨-, rfl⟩ := addInput?_eq_ok h
  unfold input? at hi
  rw [entity?_updateEntity] at hi
  split at hi
  · next he =>
    obtain ⟨y, hy, hyi⟩ := Option.bind_eq_some_iff.1 hi
    obtain ⟨x, hx, rfl⟩ := Option.map_eq_some_iff.1 hy
    rw [Entity.input?, List.find?_append] at hyi
    obtain hold | ⟨-, hnew⟩ := Option.or_eq_some_iff.1 hyi
    · exact .inr (Option.bind_eq_some_iff.2 ⟨x, hx, hold⟩)
    · exact .inl ⟨he.symm, List.mem_singleton.1 (List.mem_of_find?_eq_some hnew)⟩
  · exact .inr hi

/-- The inputs that were there are found as they were. -/
theorem input?_of_addInput {i' : Input} (h : w.addInput? e i = .ok w')
    (hi : w.input? id = some i') : w'.input? id = some i' := by
  obtain ⟨-, rfl⟩ := addInput?_eq_ok h
  obtain ⟨x, hx, hxi⟩ := Option.bind_eq_some_iff.1 hi
  unfold input?
  rw [entity?_updateEntity, hx]
  split
  · rw [Option.map_some, Option.bind_some, Entity.input?, List.find?_append]
    exact Option.or_eq_some_iff.2 (.inl hxi)
  · exact hxi

theorem registry_addInput (h : w.addInput? e i = .ok w') : w'.registry = w.registry := by
  obtain ⟨-, rfl⟩ := addInput?_eq_ok h
  rfl

theorem mem_names_rename {name n : String} (h : w.rename? e name = .ok w')
    (hn : n ∈ w'.registry.map (·.1)) : n = name ∨ n ∈ w.registry.map (·.1) := by
  rw [(rename?_eq_ok h).2.2] at hn
  have happend : n ∈ (w.withoutName (w.nameOf e) ++ [(name, e)]).map (·.1) := hn
  rw [List.map_append, List.mem_append, List.map_singleton, List.mem_singleton] at happend
  exact happend.symm.imp_right fun hold => (List.filter_sublist.map _).subset hold

/-- **Names are no part of inputs.** -/
theorem input?_rename {name : String} (h : w.rename? e name = .ok w') (id : InputId) :
    w'.input? id = w.input? id := by
  rw [(rename?_eq_ok h).2.2]
  exact input?_updateEntity w _ e (f := fun x => { x with name := name }) (fun _ => rfl) id

theorem WellFormed.mem_registered_rename (hw : w.WellFormed) (he : e ∈ w.registered)
    {name : String} (h : w.rename? e name = .ok w') {y : EntityId} :
    y ∈ w'.registered ↔ y ∈ w.registered := by
  rw [(rename?_eq_ok h).2.2]
  show y ∈ (w.withoutName (w.nameOf e) ++ [(name, e)]).map (·.2) ↔ y ∈ w.registry.map (·.2)
  rw [hw.withoutName_eq he, List.map_append, List.map_singleton, List.mem_append,
    List.mem_singleton]
  constructor
  · rintro (hy | rfl)
    · obtain ⟨entry, hentry, rfl⟩ := List.mem_map.1 hy
      exact List.mem_map_of_mem (List.mem_of_mem_filter hentry)
    · exact he
  · intro hy
    obtain ⟨entry, hentry, rfl⟩ := List.mem_map.1 hy
    by_cases hne : entry.2 = e
    · exact .inr hne
    · exact .inl (List.mem_map_of_mem (List.mem_filter.2 ⟨hentry, bne_iff_ne.2 hne⟩))

end World

end ModelInputs
