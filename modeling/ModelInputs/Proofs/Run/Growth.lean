import ModelInputs.Proofs.Runs

/-!
# What stays for good

Whatever is done to a model, its classes stay as they are, and entities that exist keep their class;
entities are only added. So an output of a class is declared in the same way at any later time.

* `World.Grows`: entities are at most added, with `World.Grows.refl`, `World.Grows.trans`;
* `World.Grows.of_changesOnly`, `World.Grows.updateEntity`: confined changes;
* **`World.Step.grows`**, **`World.grows_of_run`**: one step, and a whole run;
* `World.Grows.isInstance_eq`, `World.Grows.outputSpec?_eq`: what an entity is, and what is declared
  of its outputs, stays.
-/

namespace ModelInputs

namespace World

/-- Entities are at most added, and those that exist keep their class. -/
structure Grows (w w' : World) : Prop where
  palette_eq : w'.palette = w.palette
  className_eq : ∀ e x, w.entity? e = some x →
    ∃ x', w'.entity? e = some x' ∧ x'.className = x.className

variable {w w' w'' : World} {e : EntityId}

namespace Grows

theorem refl (w : World) : w.Grows w :=
  ⟨rfl, fun _ x hx => ⟨x, hx, rfl⟩⟩

theorem trans (h : w.Grows w') (h' : w'.Grows w'') : w.Grows w'' where
  palette_eq := h'.palette_eq.trans h.palette_eq
  className_eq e x hx := by
    obtain ⟨x', hx', heq⟩ := h.className_eq e x hx
    obtain ⟨x'', hx'', heq'⟩ := h'.className_eq e x' hx'
    exact ⟨x'', hx'', heq'.trans heq⟩

theorem of_changesOnly {inputs : InputId → Prop} {attributesOf outputsOf : EntityId → Prop}
    (h : w.ChangesOnly inputs attributesOf outputsOf w') : w.Grows w' where
  palette_eq := h.palette_eq
  className_eq e x hx := by
    obtain ⟨x', hx', hxx'⟩ := h.entity e x hx
    exact ⟨x', hx', hxx'.className_eq⟩

/-- An entity changes, but not its class; the registry may change too. -/
theorem updateEntity (w : World) (registry : List (String × EntityId)) (e : EntityId)
    {f : Entity → Entity} (hf : ∀ x, (f x).className = x.className) :
    w.Grows (({ w with registry := registry } : World).updateEntity e f) where
  palette_eq := rfl
  className_eq y x hx := by
    have hread := entity?_updateEntity { w with registry := registry } e y f
    have hx' : ({ w with registry := registry } : World).entity? y = some x := hx
    rw [hx'] at hread
    split at hread
    · exact ⟨f x, hread, hf x⟩
    · exact ⟨x, hread, rfl⟩

theorem append (w : World) (x : Entity) :
    w.Grows { w with entities := w.entities ++ [x] } where
  palette_eq := rfl
  className_eq y z hz := by
    refine ⟨z, ?_, rfl⟩
    rw [entity?_append, if_neg]
    · exact hz
    · exact Nat.ne_of_lt (List.getElem?_eq_some_iff.1 hz).1

/-! ## Steps -/

theorem create {className name : String} {loose : Bool}
    (h : w.create? className name loose = .ok (w', e)) : w.Grows w' := by
  have happend := append w (w.newEntity className name)
  obtain ⟨-, -, ⟨-, rfl⟩ | ⟨-, hregister⟩⟩ := create?_cases h
  · exact happend
  · obtain ⟨-, rfl⟩ := register?_eq_ok hregister
    exact happend.trans (updateEntity _ _ _ fun _ => rfl)

theorem addInput {i : Input} (h : w.addInput? e i = .ok w') : w.Grows w' := by
  obtain ⟨-, rfl⟩ := addInput?_eq_ok h
  exact updateEntity w w.registry e fun _ => rfl

theorem kill (w : World) (e : EntityId) : w.Grows (w.kill e).world :=
  kill_induction (fun _ => ⟨rfl, fun _ x hx => ⟨x, hx, rfl⟩⟩) fun w' id _ _ _ _ _ h =>
    h.trans (updateEntity w' w'.registry id.entity fun _ => rfl)

theorem rename {name : String} (h : w.rename? e name = .ok w') : w.Grows w' := by
  obtain ⟨-, -, rfl⟩ := rename?_eq_ok h
  exact updateEntity w _ e fun _ => rfl

end Grows

/-- **Every step leaves what exists.** -/
theorem Step.grows (h : Step w w') : w.Grows w' := by
  cases h with
  | create h => exact .create h
  | addInput _ h => exact .addInput h
  | apply => exact .of_changesOnly (applyItems_keywordsChange w _ _ _ _)
  | kill => exact .kill w _
  | rename _ h => exact .rename h

/-- **Every run leaves what exists.** -/
theorem grows_of_run (h : Relation.ReflTransGen Step w w') : w.Grows w' := by
  induction h with
  | refl => exact .refl w
  | tail _ hstep ih => exact ih.trans hstep.grows

/-! ## Classes -/

theorem Grows.classOf_eq (h : w.Grows w') {x : Entity} (hx : w.entity? e = some x) :
    w'.classOf e = w.classOf e := by
  obtain ⟨x', hx', heq⟩ := h.className_eq e x hx
  rw [classOf, classOf, hx, hx', Option.map_some, Option.map_some, heq]

theorem Grows.isInstance_eq (h : w.Grows w') {x : Entity} (hx : w.entity? e = some x)
    (type : TypeRef) : w'.isInstance e type = w.isInstance e type := by
  rw [isInstance, isInstance, h.palette_eq, h.classOf_eq hx]

theorem Grows.outputSpec?_eq (h : w.Grows w') {x : Entity} (hx : w.entity? e = some x)
    (name : String) : w'.outputSpec? e name = w.outputSpec? e name := by
  rw [outputSpec?, outputSpec?, h.palette_eq, h.classOf_eq hx]

end World

end ModelInputs
