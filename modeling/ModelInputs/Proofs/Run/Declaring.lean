import ModelInputs.Proofs.Relative.Loosening
import ModelInputs.Proofs.Run.Tables

/-!
# What stays declared

Whatever is done to a model, entities and inputs are only added. An input that exists is found under
its keyword for good, with its kind and its default; so a keyword that leads to an input that is no
synonym leads there at any later time.

* `World.StaysDeclared`: the entities and inputs of a world are still there in another one;
* **`World.FreeStep.staysDeclared`**, **`World.staysDeclared_of_run`**: every step, and every run,
  leaves them;
* **`World.StaysDeclared.receives`**: where keywords lead;
* `World.FreeStep.exists_create`: an entity that a step adds is one that is created.
-/

namespace ModelInputs

namespace World

variable {w w' w'' : World} {e : EntityId}

/-- Entities and inputs are at most added, and those that exist stay declared as they are. -/
structure StaysDeclared (w w' : World) : Prop extends w.Grows w' where
  input : ∀ id i, w.input? id = some i → ∃ i', w'.input? id = some i' ∧ i.SameDeclaration i'

namespace StaysDeclared

theorem of_input?_eq (hgrows : w.Grows w') (h : ∀ id, w'.input? id = w.input? id) :
    w.StaysDeclared w' where
  toGrows := hgrows
  input id i hi := ⟨i, (h id).trans hi, rfl⟩

theorem refl (w : World) : w.StaysDeclared w :=
  of_input?_eq (.refl w) fun _ => rfl

theorem trans (h : w.StaysDeclared w') (h' : w'.StaysDeclared w'') : w.StaysDeclared w'' where
  toGrows := h.toGrows.trans h'.toGrows
  input id i hi := by
    obtain ⟨i', hi', hsame⟩ := h.input id i hi
    obtain ⟨i'', hi'', hsame'⟩ := h'.input id i' hi'
    exact ⟨i'', hi'', hsame'.trans hsame⟩

theorem of_changesOnly {inputs : InputId → Prop} {attributesOf outputsOf : EntityId → Prop}
    (h : w.ChangesOnly inputs attributesOf outputsOf w') : w.StaysDeclared w' where
  toGrows := .of_changesOnly h
  input id i hi := by
    have hreset := h.input?_declaration id
    rw [hi, Option.map_some] at hreset
    exact Option.map_eq_some_iff.1 hreset

/-- An entity changes, but neither its class nor its inputs; the registry may change too. -/
theorem updateEntity (w : World) (registry : List (String × EntityId)) (e : EntityId)
    {f : Entity → Entity} (hclass : ∀ x, (f x).className = x.className)
    (hinputs : ∀ x, (f x).inputs = x.inputs) :
    w.StaysDeclared (({ w with registry := registry } : World).updateEntity e f) :=
  of_input?_eq (.updateEntity w registry e hclass) (input?_updateEntity w registry e hinputs)

/-- The entities are as they were. -/
theorem of_entities_eq (hpalette : w'.palette = w.palette) (hentities : w'.entities = w.entities) :
    w.StaysDeclared w' := by
  have hentity (y : EntityId) : w'.entity? y = w.entity? y := by rw [entity?, entity?, hentities]
  refine of_input?_eq ⟨hpalette, fun y x hx => ⟨x, (hentity y).trans hx, rfl⟩⟩ fun id => ?_
  rw [input?, input?, hentity]

/-- An input is put in the place of one that is declared as it is. -/
theorem setInput {id : InputId} {i i' : Input} (hi : w.input? id = some i)
    (h : i.SameDeclaration i') : w.StaysDeclared (w.updateInput id fun _ => i') where
  toGrows := .updateEntity w w.registry id.entity fun _ => rfl
  input id' j hj := by
    rw [input?_setInput w (h.keyword_eq.trans (input?_keyword hi))]
    split
    · next hid =>
      subst hid
      cases hi.symm.trans hj
      exact ⟨i', by rw [hi, Option.map_some], h⟩
    · exact ⟨j, hj, rfl⟩

/-! ## Steps -/

theorem create {className name : String} {loose : Bool}
    (h : w.create? className name loose = .ok (w', e)) : w.StaysDeclared w' where
  toGrows := .create h
  input id i hi := by
    refine ⟨i, ?_, rfl⟩
    have hne : id.entity ≠ e := by
      rintro rfl
      rw [input?, entity?_eq_none_of_create h] at hi
      cases hi
    rw [input?_create h, if_neg hne, hi]

theorem addInput {i : Input} (h : w.addInput? e i = .ok w') : w.StaysDeclared w' where
  toGrows := .addInput h
  input _ j hj := ⟨j, input?_of_addInput h hj, rfl⟩

theorem unregister (w : World) (e : EntityId) : w.StaysDeclared (w.unregister e) := by
  unfold World.unregister
  split
  · exact of_entities_eq rfl rfl
  · exact .refl w

theorem kill (w : World) (e : EntityId) : w.StaysDeclared (w.kill e).world :=
  kill_induction (fun _ => of_entities_eq rfl rfl) fun _ _ _ _ _ hi hremove h =>
    h.trans (setInput hi (Input.removeReferences_loosens hremove).declaration)

theorem perform (w : World) (op : RegistryOp) : w.StaysDeclared (w.perform op).world := by
  refine perform_induction (.refl w) (fun _ _ _ _ _ h => .create h) (fun y w' h => ?_)
    (.unregister w) (.kill w) (fun y _ w' h => ?_) op
  · obtain ⟨-, rfl⟩ := register?_eq_ok h
    exact .updateEntity w _ y (fun _ => rfl) fun _ => rfl
  · obtain ⟨-, -, rfl⟩ := rename?_eq_ok h
    exact .updateEntity w _ y (fun _ => rfl) fun _ => rfl

end StaysDeclared

/-- **Every step leaves what is declared.** -/
theorem FreeStep.staysDeclared (h : FreeStep w w') : w.StaysDeclared w' := by
  cases h with
  | perform => exact .perform w _
  | addInput h => exact .addInput h
  | apply => exact .of_changesOnly (applyItems_keywordsChange w _ _ _ _)
  | @reset id =>
    have hchanges : w.ChangesOnly (· = id) (fun _ => False) (fun _ => False)
        (w.updateInput id Input.reset) := updateInput_changesOnly rfl fun _ => rfl
    exact .of_changesOnly hchanges
  | setAttribute h =>
    unfold setAttribute? at h
    split at h
    · cases h
      exact .of_entities_eq rfl rfl
    · cases h
  | resetAttributes =>
    exact resetAttributes_induction (.refl w) fun w' _ hw =>
      hw.trans (.of_entities_eq rfl rfl)

/-- **Every run leaves what is declared.** -/
theorem staysDeclared_of_run (h : Relation.ReflTransGen FreeStep w w') : w.StaysDeclared w' := by
  induction h with
  | refl => exact .refl w
  | tail _ hstep ih => exact ih.trans hstep.staysDeclared

/-! ## Where keywords lead -/

theorem StaysDeclared.target?_eq (h : w.StaysDeclared w') {id : InputId} {i : Input}
    (hi : w.input? id = some i) :
    (w'.input? id).bind (·.kind.target?) = i.kind.target? := by
  obtain ⟨i', hi', hsame⟩ := h.input id i hi
  rw [hi', Option.bind_some, hsame.kind_eq]

/-- **A keyword that leads to an input that is no synonym still leads there.** -/
theorem StaysDeclared.receives (h : w.StaysDeclared w') {id id' : InputId} {i : Input}
    (hr : w.Receives id id') (hi : w.input? id' = some i) (hk : i.kind.target? = none) :
    w'.Receives id id' := by
  have hnext {id target : InputId} (ht : (w.input? id).bind (·.kind.target?) = some target) :
      (w'.input? id).bind (·.kind.target?) = some target := by
    obtain ⟨j, hj, hkind⟩ := Option.bind_eq_some_iff.1 ht
    rw [h.target?_eq hj, hkind]
  induction hr with
  | self => exact .self ((h.target?_eq hi).trans hk)
  | target ht => exact .target (hnext ht)
  | further ht _ ih => exact .further (hnext ht) (ih hi)

/-! ## New entities -/

/-- A step that adds an entity is one that creates it. -/
theorem FreeStep.length_eq_or_create (h : FreeStep w w') :
    w'.entities.length = w.entities.length ∨
      ∃ className name loose y, w.create? className name loose = .ok (w', y) := by
  have hupdate (w' : World) (y : EntityId) (f : Entity → Entity) :
      (w'.updateEntity y f).entities.length = w'.entities.length := List.length_modify ..
  cases h with
  | @perform op =>
    refine perform_induction (P := fun w' => w'.entities.length = w.entities.length ∨
      ∃ className name loose y, w.create? className name loose = .ok (w', y))
      (.inl rfl) (fun className name loose w' y h => ?_) (fun y w' h => ?_)
      (fun y => ?_) (fun y => ?_) (fun y _ w' h => ?_) op
    · exact .inr ⟨className, name, loose, y, h⟩
    · obtain ⟨-, rfl⟩ := register?_eq_ok h
      exact .inl (hupdate _ _ _)
    · unfold unregister
      split
      · exact .inl rfl
      · exact .inl rfl
    · left
      exact kill_induction (P := fun w' => w'.entities.length = w.entities.length) (fun _ => rfl)
        fun _ _ _ _ _ _ _ h => (hupdate _ _ _).trans h
    · obtain ⟨-, -, rfl⟩ := rename?_eq_ok h
      exact .inl (hupdate _ _ _)
  | addInput h =>
    obtain ⟨-, rfl⟩ := addInput?_eq_ok h
    exact .inl (hupdate _ _ _)
  | apply => exact .inl (applyItems_keywordsChange w _ _ _ _).length_eq
  | reset => exact .inl (hupdate _ _ _)
  | setAttribute h =>
    unfold setAttribute? at h
    split at h
    · cases h
      exact .inl rfl
    · cases h
  | resetAttributes =>
    left
    exact resetAttributes_induction (P := fun w' => w'.entities.length = w.entities.length) rfl
      fun _ _ h => h

/-- An entity that a step adds is the one that it creates. -/
theorem FreeStep.exists_create (h : FreeStep w w') (he : w.entity? e = none)
    (he' : (w'.entity? e).isSome = true) :
    ∃ className name loose, w.create? className name loose = .ok (w', e) := by
  obtain hlength | ⟨className, name, loose, y, hcreate⟩ := h.length_eq_or_create
  · rw [entity?, List.getElem?_eq_none_iff, ← hlength, ← List.getElem?_eq_none_iff] at he
    rw [entity?, he] at he'
    cases he'
  · obtain rfl : e = y := by
      by_contra hne
      rw [entity?_create hcreate hne, he] at he'
      cases he'
    exact ⟨className, name, loose, hcreate⟩

end World

end ModelInputs
