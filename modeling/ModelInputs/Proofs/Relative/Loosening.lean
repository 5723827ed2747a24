import ModelInputs.Proofs.Run.Inputs
import ModelInputs.Proofs.Relative.Walk

/-!
# Giving up relative entities

Most of what is done to a model sets no relative entity: new inputs have none, and an input that is
reset, or that loses an entity which is killed, has none any more. Names and registration play no
part here, and a search that fails halfway has at most given up some of what it was to give up.

* `Input.RelativeUnset`, `Input.RelativeSuited`: relative inputs as they are declared, and at any
  time;
* `Input.LoosensTo`, `World.Loosens`: relative inputs are as they were or no longer set;
* **`Input.removeReferences_loosens`**: an input that is searched for an entity;
* **`World.Loosens.create`**, **`World.Loosens.addInput`**, **`World.Loosens.kill`**,
  **`World.Loosens.rename`**, **`World.Loosens.reset`**: the steps that set no relative entity.
-/

namespace ModelInputs

/-! ## Inputs -/

namespace Input

/-- A relative input as it is declared: it is not set, and has no default. -/
def RelativeUnset (i : Input) : Prop :=
  ∀ type, i.kind = .relativeEntity type → i.isDefault = true ∧ i.default = .none

/-- A relative input at any time: it has no default, and an entity if it is set. -/
def RelativeSuited (i : Input) : Prop :=
  ∀ type, i.kind = .relativeEntity type →
    i.default = .none ∧ (i.isDefault = true ∨ ∃ e, i.value = .entity e)

/-- A relative input is as it was, or is no longer set. -/
structure LoosensTo (i i' : Input) : Prop where
  declaration : i.SameDeclaration i'
  relative : ∀ type, i.kind = .relativeEntity type →
    i'.isDefault = true ∨ (i'.isDefault = i.isDefault ∧ i'.value = i.value)

variable {i i' i'' : Input}

theorem stored_of_relative {type : TypeRef} (hk : i.kind = .relativeEntity type) :
    i.stored = if i.isDefault then i.default else i.value := by
  unfold stored
  rw [hk]

theorem RelativeUnset.suited (h : i.RelativeUnset) : i.RelativeSuited :=
  fun type hk => ⟨(h type hk).2, .inl (h type hk).1⟩

theorem SameDeclaration.default_eq (h : i.SameDeclaration i') : i'.default = i.default := by
  have hd : i'.reset.default = i.reset.default := congrArg Input.default h
  exact hd

/-- A relative input is unset, or set to an entity. -/
theorem RelativeSuited.stored (h : i.RelativeSuited) {type : TypeRef}
    (hk : i.kind = .relativeEntity type) : i.stored = .none ∨ ∃ e, i.stored = .entity e := by
  obtain ⟨hdefault, hset⟩ := h type hk
  rw [stored_of_relative hk, hdefault]
  split
  · exact .inl rfl
  · next hd => exact .inr (hset.resolve_left hd)

/-- An input that has an entity had it before. -/
theorem LoosensTo.stored (h : i.LoosensTo i') (hi : i.RelativeSuited) {type : TypeRef}
    (hk : i'.kind = .relativeEntity type) {e : EntityId} (he : i'.stored = .entity e) :
    i.stored = .entity e := by
  have hk' : i.kind = .relativeEntity type := h.declaration.kind_eq.symm.trans hk
  rw [stored_of_relative hk, h.declaration.default_eq, (hi type hk').1] at he
  rw [stored_of_relative hk', (hi type hk').1]
  obtain hd | ⟨hd, hv⟩ := h.relative type hk'
  · rw [if_pos hd] at he
    cases he
  · rwa [hd, hv] at he

theorem LoosensTo.refl (i : Input) : i.LoosensTo i :=
  ⟨rfl, fun _ _ => .inr ⟨rfl, rfl⟩⟩

theorem LoosensTo.trans (h : i.LoosensTo i') (h' : i'.LoosensTo i'') : i.LoosensTo i'' where
  declaration := h'.declaration.trans h.declaration
  relative type hk := by
    obtain hd | ⟨hd, hv⟩ := h'.relative type (h.declaration.kind_eq.trans hk)
    · exact .inl hd
    · rw [hd, hv]
      exact h.relative type hk

/-- An input of another kind may change at will. -/
theorem LoosensTo.of_kind (h : i.SameDeclaration i')
    (hk : ∀ type, i.kind ≠ .relativeEntity type) : i.LoosensTo i' :=
  ⟨h, fun type h => absurd h (hk type)⟩

theorem loosensTo_reset (i : Input) : i.LoosensTo i.reset :=
  ⟨rfl, fun _ _ => .inl rfl⟩

theorem RelativeUnset.loosen (h : i.RelativeUnset) (h' : i.LoosensTo i') : i'.RelativeUnset := by
  intro type hk
  rw [h'.declaration.kind_eq] at hk
  obtain ⟨hd, hdefault⟩ := h type hk
  refine ⟨?_, h'.declaration.default_eq.trans hdefault⟩
  obtain hd' | ⟨hd', -⟩ := h'.relative type hk
  · exact hd'
  · exact hd'.trans hd

theorem RelativeSuited.loosen (h : i.RelativeSuited) (h' : i.LoosensTo i') :
    i'.RelativeSuited := by
  intro type hk
  rw [h'.declaration.kind_eq] at hk
  obtain ⟨hdefault, hset⟩ := h type hk
  refine ⟨h'.declaration.default_eq.trans hdefault, ?_⟩
  obtain hd' | ⟨hd', hv'⟩ := h'.relative type hk
  · exact .inl hd'
  · rw [hd', hv']
    exact hset

/-- **An input that is searched for an entity at most gives it up**. -/
theorem removeReferences_loosens {e : EntityId} {changed : Bool}
    (h : i.removeReferences e = .ok (i', changed)) : i.LoosensTo i' := by
  have hdropped {v : Value × Bool} (hk : ∀ type, i.kind ≠ .relativeEntity type)
      (h : i.assignDropped v = (i', changed)) : i.LoosensTo i' := by
    unfold assignDropped at h
    split at h
    · cases h
      exact .of_kind rfl hk
    · cases h
      exact .refl i
  unfold removeReferences at h
  split at h
  · next hk =>
    obtain ⟨entries, -, h⟩ := bind_eq_ok.1 h
    obtain ⟨dropped, -, h⟩ := bind_eq_ok.1 h
    cases h
    exact .of_kind rfl (by rw [hk]; exact nofun)
  · next hk =>
    split at h
    · cases h
      exact .refl i
    · obtain ⟨v, -, h⟩ := bind_eq_ok.1 h
      exact hdropped (by rw [hk]; exact nofun) (Except.ok.inj h)
  · next hk =>
    split at h
    · cases h
      exact .refl i
    · obtain ⟨v, -, h⟩ := bind_eq_ok.1 h
      exact hdropped (by rw [hk]; exact nofun) (Except.ok.inj h)
  · next hk =>
    split at h
    · cases h
      exact .refl i
    · obtain ⟨vs, -, h⟩ := bind_eq_ok.1 h
      obtain ⟨dropped, -, h⟩ := bind_eq_ok.1 h
      exact hdropped (by rw [hk]; exact nofun) (Except.ok.inj h)
  · split at h
    · cases h
      exact .refl i
    · obtain ⟨found, -, h⟩ := bind_eq_ok.1 h
      cases found with
      | true =>
        cases h
        exact i.loosensTo_reset
      | false =>
        cases h
        exact .refl i

end Input

/-! ## Worlds -/

/-- Inputs set no relative entity that they had not set before, and new ones set none. -/
structure World.Loosens (w w' : World) : Prop where
  palette_eq : w'.palette = w.palette
  input : ∀ id i', w'.input? id = some i' →
    i'.RelativeUnset ∨ ∃ i, w.input? id = some i ∧ i.LoosensTo i'

namespace World

/-- An input is put in the place of one of the same keyword. -/
theorem input?_setInput (w : World) {id : InputId} {i : Input} (hi : i.keyword = id.keyword)
    (id' : InputId) : (w.updateInput id fun _ => i).input? id' =
      if id = id' then (w.input? id').map fun _ => i else w.input? id' := by
  -- the other inputs of the entity are kept by both functions, so that only this one counts
  have hsame : (w.updateInput id fun _ => i) =
      w.updateInput id fun j => if j.keyword == id.keyword then i else j := by
    refine congrArg (w.updateEntity id.entity) (funext fun x => ?_)
    refine congrArg (fun is => { x with inputs := is }) (List.map_congr_left fun j _ => ?_)
    split
    · next h => exact (if_pos h).symm
    · rfl
  have hkeyword (j : Input) :
      (if j.keyword == id.keyword then i else j).keyword = j.keyword := by
    split
    · next h => exact hi.trans (beq_iff_eq.1 h).symm
    · rfl
  rw [hsame, input?_updateInput hkeyword]
  split
  · next h =>
    subst h
    cases hj : w.input? id with
    | none => rfl
    | some j =>
      rw [Option.map_some, Option.map_some, if_pos (beq_iff_eq.2 (input?_keyword hj))]
  · rfl

namespace Loosens

variable {w w' w'' : World} {e x y : EntityId} {keyword : String}

/-- No entity is placed relative to another one than before. -/
theorem relativeTo (h : w.Loosens w') (hw : ∀ id i, w.input? id = some i → i.RelativeSuited)
    (hxy : w'.RelativeTo keyword x y) : w.RelativeTo keyword x y := by
  obtain ⟨i', type, hi', hk, hv⟩ := relativeTo_iff.1 hxy
  obtain hunset | ⟨i, hi, hloose⟩ := h.input _ i' hi'
  · obtain ⟨hd, hdefault⟩ := hunset type hk
    rw [Input.stored_of_relative hk, if_pos hd, hdefault] at hv
    cases hv
  · exact relativeTo_iff.2 ⟨i, type, hi, hloose.declaration.kind_eq.symm.trans hk,
      hloose.stored (hw _ i hi) hk hv⟩

theorem of_input?_eq (hpalette : w'.palette = w.palette)
    (h : ∀ id, w'.input? id = w.input? id) : w.Loosens w' where
  palette_eq := hpalette
  input id i' hi' := .inr ⟨i', (h id).symm.trans hi', .refl i'⟩

theorem refl (w : World) : w.Loosens w :=
  of_input?_eq rfl fun _ => rfl

theorem trans (h : w.Loosens w') (h' : w'.Loosens w'') : w.Loosens w'' where
  palette_eq := h'.palette_eq.trans h.palette_eq
  input id i'' hi'' := by
    obtain hunset | ⟨i', hi', hloose'⟩ := h'.input id i'' hi''
    · exact .inl hunset
    · obtain hunset | ⟨i, hi, hloose⟩ := h.input id i' hi'
      · exact .inl (hunset.loosen hloose')
      · exact .inr ⟨i, hi, hloose.trans hloose'⟩

/-- One input is put in the place of another one that it may follow. -/
theorem setInput {id : InputId} {i i' : Input} (hi : w.input? id = some i)
    (h : i.LoosensTo i') : w.Loosens (w.updateInput id fun _ => i') where
  palette_eq := rfl
  input id' j hj := by
    rw [input?_setInput w (h.declaration.keyword_eq.trans (input?_keyword hi))] at hj
    split at hj
    · next hid =>
      subst hid
      rw [hi, Option.map_some] at hj
      cases hj
      exact .inr ⟨i, hi, h⟩
    · exact .inr ⟨j, hj, .refl j⟩

/-- Changes of an input of another kind. -/
theorem of_changesOnly {id : InputId} {attributesOf outputsOf : EntityId → Prop}
    (h : w.ChangesOnly (· = id) attributesOf outputsOf w')
    (hk : ∀ i, w.input? id = some i → ∀ type, i.kind ≠ .relativeEntity type) : w.Loosens w' where
  palette_eq := h.palette_eq
  input id' i' hi' := by
    right
    by_cases hid : id' = id
    · subst hid
      have hreset := h.input?_declaration id'
      rw [hi', Option.map_some] at hreset
      obtain ⟨i, hi, hsame⟩ := Option.map_eq_some_iff.1 hreset.symm
      exact ⟨i, hi, .of_kind hsame.symm (hk i hi)⟩
    · exact ⟨i', (h.input?_eq hid).symm.trans hi', .refl i'⟩

/-! ## Steps -/

theorem updateInput {id : InputId} {f : Input → Input} (hf : ∀ i : Input, i.LoosensTo (f i)) :
    w.Loosens (w.updateInput id f) where
  palette_eq := rfl
  input id' j hj := by
    rw [input?_updateInput fun i => (hf i).declaration.keyword_eq] at hj
    split at hj
    · obtain ⟨i, hi, rfl⟩ := Option.map_eq_some_iff.1 hj
      exact .inr ⟨i, hi, hf i⟩
    · exact .inr ⟨j, hj, .refl j⟩

theorem reset (w : World) (id : InputId) : w.Loosens (w.updateInput id Input.reset) :=
  updateInput Input.loosensTo_reset

theorem rename {name : String} (h : w.rename? e name = .ok w') : w.Loosens w' :=
  of_input?_eq (Grows.rename h).palette_eq (input?_rename h)

theorem create {className name : String} {loose : Bool}
    (hp : ∀ i ∈ w.palette.inputs className, i.RelativeUnset)
    (h : w.create? className name loose = .ok (w', e)) : w.Loosens w' where
  palette_eq := (Grows.create h).palette_eq
  input id i' hi' := by
    rw [input?_create h] at hi'
    split at hi'
    · exact .inl (hp i' (List.mem_of_find?_eq_some hi'))
    · exact .inr ⟨i', hi', .refl i'⟩

theorem addInput {i : Input} (hi : i.RelativeUnset) (h : w.addInput? e i = .ok w') :
    w.Loosens w' where
  palette_eq := (Grows.addInput h).palette_eq
  input id i' hi' := by
    obtain ⟨-, rfl⟩ | hold := input?_addInput h hi'
    · exact .inl hi
    · exact .inr ⟨i', hold, .refl i'⟩

theorem kill (w : World) (e : EntityId) : w.Loosens (w.kill e).world :=
  kill_induction (fun _ => of_input?_eq rfl fun _ => rfl) fun _ _ _ _ _ hi hremove h =>
    h.trans (setInput hi (Input.removeReferences_loosens hremove))

end Loosens

end World

end ModelInputs
