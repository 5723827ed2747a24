import ModelInputs.Proofs.Keywords

/-!
# Assignments that are made again

An assignment that is made again finds its input set already, and marked as it would be. So it leaves
the world as it is, except that definitions of attributes make new attributes each time. Worlds that
differ in nothing else are the same to a user: entities have the same names for equal attributes, and
inputs that list attributes list equal ones.

* `World.Fixed`: a change of an entity does nothing;
* `World.Same`: two worlds differ at most in which of several equal attributes they use;
* **`World.store_again`**: an assignment that is made again changes nothing;
* **`World.same_store_again`**, **`World.eq_of_same_store_again`**: definitions of attributes leave
  the same world exactly if they are the same definitions.
-/

namespace ModelInputs

/-! ## Changes that do nothing -/

namespace Entity

variable {f g : Input → Input}

theorem keyword_ite (hf : ∀ i, (f i).keyword = i.keyword) (keyword : String) (i : Input) :
    (if i.keyword == keyword then f i else i).keyword = i.keyword := by
  split
  · exact hf i
  · rfl

theorem updateInput_idem (hk : ∀ i, (f i).keyword = i.keyword) (hf : ∀ i, f (f i) = f i)
    (keyword : String) (x : Entity) :
    (x.updateInput keyword f).updateInput keyword f = x.updateInput keyword f := by
  unfold updateInput
  dsimp only
  rw [List.map_map]
  congr 2
  funext i
  simp only [Function.comp_apply, keyword_ite hk]
  split
  · exact hf i
  · rfl

theorem updateInput_comm (hf : ∀ i, (f i).keyword = i.keyword)
    (hg : ∀ i, (g i).keyword = i.keyword) (hfg : ∀ i, f (g i) = g (f i))
    (keyword keyword' : String) (x : Entity) :
    (x.updateInput keyword' g).updateInput keyword f =
      (x.updateInput keyword f).updateInput keyword' g := by
  unfold updateInput
  dsimp only
  rw [List.map_map, List.map_map]
  congr 2
  funext i
  simp only [Function.comp_apply, keyword_ite hf, keyword_ite hg]
  cases i.keyword == keyword with
  | true =>
    cases i.keyword == keyword' with
    | true => exact hfg i
    | false => rfl
  | false => rfl

end Entity

namespace World

/-- The change does nothing to the entity as it is. -/
def Fixed (w : World) (e : EntityId) (f : Entity → Entity) : Prop :=
  ∀ x, w.entity? e = some x → f x = x

variable {w : World} {e e' : EntityId} {f g : Entity → Entity}

theorem Fixed.updateEntity_eq (h : w.Fixed e f) : w.updateEntity e f = w := by
  have hentities : w.entities.modify e.index f = w.entities := by
    refine List.ext_getElem? fun n => ?_
    rw [List.getElem?_modify]
    split
    · next hn =>
      subst hn
      cases hx : w.entities[e.index]? with
      | none => rfl
      | some x => exact congrArg some (h x hx)
    · rw [Option.map_eq_map, Option.map_id']
  rw [updateEntity, hentities]

theorem fixed_updateEntity (hf : ∀ x, f (f x) = f x) : (w.updateEntity e f).Fixed e f := by
  intro x hx
  rw [entity?_updateEntity, if_pos rfl] at hx
  obtain ⟨y, -, rfl⟩ := Option.map_eq_some_iff.1 hx
  exact hf y

/-- A change that does nothing still does nothing behind one that it does not meet. -/
theorem Fixed.updateEntity (h : w.Fixed e f) (hfg : ∀ x, f (g x) = g (f x)) :
    (w.updateEntity e' g).Fixed e f := by
  intro x hx
  rw [entity?_updateEntity] at hx
  split at hx
  · obtain ⟨y, hy, rfl⟩ := Option.map_eq_some_iff.1 hx
    rw [hfg, h y hy]
  · exact h x hx

end World

/-! ## The same world -/

namespace Value

/-- A list of attributes as a value. -/
def ofAttributes (ids : List AttributeId) : Value :=
  .list (ids.map fun a => .handle (.attribute a))

theorem ofAttributes_injective {ids ids' : List AttributeId}
    (h : ofAttributes ids = ofAttributes ids') : ids = ids' := by
  have hinjective : Function.Injective fun a => Value.handle (.attribute a) := by
    rintro a a' ⟨⟩
    rfl
  exact List.map_injective_iff.2 hinjective (Value.list.inj h)

end Value

namespace World

/-- The attributes are equal, if not the same one. -/
def SameAttribute (w w' : World) (a a' : AttributeId) : Prop :=
  a' = a ∨ w'.attribute? a' = w.attribute? a

/-- The values are the same, where attributes in a list may be replaced by equal ones. -/
inductive SameValue (w w' : World) : Value → Value → Prop where
  | refl {v : Value} : SameValue w w' v v
  | attributes {ids ids' : List AttributeId} : List.Forall₂ (w.SameAttribute w') ids ids' →
    SameValue w w' (.ofAttributes ids) (.ofAttributes ids')

/-- The inputs have the same value, and nothing else about them differs. -/
structure SameInput (w w' : World) (i i' : Input) : Prop where
  value : w.SameValue w' i.value i'.value
  rest : i' = { i with value := i'.value }

/-- The entities have equal attributes under the same names, and the same inputs. -/
structure SameEntity (w w' : World) (x x' : Entity) : Prop where
  attributes : List.Forall₂ (fun a a' => a'.1 = a.1 ∧ w.SameAttribute w' a.2 a'.2)
    x.attributes x'.attributes
  inputs : List.Forall₂ (w.SameInput w') x.inputs x'.inputs
  rest : x' = { x with attributes := x'.attributes, inputs := x'.inputs }

/-- **The worlds differ at most in which of several equal attributes stand for the definitions of
entities.** -/
structure Same (w w' : World) : Prop where
  attributes : w.attributes <+: w'.attributes
  length_eq : w'.entities.length = w.entities.length
  entity : ∀ e x, w.entity? e = some x → ∃ x', w'.entity? e = some x' ∧ w.SameEntity w' x x'
  rest : w' = { w with attributes := w'.attributes, entities := w'.entities }

variable {w w' : World}

theorem SameInput.refl (i : Input) : w.SameInput w' i i where
  value := .refl
  rest := rfl

theorem SameEntity.refl (x : Entity) : w.SameEntity w' x x where
  attributes := List.forall₂_same.2 fun _ _ => ⟨rfl, .inl rfl⟩
  inputs := List.forall₂_same.2 fun _ _ => .refl _
  rest := rfl

theorem Same.refl (w : World) : w.Same w where
  attributes := List.prefix_refl _
  length_eq := rfl
  entity _ x hx := ⟨x, hx, .refl x⟩
  rest := rfl

theorem SameEntity.input? {x x' : Entity} (h : w.SameEntity w' x x') {keyword : String} {i : Input}
    (hi : x.input? keyword = some i) :
    ∃ i', x'.input? keyword = some i' ∧ w.SameInput w' i i' := by
  have hinputs := h.inputs
  unfold Entity.input? at hi ⊢
  generalize x.inputs = is, x'.inputs = is' at hinputs hi ⊢
  induction hinputs with
  | nil => cases hi
  | @cons j j' is is' hj _ ih =>
    have hkeyword : j'.keyword = j.keyword := by rw [hj.rest]
    rw [List.find?_cons] at hi ⊢
    rw [hkeyword]
    split at hi
    · cases hi
      exact ⟨j', rfl, hj⟩
    · exact ih hi

theorem Same.input? (h : w.Same w') {id : InputId} {i : Input} (hi : w.input? id = some i) :
    ∃ i', w'.input? id = some i' ∧ w.SameInput w' i i' := by
  obtain ⟨x, hx, hi⟩ := Option.bind_eq_some_iff.1 hi
  obtain ⟨x', hx', hxx'⟩ := h.entity _ x hx
  obtain ⟨i', hi', hii'⟩ := hxx'.input? hi
  exact ⟨i', Option.bind_eq_some_iff.2 ⟨x', hx', hi'⟩, hii'⟩

/-- Lists of attributes that are the same have equal attributes. -/
theorem SameValue.sameAttributes {ids ids' : List AttributeId}
    (h : w.SameValue w' (.ofAttributes ids) (.ofAttributes ids')) :
    List.Forall₂ (w.SameAttribute w') ids ids' := by
  generalize hv : Value.ofAttributes ids = v, hv' : Value.ofAttributes ids' = v' at h
  cases h with
  | refl =>
    rw [Value.ofAttributes_injective (hv.trans hv'.symm)]
    exact List.forall₂_same.2 fun _ _ => .inl rfl
  | attributes h =>
    rwa [Value.ofAttributes_injective hv, Value.ofAttributes_injective hv']

/-! ## What is received again -/

variable {e : EntityId} {a : Arguments}

theorem keyword_markReceiver (w : World) (e : EntityId) (a : Arguments) (i : Input) :
    (w.markReceiver e a i).keyword = i.keyword :=
  (w.markReceiver_sameDeclaration e a i).keyword_eq

theorem stored_markReceiver (w : World) (e : EntityId) (a : Arguments) (i : Input) :
    (w.markReceiver e a i).stored = i.stored := by
  obtain ⟨edited, h⟩ := w.markReceiver_eq e a i
  rw [h]
  rfl

theorem markReceiver_idem (w : World) (e : EntityId) (a : Arguments) (i : Input) :
    w.markReceiver e a (w.markReceiver e a i) = w.markReceiver e a i := by
  unfold markReceiver
  dsimp only
  split
  · rfl
  · rfl

theorem markReceiver_assigned (w w₁ : World) (e : EntityId) (a : Arguments)
    (assignment : Assignment) (i : Input) :
    w.markReceiver e a (w₁.assigned assignment i) = w₁.assigned assignment (w.markReceiver e a i) := by
  unfold markReceiver
  dsimp only
  split
  · cases assignment with
    | _ => rfl
  · cases assignment with
    | _ => rfl

theorem assigned_idem (w : World) (assignment : Assignment) (i : Input) :
    w.assigned assignment (w.assigned assignment i) = w.assigned assignment i := by
  cases assignment with
  | _ => rfl

theorem keyword_assigned (w : World) (assignment : Assignment) (i : Input) :
    (w.assigned assignment i).keyword = i.keyword :=
  (w.assigned_sameDeclaration assignment i).keyword_eq

/-- An input that is set and marked is left by setting and marking it again. -/
theorem fixed_marked (w w₁ w₂ : World) (target receiver : InputId) (assignment : Assignment)
    (e : EntityId) (a : Arguments) :
    let marked := (w.updateInput target (w₁.assigned assignment)).updateInput receiver
      (w₂.markReceiver e a)
    marked.Fixed target.entity (Entity.updateInput target.keyword (w₁.assigned assignment)) ∧
      marked.Fixed receiver.entity (Entity.updateInput receiver.keyword (w₂.markReceiver e a)) := by
  refine ⟨.updateEntity (fixed_updateEntity fun x => ?_) fun x => ?_, fixed_updateEntity fun x => ?_⟩
  · exact x.updateInput_idem (w₁.keyword_assigned assignment) (w₁.assigned_idem assignment) _
  · exact x.updateInput_comm (w₁.keyword_assigned assignment) (w₂.keyword_markReceiver e a)
      (fun i => (w₂.markReceiver_assigned w₁ e a assignment i).symm) _ _
  · exact x.updateInput_idem (w₂.keyword_markReceiver e a) (w₂.markReceiver_idem e a) _

theorem updateInputs_again (w w₁ w₂ : World) (target receiver : InputId) (assignment : Assignment)
    (e : EntityId) (a : Arguments) :
    let marked := (w.updateInput target (w₁.assigned assignment)).updateInput receiver
      (w₂.markReceiver e a)
    (marked.updateInput target (w₁.assigned assignment)).updateInput receiver
      (w₂.markReceiver e a) = marked := by
  obtain ⟨hset, hmark⟩ := w.fixed_marked w₁ w₂ target receiver assignment e a
  dsimp only
  rw [updateInput, updateInput, hset.updateEntity_eq, hmark.updateEntity_eq]

/-- **An assignment that is made again changes nothing**, unless it makes new attributes. -/
theorem store_again (w w₂ : World) (target receiver : InputId) (assignment : Assignment)
    (hno : ∀ owner definitions, assignment ≠ .attributes owner definitions) (e : EntityId)
    (a : Arguments) :
    let marked := (w.store target assignment).updateInput receiver (w₂.markReceiver e a)
    (marked.store target assignment).updateInput receiver (w₂.markReceiver e a) = marked := by
  cases assignment with
  | value v => exact w.updateInputs_again w w₂ target receiver (.value v) e a
  | keyLists lists => exact w.updateInputs_again w w₂ target receiver (.keyLists lists) e a
  | attributes owner definitions => exact absurd rfl (hno owner definitions)
  | customOutputs owner outputs =>
    intro marked
    have htable : marked.Fixed owner fun x =>
        { x with customOutputs := distinctKeys (outputs.map fun o => (o.name, o)) } :=
      .updateEntity (.updateEntity (fixed_updateEntity fun _ => rfl) fun _ => rfl) fun _ => rfl
    have hset : marked.setCustomOutputs owner outputs = marked := htable.updateEntity_eq
    show ((marked.setCustomOutputs owner outputs).updateInput target
      (w.assigned (.customOutputs owner outputs))).updateInput receiver _ = marked
    rw [hset]
    exact (w.setCustomOutputs owner outputs).updateInputs_again w w₂ target receiver
      (.customOutputs owner outputs) e a
  | nothing =>
    exact (fixed_updateEntity fun x =>
      x.updateInput_idem (w₂.keyword_markReceiver e a) (w₂.markReceiver_idem e a) _).updateEntity_eq

/-! ## New attributes -/

/-- Entries of different keys stay as they are. -/
theorem distinctKeys_eq_self {α : Type} {entries : List (String × α)}
    (h : (entries.map (·.1)).Nodup) : distinctKeys entries = entries := by
  have hfold (entries kept : List (String × α)) (h : ((kept ++ entries).map (·.1)).Nodup) :
      entries.foldl (fun kept entry =>
        if kept.any (·.1 == entry.1) then kept.map fun e => if e.1 == entry.1 then entry else e
        else kept ++ [entry]) kept = kept ++ entries := by
    induction entries generalizing kept with
    | nil => exact (List.append_nil kept).symm
    | cons entry entries ih =>
      obtain ⟨key, a⟩ := entry
      have hnew : ¬ kept.any (·.1 == key) = true := by
        rw [List.any_eq_true]
        rintro ⟨x, hx, hkey⟩
        rw [List.map_append, List.map_cons] at h
        refine (List.nodup_append.1 h).2.2 x.1 (List.mem_map_of_mem hx) key (.head _) ?_
        exact beq_iff_eq.1 hkey
      rw [List.append_cons] at h ⊢
      rw [List.foldl_cons]
      dsimp only
      rw [if_neg hnew]
      exact ih _ h
  exact hfold entries [] h

/-- The table of some definitions, for attributes that are made in a world. -/
def definitionTable (w : World) (definitions : List Attribute) : List (String × AttributeId) :=
  (definitions.map (·.name)).zip (w.newAttributeIds definitions.length)

theorem keys_definitionTable (w : World) (definitions : List Attribute) :
    (w.definitionTable definitions).map (·.1) = definitions.map (·.name) := by
  refine List.map_fst_zip (Nat.le_of_eq ?_)
  rw [newAttributeIds, List.length_map, List.length_map, List.length_range]

theorem attribute?_addAttributes (w : World) (definitions : List Attribute) (k : Nat) :
    (w.addAttributes definitions).attribute? ⟨w.attributes.length + k⟩ = definitions[k]? := by
  show (w.attributes ++ definitions)[w.attributes.length + k]? = _
  rw [List.getElem?_append_right (Nat.le_add_right _ _), Nat.add_sub_cancel_left]

/-- New attributes are equal to old ones of the same definitions. -/
theorem sameAttribute_new {w₀ : World} {definitions : List Attribute}
    (hold : ∀ k, w.attribute? ⟨w₀.attributes.length + k⟩ = definitions[k]?) (k : Nat) :
    w.SameAttribute (w.addAttributes definitions) ⟨w₀.attributes.length + k⟩
      ⟨w.attributes.length + k⟩ :=
  .inr ((w.attribute?_addAttributes definitions k).trans (hold k).symm)

/-- The tables of the same definitions have equal attributes. -/
theorem sameAttributes_table {w₀ : World} {definitions : List Attribute}
    (hnodup : (definitions.map (·.name)).Nodup)
    (hold : ∀ k, w.attribute? ⟨w₀.attributes.length + k⟩ = definitions[k]?) :
    List.Forall₂ (fun a a' => a'.1 = a.1 ∧ w.SameAttribute (w.addAttributes definitions) a.2 a'.2)
      (distinctKeys (w₀.definitionTable definitions))
      (distinctKeys (w.definitionTable definitions)) := by
  rw [distinctKeys_eq_self ((w₀.keys_definitionTable definitions).symm ▸ hnodup),
    distinctKeys_eq_self ((w.keys_definitionTable definitions).symm ▸ hnodup), definitionTable, definitionTable, newAttributeIds, newAttributeIds, List.zip_map_right,
    List.zip_map_right, List.forall₂_map_left_iff, List.forall₂_map_right_iff]
  exact List.forall₂_same.2 fun entry _ => ⟨rfl, sameAttribute_new hold entry.2⟩

/-- An input that lists attributes is the same once it lists equal ones. -/
theorem sameInput_assign {ids ids' : List AttributeId} {i : Input}
    (hi : i.assign (.ofAttributes ids) = i) (h : List.Forall₂ (w.SameAttribute w') ids ids') :
    w.SameInput w' i (i.assign (.ofAttributes ids')) := by
  have hvalue : i.value = .ofAttributes ids := by rw [← hi]; rfl
  have hset : i.isDefault = false := by rw [← hi]; rfl
  refine ⟨hvalue ▸ .attributes h, ?_⟩
  rw [Input.assign, ← hset]

/-- What is marked has the value that was assigned to it. -/
theorem input?_marked (w w₂ : World) (target receiver : InputId) (assignment : Assignment)
    (e : EntityId) (a : Arguments) {i : Input} (hi : w.input? target = some i) :
    ∃ i', ((w.store target assignment).updateInput receiver (w₂.markReceiver e a)).input? target =
      some i' ∧ i'.kind = i.kind ∧ i'.value = (w.assigned assignment i).value ∧
      i'.stored = (w.assigned assignment i).stored := by
  have hkind := (w.assigned_sameDeclaration assignment i).kind_eq
  have hstored := w.input?_store target assignment target
  rw [if_pos rfl, hi, Option.map_some] at hstored
  rw [input?_updateInput (w₂.keyword_markReceiver e a), hstored]
  split
  · refine ⟨_, rfl, ?_, w₂.value_markReceiver e a _, w₂.stored_markReceiver e a _⟩
    exact (w₂.markReceiver_sameDeclaration e a _).kind_eq.trans hkind
  · exact ⟨_, rfl, hkind, rfl, rfl⟩

/-- Other inputs keep the values that apply to them. -/
theorem stored_marked (w w₂ : World) {target id : InputId} (receiver : InputId)
    (assignment : Assignment) (e : EntityId) (a : Arguments) (hne : id ≠ target) :
    (((w.store target assignment).updateInput receiver (w₂.markReceiver e a)).input? id).map
      (·.stored) = (w.input? id).map (·.stored) := by
  rw [input?_updateInput (w₂.keyword_markReceiver e a), input?_store, if_neg hne.symm]
  split
  · rw [Option.map_map]
    exact Option.map_congr fun i _ => w₂.stored_markReceiver e a i
  · rfl

section Attributes

variable (w w₂ : World) (target receiver : InputId) (owner : EntityId)
  (definitions : List Attribute) (e : EntityId) (a : Arguments)

/-- Definitions that are assigned are the table of the entity that they are for. -/
theorem attributes_marked {x : Entity}
    (hx : ((w.store target (.attributes owner definitions)).updateInput receiver
      (w₂.markReceiver e a)).entity? owner = some x) :
    x.attributes = distinctKeys (w.definitionTable definitions) := by
  have htable : ((w.store target (.attributes owner definitions)).updateInput receiver
      (w₂.markReceiver e a)).Fixed owner fun x =>
        { x with attributes := distinctKeys (w.definitionTable definitions) } :=
    .updateEntity (.updateEntity (fixed_updateEntity fun _ => rfl) fun _ => rfl) fun _ => rfl
  rw [← htable x hx]

/-- **Definitions that are assigned again leave the same world.** -/
theorem same_store_again (hnodup : (definitions.map (·.name)).Nodup) :
    let marked := (w.store target (.attributes owner definitions)).updateInput receiver
      (w₂.markReceiver e a)
    marked.Same ((marked.store target (.attributes owner definitions)).updateInput receiver
      (w₂.markReceiver e a)) := by
  intro marked
  obtain ⟨hset, hmark⟩ := ((w.addAttributes definitions).setAttributes owner
    (w.definitionTable definitions)).fixed_marked w w₂ target receiver
      (.attributes owner definitions) e a
  have hold (k : Nat) : marked.attribute? ⟨w.attributes.length + k⟩ = definitions[k]? :=
    w.attribute?_addAttributes definitions k
  have hstored : (marked.store target (.attributes owner definitions)).updateInput receiver
      (w₂.markReceiver e a) = marked.store target (.attributes owner definitions) :=
    Fixed.updateEntity_eq <| .updateEntity
      (.updateEntity (w := marked.addAttributes definitions) hmark fun _ => rfl) fun x =>
        x.updateInput_comm (w₂.keyword_markReceiver e a)
          (marked.keyword_assigned (.attributes owner definitions))
          (w₂.markReceiver_assigned marked e a _) _ _
  rw [hstored]
  refine ⟨List.prefix_append _ _, ?_, fun y x hx => ?_, rfl⟩
  · exact (List.length_modify _ _ _).trans (List.length_modify _ _ _)
  have htables : owner = y → x.attributes = distinctKeys (w.definitionTable definitions) := by
    rintro rfl
    exact w.attributes_marked w₂ target receiver owner definitions e a hx
  have hinputs (h : target.entity = y) (i : Input) (hi : i ∈ x.inputs)
      (hk : (i.keyword == target.keyword) = true) :
      w.assigned (.attributes owner definitions) i = i := by
    have hfixed := congrArg Entity.inputs (hset x (h ▸ hx))
    have hi := List.map_inj_left.1 (hfixed.trans (List.map_id _).symm) i hi
    rwa [if_pos hk] at hi
  have hread : (marked.store target (.attributes owner definitions)).entity? y =
      some { x with
        attributes := if owner = y then distinctKeys (marked.definitionTable definitions)
          else x.attributes
        inputs := if target.entity = y then (x.updateInput target.keyword
          (marked.assigned (.attributes owner definitions))).inputs else x.inputs } := by
    have hadded : (marked.addAttributes definitions).entity? y = some x := hx
    refine (entity?_updateEntity _ target.entity y _).trans ?_
    rw [setAttributes, entity?_updateEntity, hadded]
    by_cases h : target.entity = y
    · by_cases h' : owner = y
      · rw [if_pos h, if_pos h, if_pos h', if_pos h']
        rfl
      · rw [if_pos h, if_pos h, if_neg h', if_neg h']
        rfl
    · by_cases h' : owner = y
      · rw [if_neg h, if_neg h, if_pos h', if_pos h']
        rfl
      · rw [if_neg h, if_neg h, if_neg h', if_neg h']
  refine ⟨_, hread, ?_, ?_, rfl⟩
  · dsimp only
    split
    · next h =>
      rw [htables h]
      exact sameAttributes_table hnodup hold
    · exact List.forall₂_same.2 fun _ _ => ⟨rfl, .inl rfl⟩
  · dsimp only
    split
    · next h =>
      refine List.forall₂_map_right_iff.2 (List.forall₂_same.2 fun i hi => ?_)
      split
      · next hk =>
        refine sameInput_assign (hinputs h i hi hk) ?_
        rw [newAttributeIds, newAttributeIds, List.forall₂_map_left_iff, List.forall₂_map_right_iff]
        exact List.forall₂_same.2 fun k _ => sameAttribute_new hold k
      · exact .refl i
    · exact List.forall₂_same.2 fun i _ => .refl i

/-- **Definitions leave the same world only where they are the same.** -/
theorem eq_of_same_store_again {definitions' : List Attribute} {i : Input}
    (hi : w.input? target = some i)
    (h : ((w.store target (.attributes owner definitions)).updateInput receiver
      (w₂.markReceiver e a)).Same
        ((((w.store target (.attributes owner definitions)).updateInput receiver
          (w₂.markReceiver e a)).store target (.attributes owner definitions')).updateInput receiver
            (w₂.markReceiver e a))) :
    definitions' = definitions := by
  obtain ⟨j, hj, -, hvalue, -⟩ :=
    w.input?_marked w₂ target receiver (.attributes owner definitions) e a hi
  generalize hmarked : (w.store target (.attributes owner definitions)).updateInput receiver
    (w₂.markReceiver e a) = marked at h hj
  obtain ⟨j', hj', -, hvalue', -⟩ :=
    marked.input?_marked w₂ target receiver (.attributes owner definitions') e a hj
  obtain ⟨j'', hj'', hsame⟩ := h.input? hj
  obtain rfl : j' = j'' := Option.some.inj (hj'.symm.trans hj'')
  have hsame := hsame.value
  rw [hvalue, hvalue'] at hsame
  have hids := hsame.sameAttributes
  rw [newAttributeIds, newAttributeIds, List.forall₂_map_left_iff, List.forall₂_map_right_iff] at hids
  have hlength : definitions.length = definitions'.length := by
    have hlength := hids.length_eq
    rwa [List.length_range, List.length_range] at hlength
  have hcount : marked.attributes.length = w.attributes.length + definitions.length := by
    rw [← hmarked]
    exact List.length_append
  refine List.ext_getElem? fun k => ?_
  by_cases hk : k < definitions.length
  · have hsame := hids.get (i := k) (by rwa [List.length_range]) (by rwa [List.length_range, ← hlength])
    rw [List.get_eq_getElem, List.get_eq_getElem, List.getElem_range, List.getElem_range] at hsame
    obtain hid | hequal := hsame
    · -- the attributes that are made again are behind those that were made before
      have hindex : marked.attributes.length + k = w.attributes.length + k :=
        congrArg AttributeId.index hid
      omega
    · calc definitions'[k]?
          = _ := (marked.attribute?_addAttributes definitions' k).symm
        _ = marked.attribute? ⟨w.attributes.length + k⟩ := hequal
        _ = definitions[k]? := by
          rw [← hmarked]
          exact w.attribute?_addAttributes definitions k
  · rw [List.getElem?_eq_none (Nat.le_of_not_lt hk),
      List.getElem?_eq_none (hlength ▸ Nat.le_of_not_lt hk)]

end Attributes

end World

end ModelInputs
