import ModelInputs.Proofs.Run.WellFormed

/-!
# Killing an entity

In a well-formed world an entity that is killed leaves the registry, and every input of the entities
that stay lets go of it. What is reported are exactly the inputs that referred to it.

* `Entity.letGo`, `World.refers`: the inputs of an entity without another one, and where that one is
  referred to;
* `World.letGo`: some inputs without an entity;
* **`World.dropFromInputs_eq`**: searching inputs one after another changes each once;
* `World.Killed`, **`World.WellFormed.kill`**: what killing an entity does.
-/

namespace ModelInputs

/-! ## Inputs without an entity -/

theorem Input.letGo_sameDeclaration (e : EntityId) (i : Input) : i.SameDeclaration (i.letGo e) :=
  i.reset_letGo e

/-- An input that lets go of an entity has the tokens that it had, or none. -/
theorem Input.tokens_letGo (e : EntityId) (i : Input) :
    (i.letGo e).tokens = none ∨ (i.letGo e).tokens = i.tokens := by
  unfold letGo without
  split
  · split
    · exact .inr rfl
    split
    · exact .inr rfl
    · exact .inl rfl
  · exact .inr rfl

/-- The entity after another one is gone. -/
def Entity.letGo (e : EntityId) (x : Entity) : Entity :=
  { x with inputs := x.inputs.map (Input.letGo e) }

theorem Entity.map_keyword_letGo (e : EntityId) (x : Entity) :
    (x.letGo e).inputs.map (·.keyword) = x.inputs.map (·.keyword) := by
  rw [letGo, List.map_map]
  exact List.map_congr_left fun i _ => (i.letGo_sameDeclaration e).keyword_eq

theorem Entity.input?_letGo (e : EntityId) (x : Entity) (keyword : String) :
    (x.letGo e).input? keyword = (x.input? keyword).map (Input.letGo e) := by
  have hkeep : (fun i : Input => (i.letGo e).keyword == keyword) = fun i => i.keyword == keyword :=
    funext fun i => by rw [(i.letGo_sameDeclaration e).keyword_eq]
  rw [Entity.input?, letGo, List.find?_map, Function.comp_def, hkeep]
  rfl

theorem Entity.WellFormed.letGo {x : Entity} (hx : x.WellFormed) (e : EntityId) :
    (x.letGo e).WellFormed where
  keywords := by
    rw [x.map_keyword_letGo]
    exact hx.keywords
  inputs i hi := by
    obtain ⟨j, hj, rfl⟩ := List.mem_map.1 hi
    exact ((hx.inputs j hj).letGo e).1

namespace World

/-- An input refers to an entity. -/
def refers (w : World) (e : EntityId) (id : InputId) : Bool :=
  (w.input? id).any fun i => decide (e ∈ i.mentions)

/-- The world after some inputs have let go of an entity. -/
def letGo (e : EntityId) (w : World) (ids : List InputId) : World :=
  ids.foldl (fun w id => w.updateInput id (Input.letGo e)) w

variable {w : World} {e : EntityId}

theorem updateEntity_congr {f g : Entity → Entity} {y : EntityId}
    (h : ∀ x, w.entity? y = some x → f x = g x) : w.updateEntity y f = w.updateEntity y g := by
  have hentities : w.entities.modify y.index f = w.entities.modify y.index g := by
    refine List.ext_getElem? fun n => ?_
    show (w.updateEntity y f).entity? ⟨n⟩ = (w.updateEntity y g).entity? ⟨n⟩
    rw [entity?_updateEntity, entity?_updateEntity]
    split
    · next hn =>
      subst hn
      cases hx : w.entity? ⟨n⟩ with
      | none => rfl
      | some x => rw [Option.map_some, Option.map_some, h x hx]
    · rfl
  rw [updateEntity, updateEntity, hentities]

/-- One input that is searched for an entity lets go of it. -/
theorem WellFormed.dropFromInput_eq (hw : w.WellFormed) {id : InputId}
    (hid : (w.input? id).isSome = true) :
    w.dropFromInput e id = .ok (w.updateInput id (Input.letGo e), w.refers e id) := by
  obtain ⟨i, hi⟩ := Option.isSome_iff_exists.1 hid
  obtain ⟨x, hx, hxi⟩ := Option.bind_eq_some_iff.1 hi
  have hwx := hw.entities _ x hx
  have hmem : i ∈ x.inputs := List.mem_of_find?_eq_some hxi
  have hsame : w.updateInput id (fun _ => i.letGo e) = w.updateInput id (Input.letGo e) := by
    refine updateEntity_congr fun y hy => ?_
    obtain rfl : x = y := Option.some.inj (hx.symm.trans hy)
    rw [Entity.updateInput, Entity.updateInput]
    refine congrArg (fun is => { x with inputs := is }) (List.map_congr_left fun j hj => ?_)
    split
    · next hkey =>
      have hj' := hwx.input?_eq_some hj
      rw [beq_iff_eq.1 hkey, hxi] at hj'
      rw [Option.some.inj hj']
    · rfl
  unfold dropFromInput
  rw [hi]
  dsimp only
  rw [Input.removeReferences_eq (hwx.inputs i hmem), ok_bind, refers, hi, hsame]
  rfl

theorem WellFormed.updateInput_letGo (hw : w.WellFormed) (e : EntityId) (id : InputId) :
    (w.updateInput id (Input.letGo e)).WellFormed := by
  refine hw.updateInput (Input.letGo_sameDeclaration e) fun i hi => ?_
  obtain ⟨x, hx, hxi⟩ := Option.bind_eq_some_iff.1 hi
  exact ((((hw.entities _ x hx).inputs i (List.mem_of_find?_eq_some hxi))).letGo e).1

theorem input?_updateInput_letGo (w : World) (e : EntityId) (id id' : InputId) :
    (w.updateInput id (Input.letGo e)).input? id' =
      if id = id' then (w.input? id').map (Input.letGo e) else w.input? id' :=
  input?_updateInput (fun i => (i.letGo_sameDeclaration e).keyword_eq) w id id'

/-- **Inputs that are searched one after another let go of the entity**, and those that referred to
it are reported in order. -/
theorem WellFormed.dropFromInputs_eq (hw : w.WellFormed) {ids : List InputId}
    (hids : ids.Nodup) (hfound : ∀ id ∈ ids, (w.input? id).isSome = true) (done : List InputId) :
    w.dropFromInputs e done ids = ⟨w.letGo e ids, .ok (done ++ ids.filter (w.refers e))⟩ := by
  induction ids generalizing w done with
  | nil => rw [dropFromInputs, List.filter_nil, List.append_nil, letGo, List.foldl_nil]
  | cons id ids ih =>
    obtain ⟨hid, hids⟩ := List.nodup_cons.1 hids
    have hother : ∀ id' ∈ ids,
        (w.updateInput id (Input.letGo e)).input? id' = w.input? id' := by
      intro id' hid'
      rw [input?_updateInput_letGo, if_neg]
      rintro rfl
      exact hid hid'
    have hfilter : ids.filter ((w.updateInput id (Input.letGo e)).refers e) =
        ids.filter (w.refers e) := by
      refine List.filter_congr fun id' hid' => ?_
      rw [refers, refers, hother id' hid']
    rw [dropFromInputs, hw.dropFromInput_eq (hfound id (.head _))]
    dsimp only
    rw [ih (hw.updateInput_letGo e id) hids, hfilter, List.filter_cons, letGo, letGo,
      List.foldl_cons]
    · cases w.refers e id with
      | true => rw [if_pos rfl, if_pos rfl, List.append_assoc, List.singleton_append]
      | false => rw [if_neg Bool.false_ne_true, if_neg Bool.false_ne_true]
    · intro id' hid'
      rw [hother id' hid']
      exact hfound id' (.tail _ hid')

/-! ## The entities that stay -/

/-- An input lets go of the entity if it is one of those that are searched. -/
theorem entity?_letGo {ids : List InputId} (hids : ids.Nodup) (y : EntityId) :
    (w.letGo e ids).entity? y = (w.entity? y).map fun x =>
      { x with inputs := x.inputs.map fun i => if ⟨y, i.keyword⟩ ∈ ids then i.letGo e else i } := by
  induction ids generalizing w with
  | nil =>
    cases hx : w.entity? y with
    | none => exact hx
    | some x =>
      rw [letGo, List.foldl_nil, hx, Option.map_some]
      refine congrArg some (congrArg (fun is => { x with inputs := is }) ?_)
      exact (List.map_id x.inputs).symm.trans
        (List.map_congr_left fun i _ => (if_neg List.not_mem_nil).symm)
  | cons id ids ih =>
    obtain ⟨hid, hids⟩ := List.nodup_cons.1 hids
    rw [letGo, List.foldl_cons, ← letGo, ih hids, updateInput, entity?_updateEntity]
    cases w.entity? y with
    | none =>
      split
      · rfl
      · rfl
    | some x =>
      split
      · next hy =>
        rw [Option.map_some, Option.map_some, Option.map_some, Entity.updateInput, List.map_map]
        refine congrArg some (congrArg (fun is => { x with inputs := is }) ?_)
        refine List.map_congr_left fun i _ => ?_
        dsimp only [Function.comp_apply]
        split
        · next hkey =>
          have hthis : (⟨y, i.keyword⟩ : InputId) = id := by
            rw [← hy, beq_iff_eq.1 hkey]
          rw [(i.letGo_sameDeclaration e).keyword_eq, hthis, if_neg hid, if_pos (.head _)]
        · next hkey =>
          have hne : (⟨y, i.keyword⟩ : InputId) ≠ id := by
            rintro rfl
            exact hkey (beq_self_eq_true _)
          exact if_congr (by rw [List.mem_cons, or_iff_right hne]) rfl rfl
      · next hy =>
        rw [Option.map_some, Option.map_some]
        refine congrArg some (congrArg (fun is => { x with inputs := is }) ?_)
        refine List.map_congr_left fun i _ => ?_
        have hne : (⟨y, i.keyword⟩ : InputId) ≠ id := by
          rintro rfl
          exact hy rfl
        exact if_congr (by rw [List.mem_cons, or_iff_right hne]) rfl rfl

theorem mem_registeredInputs {id : InputId} :
    id ∈ w.registeredInputs ↔
      id.entity ∈ w.registered ∧
        ∃ x, w.entity? id.entity = some x ∧ ∃ i ∈ x.inputs, i.keyword = id.keyword := by
  rw [registeredInputs, List.mem_flatMap]
  constructor
  · rintro ⟨y, hy, hid⟩
    cases hx : w.entity? y with
    | none =>
      rw [hx] at hid
      cases hid
    | some x =>
      rw [hx] at hid
      obtain ⟨i, hi, rfl⟩ := List.mem_map.1 hid
      exact ⟨hy, x, hx, i, hi, rfl⟩
  · rintro ⟨hid, x, hx, i, hi, hkey⟩
    refine ⟨id.entity, hid, ?_⟩
    rw [hx]
    exact List.mem_map.2 ⟨i, hi, by rw [hkey]⟩

theorem WellFormed.nodup_registeredInputs (hw : w.WellFormed) : w.registeredInputs.Nodup := by
  refine List.nodup_flatMap.2 ⟨fun y _ => ?_, hw.nodup_registered.imp fun {y y'} hne => ?_⟩
  · cases hx : w.entity? y with
    | none => exact List.nodup_nil
    | some x =>
      have hkeys := (hw.entities y x hx).keywords
      have hids : x.inputs.map (fun i => (⟨y, i.keyword⟩ : InputId)) =
          (x.inputs.map (·.keyword)).map (InputId.mk y) := by
        rw [List.map_map]
        rfl
      dsimp only
      rw [hids]
      exact hkeys.map fun k k' hk => congrArg InputId.keyword hk
  · -- the inputs of different entities differ
    intro id hid hid'
    dsimp only at hid hid'
    split at hid
    · split at hid'
      · obtain ⟨i, -, rfl⟩ := List.mem_map.1 hid
        obtain ⟨i', -, heq⟩ := List.mem_map.1 hid'
        exact hne (congrArg InputId.entity heq).symm
      · cases hid'
    · cases hid

/-! ## Killing -/

/-- What killing an entity does: it leaves the registry, the entities that stay let go of it in all
inputs, and what changed are exactly their inputs that referred to it, in order. -/
structure Killed (e : EntityId) (w w' : World) (changed : List InputId) : Prop where
  registry_eq : w'.registry = w.registry.filter (·.2 != e)
  not_registered : e ∉ w'.registered
  entity?_eq : ∀ y, w'.entity? y =
    if y ∈ w'.registered then (w.entity? y).map (Entity.letGo e) else w.entity? y
  not_mentioned : ∀ y ∈ w'.registered, ∀ x, w'.entity? y = some x →
    ∀ i ∈ x.inputs, e ∉ i.mentions
  changed_eq : changed = w'.registeredInputs.filter (w.refers e)
  nodup_changed : changed.Nodup
  palette_eq : w'.palette = w.palette
  settings_eq : w'.settings = w.settings
  attributes_eq : w'.attributes = w.attributes
  recordsEdits_eq : w'.recordsEdits = w.recordsEdits

namespace Killed

variable {w' : World} {e y : EntityId} {changed : List InputId}

theorem mem_registered (h : w.Killed e w' changed) :
    y ∈ w'.registered ↔ y ≠ e ∧ y ∈ w.registered := by
  rw [registered, h.registry_eq, registered, List.mem_map, List.mem_map]
  constructor
  · rintro ⟨entry, hentry, rfl⟩
    obtain ⟨hentry, hne⟩ := List.mem_filter.1 hentry
    exact ⟨bne_iff_ne.1 hne, entry, hentry, rfl⟩
  · rintro ⟨hne, entry, hentry, rfl⟩
    exact ⟨entry, List.mem_filter.2 ⟨hentry, bne_iff_ne.2 hne⟩, rfl⟩

/-- The inputs of the entities that stay let go of the entity. -/
theorem input?_eq (h : w.Killed e w' changed) (id : InputId) :
    w'.input? id = if id.entity ∈ w'.registered then (w.input? id).map (Input.letGo e)
      else w.input? id := by
  rw [input?, h.entity?_eq, input?]
  split
  · cases w.entity? id.entity with
    | none => rfl
    | some x => exact x.input?_letGo e id.keyword
  · rfl

end Killed

theorem letGo_frame (e : EntityId) (w : World) (ids : List InputId) :
    (w.letGo e ids).registry = w.registry ∧ (w.letGo e ids).palette = w.palette ∧
      (w.letGo e ids).settings = w.settings ∧ (w.letGo e ids).attributes = w.attributes ∧
      (w.letGo e ids).recordsEdits = w.recordsEdits := by
  induction ids generalizing w with
  | nil => exact ⟨rfl, rfl, rfl, rfl, rfl⟩
  | cons id ids ih => exact ih (w.updateInput id (Input.letGo e))

theorem WellFormed.unregister (hw : w.WellFormed) (he : e ∈ w.registered) :
    (w.unregister e).WellFormed ∧
      w.unregister e = { w with registry := w.registry.filter (·.2 != e) } := by
  have heq : w.unregister e = { w with registry := w.registry.filter (·.2 != e) } := by
    rw [World.unregister, if_pos (hw.isRegistered he), hw.withoutName_eq he]
  refine ⟨?_, heq⟩
  rw [heq]
  exact {
    palette := hw.palette
    entities := hw.entities
    names := hw.names.sublist (List.filter_sublist.map _)
    registered := fun name y hmem => hw.registered name y (List.mem_of_mem_filter hmem) }

theorem registeredInputs_eq_of_keywords {w' : World} (hregistry : w'.registry = w.registry)
    (hkeywords : ∀ y, (w'.entity? y).map (·.inputs.map (·.keyword)) =
      (w.entity? y).map (·.inputs.map (·.keyword))) :
    w'.registeredInputs = w.registeredInputs := by
  unfold registeredInputs registered
  rw [hregistry]
  refine List.flatMap_congr fun y _ => ?_
  have hy := hkeywords y
  cases hx : w.entity? y with
  | none =>
    rw [hx] at hy
    rw [Option.map_eq_none_iff.1 hy]
  | some x =>
    rw [hx] at hy
    obtain ⟨x', hx', hkeys⟩ := Option.map_eq_some_iff.1 hy
    rw [hx']
    have hids := congrArg (List.map (InputId.mk y)) hkeys
    rw [List.map_map, List.map_map] at hids
    exact hids

/-- The entities that are registered let go of the entity, and no others. -/
theorem WellFormed.entity?_letGo (hw : w.WellFormed) (e y : EntityId) :
    (w.letGo e w.registeredInputs).entity? y =
      if y ∈ w.registered then (w.entity? y).map (Entity.letGo e) else w.entity? y := by
  rw [World.entity?_letGo hw.nodup_registeredInputs]
  cases hx : w.entity? y with
  | none =>
    split
    · rfl
    · rfl
  | some x =>
    rw [Option.map_some, Option.map_some, Entity.letGo]
    split
    · next hy =>
      refine congrArg some (congrArg (fun is => { x with inputs := is }) ?_)
      refine List.map_congr_left fun i hi => if_pos ?_
      exact mem_registeredInputs.2 ⟨hy, x, hx, i, hi, rfl⟩
    · next hy =>
      refine congrArg some (congrArg (fun is => { x with inputs := is }) ?_)
      refine (List.map_congr_left fun i _ => if_neg ?_).trans (List.map_id x.inputs)
      exact fun hmem => hy (mem_registeredInputs.1 hmem).1

/-- A world whose registered entities let go of an entity is well formed, and none of them refers to
the entity any more. -/
theorem WellFormed.letGo (hw : w.WellFormed) (e : EntityId) :
    (w.letGo e w.registeredInputs).WellFormed ∧
      ∀ y ∈ w.registered, ∀ x, (w.letGo e w.registeredInputs).entity? y = some x →
        ∀ i ∈ x.inputs, e ∉ i.mentions := by
  obtain ⟨hregistry, hpalette, -⟩ := letGo_frame e w w.registeredInputs
  refine ⟨⟨?_, ?_, ?_, ?_⟩, ?_⟩
  · rw [hpalette]
    exact hw.palette
  · intro y x hx
    rw [hw.entity?_letGo] at hx
    split at hx
    · obtain ⟨x₀, hx₀, rfl⟩ := Option.map_eq_some_iff.1 hx
      exact (hw.entities y x₀ hx₀).letGo e
    · exact hw.entities y x hx
  · rw [hregistry]
    exact hw.names
  · intro name y hmem
    rw [hregistry] at hmem
    obtain ⟨x, hx, hname, hns⟩ := hw.registered name y hmem
    refine ⟨x.letGo e, ?_, hname, hns⟩
    rw [hw.entity?_letGo, if_pos (mem_registered.2 ⟨name, hmem⟩), hx]
    rfl
  · intro y hy x hx i hi
    rw [hw.entity?_letGo, if_pos hy] at hx
    obtain ⟨x₀, hx₀, rfl⟩ := Option.map_eq_some_iff.1 hx
    obtain ⟨j, hj, rfl⟩ := List.mem_map.1 hi
    exact (((hw.entities y x₀ hx₀).inputs j hj).letGo e).2

/-- **Killing a registered entity succeeds**: the entity leaves the registry, and no input of the
entities that stay refers to it any more. -/
theorem WellFormed.kill (hw : w.WellFormed) (he : e ∈ w.registered) :
    (w.kill e).world.WellFormed ∧
      ∃ changed, (w.kill e).result = .ok changed ∧ w.Killed e (w.kill e).world changed := by
  obtain ⟨hw₁, heq⟩ := hw.unregister he
  generalize hw₁' : w.unregister e = w₁ at hw₁ heq
  have hfound : ∀ id ∈ w₁.registeredInputs, (w₁.input? id).isSome = true := by
    intro id hid
    obtain ⟨-, x, hx, i, hi, hkey⟩ := mem_registeredInputs.1 hid
    rw [input?, hx, ← hkey, Option.bind_some, (hw₁.entities _ x hx).input?_eq_some hi]
    rfl
  have hkill : w.kill e = ⟨w₁.letGo e w₁.registeredInputs,
      .ok (w₁.registeredInputs.filter (w₁.refers e))⟩ := by
    unfold World.kill
    rw [if_pos (hw.hasNamespace he), hw₁',
      hw₁.dropFromInputs_eq hw₁.nodup_registeredInputs hfound, List.nil_append]
  have hrefers : w₁.refers e = w.refers e := by
    rw [heq]
    rfl
  obtain ⟨hregistry, hpalette, hsettings, hattributes, hedits⟩ :=
    letGo_frame e w₁ w₁.registeredInputs
  have hinputs : (w₁.letGo e w₁.registeredInputs).registeredInputs = w₁.registeredInputs := by
    refine registeredInputs_eq_of_keywords hregistry fun y => ?_
    rw [hw₁.entity?_letGo]
    split
    · rw [Option.map_map]
      exact congrArg (Option.map · (w₁.entity? y)) (funext fun x => x.map_keyword_letGo e)
    · rfl
  obtain ⟨hwell, hnone⟩ := hw₁.letGo e
  have hregistered : (w₁.letGo e w₁.registeredInputs).registered = w₁.registered := by
    rw [World.registered, World.registered, hregistry]
  rw [hkill]
  refine ⟨hwell, _, rfl, ?_⟩
  exact {
    registry_eq := by rw [hregistry, heq]
    not_registered := by
      rw [hregistered, heq]
      intro hmem
      obtain ⟨name, hmem⟩ := mem_registered.1 hmem
      exact bne_iff_ne.1 (List.mem_filter.1 hmem).2 rfl
    entity?_eq := by
      intro y
      rw [hw₁.entity?_letGo, hregistered]
      have hy : w₁.entity? y = w.entity? y := by
        rw [heq]
        rfl
      rw [hy]
    not_mentioned := by
      rw [hregistered]
      exact hnone
    changed_eq := by rw [hinputs, hrefers]
    nodup_changed := hw₁.nodup_registeredInputs.filter _
    palette_eq := by rw [hpalette, heq]
    settings_eq := by rw [hsettings, heq]
    attributes_eq := by rw [hattributes, heq]
    recordsEdits_eq := by rw [hedits, heq] }

end World

end ModelInputs
