import ModelInputs.Proofs.Killing
import ModelInputs.Proofs.Run.Searching

/-!
# Faithful registration

Entities are created, registered, taken out of the registry, killed and renamed in any order, also
when they have been killed or taken out before, or have never been registered; keywords are applied
in between. At any time the registry has each of its entities once, under the valid name that the
entity carries. An operation that fails changes nothing, and killing never fails.

An operation on one entity leaves the registration of the others, with one exception: what is
registered under the name of an entity that is renamed leaves the registry. While the entity is
registered itself this is the entity; but an entity that has left the registry keeps its name, and
when another one has taken that name over by then, it is the other one that loses its registration.

* `World.RegistryOp`, `World.perform`: the operations, and what they leave;
* `World.RegistryReached`: the worlds that they lead to;
* `World.Faithful`: what holds at any time;
* **`World.Faithful.perform`**, **`World.RegistryReached.faithful`**: every operation keeps it;
* `World.Ousts`: the exception;
* **`World.registry_exact`**: what an operation does to the registration of others;
* **`World.not_forall_registration_kept`**: the exception occurs.
-/

namespace ModelInputs

/-- The inputs that the classes declare are not set. -/
def Palette.IsUnset (p : Palette) : Prop :=
  ∀ className, ∀ i ∈ p.inputs className, i.reset = i

theorem Palette.IsPlain.isUnset {p : Palette} (hp : p.IsPlain) : p.IsUnset :=
  fun className i hi => (hp.inputs className i hi).reset_eq

namespace World

/-! ## Operations -/

/-- An operation on the registry. -/
inductive RegistryOp where
  | create (className name : String) (loose : Bool)
  | register (e : EntityId)
  | unregister (e : EntityId)
  | kill (e : EntityId)
  | rename (e : EntityId) (name : String)

/-- The entity that an operation is on; what is created comes behind all entities that exist. -/
def subject (w : World) : RegistryOp → EntityId
  | .create .. => ⟨w.entities.length⟩
  | .register e | .unregister e | .kill e | .rename e _ => e

/-- The entity that an operation is on exists, unless it is created. -/
def Applies (w : World) : RegistryOp → Prop
  | .create .. => True
  | .register e | .unregister e | .kill e | .rename e _ => (w.entity? e).isSome = true

/-- What an operation leaves: the world, and the failure if there is one. -/
structure Performed where
  world : World
  failure : Option Failure

/-- What a result leaves, where a failure leaves the world as it was. -/
def performed (w : World) : Except Failure World → Performed
  | .ok w' => ⟨w', none⟩
  | .error failure => ⟨w, some failure⟩

/-- An operation is done. -/
def perform (w : World) : RegistryOp → Performed
  | .create className name loose => w.performed ((w.create? className name loose).map (·.1))
  | .register e => w.performed (w.register? e)
  | .unregister e => ⟨w.unregister e, none⟩
  | .kill e =>
    match (w.kill e).result with
    | .ok _ => ⟨(w.kill e).world, none⟩
    | .error failure => ⟨(w.kill e).world, some failure⟩
  | .rename e name => w.performed (w.rename? e name)

/-- What holds of a world and of every world that an operation leads to, whether or not the operation
ends well, holds of what it leaves. -/
theorem perform_induction {P : World → Prop} {w : World} (hw : P w)
    (hcreate : ∀ className name loose w' e,
      w.create? className name loose = .ok (w', e) → P w')
    (hregister : ∀ e w', w.register? e = .ok w' → P w') (hunregister : ∀ e, P (w.unregister e))
    (hkill : ∀ e, P (w.kill e).world) (hrename : ∀ e name w', w.rename? e name = .ok w' → P w')
    (op : RegistryOp) : P (w.perform op).world := by
  have hresult {r : Except Failure World} (h : ∀ w', r = .ok w' → P w') :
      P (w.performed r).world := by
    cases r with
    | ok w' => exact h w' rfl
    | error f => exact hw
  cases op with
  | create className name loose =>
    refine hresult fun w' h => ?_
    obtain ⟨⟨w'', e⟩, hnew, rfl⟩ := map_eq_ok.1 h
    exact hcreate className name loose w'' e hnew
  | register e => exact hresult (hregister e)
  | unregister e => exact hunregister e
  | kill e =>
    unfold perform
    dsimp only
    split
    · exact hkill e
    · exact hkill e
  | rename e name => exact hresult (hrename e name)

/-- One thing that is done to a model: an operation on the registry, a new input, or keywords. -/
inductive RegistryStep : World → World → Prop where
  | perform {w : World} {op : RegistryOp} : w.Applies op → RegistryStep w (w.perform op).world
  | addInput {w w' : World} {e : EntityId} {i : Input} :
    i.reset = i → w.addInput? e i = .ok w' → RegistryStep w w'
  | apply {w : World} {e : EntityId} {items : List Arguments} :
    RegistryStep w (w.applyItems e [] [] items).world

/-- The world is reached from an empty one of the classes. -/
def RegistryReached (p : Palette) (w : World) : Prop :=
  ∃ settings recordsEdits, Relation.ReflTransGen RegistryStep
    { palette := p, settings := settings, recordsEdits := recordsEdits } w

/-! ## Faithful registries -/

/-- The registry has every name once, for an entity that carries it; all names are valid, and all
inputs can be searched. -/
structure Faithful (w : World) : Prop where
  palette : w.palette.IsUnset
  inputs : w.InputsAll Input.Searchable
  valid : ∀ y, (w.entity? y).isSome = true → isValidName (w.nameOf y) = true
  names : (w.registry.map (·.1)).Nodup
  entries : ∀ name y, (name, y) ∈ w.registry → (w.entity? y).isSome = true ∧ w.nameOf y = name

variable {w w' : World} {e y : EntityId} {name : String}

namespace Faithful

theorem named?_eq_some_iff (hw : w.Faithful) : w.named? name = some y ↔ (name, y) ∈ w.registry := by
  refine ⟨mem_registry_of_named?, fun hmem => ?_⟩
  obtain ⟨y', hy'⟩ := Option.isSome_iff_exists.1
    (List.lookup_isSome_iff.2 ⟨_, hmem, beq_self_eq_true name⟩)
  have heq := List.inj_on_of_nodup_map hw.names (mem_registry_of_named? hy') hmem rfl
  rw [← (Prod.mk.inj heq).2]
  exact hy'

/-- A registered entity is found by its name. -/
theorem named?_nameOf (hw : w.Faithful) (he : e ∈ w.registered) :
    w.named? (w.nameOf e) = some e := by
  obtain ⟨name, hentry⟩ := mem_registered.1 he
  rw [(hw.entries name e hentry).2]
  exact hw.named?_eq_some_iff.2 hentry

/-- **No entity is registered under two names.** -/
theorem nodup_registered (hw : w.Faithful) : w.registered.Nodup := by
  refine List.Nodup.map_on ?_ (List.Nodup.of_map _ hw.names)
  rintro ⟨name, y⟩ h ⟨name', y'⟩ h' rfl
  rw [← (hw.entries name y h).2, ← (hw.entries name' y h').2]

/-- The entities and the registry are as they were. -/
theorem of_sameEntities (hw : w.Faithful) (h : w.SameEntities w')
    (hinputs : w'.InputsAll Input.Searchable) : w'.Faithful where
  palette := h.palette_eq ▸ hw.palette
  inputs := hinputs
  valid y hy := by
    rw [h.nameOf_eq]
    exact hw.valid y (by rwa [← h.isSome_entity?_eq])
  names := h.registry_eq ▸ hw.names
  entries name y hmem := by
    rw [h.isSome_entity?_eq, h.nameOf_eq]
    exact hw.entries name y (h.registry_eq ▸ hmem)

/-- Entities leave the registry. -/
theorem leave (hw : w.Faithful) {registry : List (String × EntityId)}
    (hsub : registry.Sublist w.registry) : ({ w with registry := registry } : World).Faithful where
  palette := hw.palette
  inputs := hw.inputs
  valid := hw.valid
  names := hw.names.sublist (hsub.map _)
  entries name y hmem := hw.entries name y (hsub.subset hmem)

/-- An entity enters what is left of the registry under its name, where neither is in use. -/
theorem enter (hw : w.Faithful) {registry : List (String × EntityId)}
    (hsub : registry.Sublist w.registry) (hfree : name ∉ w.registry.map (·.1))
    (hout : e ∉ registry.map (·.2)) (hvalid : isValidName name = true) {x : Entity}
    (hx : w.entity? e = some x) {f : Entity → Entity} (hinputs : ∀ y, (f y).inputs = y.inputs)
    (hname : (f x).name = name) :
    (({ w with registry := registry ++ [(name, e)] } : World).updateEntity e f).Faithful := by
  have hentity (y : EntityId) :
      (({ w with registry := registry ++ [(name, e)] } : World).updateEntity e f).entity? y =
        if e = y then (w.entity? y).map f else w.entity? y :=
    entity?_updateEntity _ e y f
  have hnameOf (y : EntityId) :
      (({ w with registry := registry ++ [(name, e)] } : World).updateEntity e f).nameOf y =
        if e = y then name else w.nameOf y := by
    rw [nameOf, hentity]
    split
    · next hy =>
      rw [← hy, hx, ← hname]
      rfl
    · rfl
  have hexists (y : EntityId) :
      ((({ w with registry := registry ++ [(name, e)] } : World).updateEntity e f).entity? y).isSome =
        (w.entity? y).isSome := by
    rw [hentity]
    split
    · exact Option.isSome_map
    · rfl
  refine ⟨hw.palette, ?_, ?_, ?_, ?_⟩
  · intro id i hi
    rw [input?_updateEntity w _ e hinputs] at hi
    exact hw.inputs id i hi
  · intro y hy
    rw [hexists] at hy
    rw [hnameOf]
    split
    · exact hvalid
    · exact hw.valid y hy
  · show ((registry ++ [(name, e)]).map (·.1)).Nodup
    rw [List.map_append, List.map_singleton, ← List.concat_eq_append]
    exact (hw.names.sublist (hsub.map _)).concat fun hmem => hfree ((hsub.map _).subset hmem)
  · intro name' y hmem
    rw [hexists, hnameOf]
    obtain hold | hnew := List.mem_append.1 hmem
    · rw [if_neg fun heq => hout (List.mem_map.2 ⟨_, hold, heq.symm⟩)]
      exact hw.entries name' y (hsub.subset hold)
    · obtain ⟨rfl, rfl⟩ := Prod.mk.inj (List.mem_singleton.1 hnew)
      rw [if_pos rfl, hx]
      exact ⟨rfl, rfl⟩

/-- A new entity, which is not registered yet. -/
theorem append (hw : w.Faithful) (className : String) (hvalid : isValidName name = true) :
    ({ w with entities := w.entities ++ [w.newEntity className name] } : World).Faithful where
  palette := hw.palette
  inputs id i hi := by
    rw [input?_append] at hi
    split at hi
    · have hunset := hw.palette className i (List.mem_of_find?_eq_some hi)
      rw [← hunset]
      exact i.searchable_reset
    · exact hw.inputs id i hi
  valid y hy := by
    rw [entity?_append] at hy
    rw [nameOf, entity?_append]
    split
    · exact hvalid
    · next hne =>
      rw [if_neg hne] at hy
      exact hw.valid y hy
  names := hw.names
  entries name' y hmem := by
    obtain ⟨hy, hname⟩ := hw.entries name' y hmem
    have hne : y.index ≠ w.entities.length := by
      obtain ⟨x, hx⟩ := Option.isSome_iff_exists.1 hy
      exact Nat.ne_of_lt (List.getElem?_eq_some_iff.1 hx).1
    rw [nameOf, entity?_append, if_neg hne]
    exact ⟨hy, hname⟩

/-! ### The operations -/

theorem register (hw : w.Faithful) (he : (w.entity? e).isSome = true)
    (h : w.register? e = .ok w') : w'.Faithful := by
  obtain ⟨hfree, rfl⟩ := register?_eq_ok h
  have hnew := not_mem_names hfree
  obtain ⟨x, hx⟩ := Option.isSome_iff_exists.1 he
  refine hw.enter (List.Sublist.refl _) hnew ?_ (hw.valid e he) hx (fun _ => rfl) ?_
  · intro hmem
    obtain ⟨⟨name, y⟩, hentry, rfl⟩ := List.mem_map.1 hmem
    exact hnew (List.mem_map.2 ⟨_, hentry, (hw.entries name y hentry).2.symm⟩)
  · rw [nameOf, hx]
    rfl

theorem create (hw : w.Faithful) {className : String} {loose : Bool}
    (h : w.create? className name loose = .ok (w', e)) : w'.Faithful := by
  obtain ⟨hvalid, rfl, hcreated⟩ := create?_cases h
  have happend := hw.append className hvalid
  obtain ⟨-, rfl⟩ | ⟨-, hregister⟩ := hcreated
  · exact happend
  · refine happend.register ?_ hregister
    rw [entity?_append, if_pos rfl]
    rfl

theorem unregister (hw : w.Faithful) (e : EntityId) : (w.unregister e).Faithful := by
  unfold World.unregister
  split
  · exact hw.leave List.filter_sublist
  · exact hw

theorem isSome_entity? (hw : w.Faithful) (he : e ∈ w.registered) :
    (w.entity? e).isSome = true := by
  obtain ⟨name, hmem⟩ := mem_registered.1 he
  exact (hw.entries name e hmem).1

/-- A registered entity leaves the registry with its name. -/
theorem registry_unregister (hw : w.Faithful) (he : e ∈ w.registered) :
    (w.unregister e).registry = w.withoutName (w.nameOf e) := by
  obtain ⟨name, hmem⟩ := mem_registered.1 he
  have hregistered : w.isRegistered e = true := by
    rw [isRegistered, (hw.entries name e hmem).2, hw.named?_eq_some_iff.2 hmem]
    exact beq_self_eq_true _
  rw [World.unregister, if_pos hregistered]

/-- Without its name, the registry is without the entity that carries the name. -/
theorem not_mem_withoutName (hw : w.Faithful) (e : EntityId) :
    e ∉ (w.withoutName (w.nameOf e)).map (·.2) := by
  intro hmem
  obtain ⟨⟨name, y⟩, hentry, rfl⟩ := List.mem_map.1 hmem
  obtain ⟨hentry, hne⟩ := List.mem_filter.1 hentry
  exact bne_iff_ne.1 hne (hw.entries name y hentry).2.symm

theorem rename (hw : w.Faithful) (he : (w.entity? e).isSome = true)
    (h : w.rename? e name = .ok w') : w'.Faithful := by
  obtain ⟨hvalid, hfree, rfl⟩ := rename?_eq_ok h
  obtain ⟨x, hx⟩ := Option.isSome_iff_exists.1 he
  exact hw.enter List.filter_sublist (not_mem_names hfree) (hw.not_mem_withoutName e) hvalid hx (fun _ => rfl) rfl

/-- **Killing never fails.** -/
theorem kill (hw : w.Faithful) (e : EntityId) :
    (∃ changed, (w.kill e).result = .ok changed) ∧ (w.kill e).world.Faithful ∧
      (w.kill e).world.registry =
        if w.hasNamespace (some e) then (w.unregister e).registry else w.registry := by
  obtain ⟨hresult, hinputs, hsame⟩ :=
    hw.inputs.kill (e := e) (fun _ => id) fun _ _ => Input.Searchable.loses
  refine ⟨hresult, of_sameEntities ?_ hsame hinputs, ?_⟩
  · split
    · exact hw.unregister e
    · exact hw
  · rw [hsame.registry_eq]
    split
    · rfl
    · rfl

/-- **Every operation keeps the registry faithful, and one that fails changes nothing.** -/
theorem perform (hw : w.Faithful) {op : RegistryOp} (hop : w.Applies op) :
    (w.perform op).world.Faithful ∧
      ((w.perform op).failure.isSome = true → (w.perform op).world = w) := by
  have hresult {r : Except Failure World} (h : ∀ w', r = .ok w' → w'.Faithful) :
      (w.performed r).world.Faithful ∧
        ((w.performed r).failure.isSome = true → (w.performed r).world = w) := by
    cases r with
    | ok w' => exact ⟨h w' rfl, nofun⟩
    | error failure => exact ⟨hw, fun _ => rfl⟩
  cases op with
  | create className name loose =>
    refine hresult fun w' h => ?_
    obtain ⟨⟨w₁, e⟩, hcreate, rfl⟩ := map_eq_ok.1 h
    exact hw.create hcreate
  | register e => exact hresult fun w' h => hw.register hop h
  | unregister e => exact ⟨hw.unregister e, nofun⟩
  | kill e =>
    obtain ⟨⟨changed, hchanged⟩, hfaithful, -⟩ := hw.kill e
    rw [World.perform, hchanged]
    exact ⟨hfaithful, nofun⟩
  | rename e name => exact hresult fun w' h => hw.rename hop h

end Faithful

/-! ## Other entities -/

/-- The operation gives an entity a new name while another one is registered under its old one. -/
def Ousts (w : World) (op : RegistryOp) (y : EntityId) : Prop :=
  ∃ e name, op = .rename e name ∧ (w.perform op).failure = none ∧ y ≠ e ∧
    w.named? (w.nameOf e) = some y

/-- Behind the entries that are left, an entity that enters is the only one that is added. -/
theorem mem_append_entry {registry : List (String × EntityId)} {n : String} (hy : y ≠ e) :
    (n, y) ∈ registry ++ [(name, e)] ↔ (n, y) ∈ registry := by
  rw [List.mem_append, List.mem_singleton, Prod.mk.injEq]
  exact or_iff_left fun h => hy h.2

/-- Only an entity that is registered under a name leaves the registry with that name. -/
theorem Faithful.mem_registry_unregister (hw : w.Faithful) {n : String} (hy : y ≠ e) :
    (n, y) ∈ (w.unregister e).registry ↔ (n, y) ∈ w.registry := by
  unfold World.unregister
  split
  · next hregistered =>
    refine List.mem_filter.trans (and_iff_left_of_imp fun hmem => bne_iff_ne.2 ?_)
    rintro rfl
    have hnamed := hw.named?_eq_some_iff.2 hmem
    rw [beq_iff_eq.1 hregistered] at hnamed
    exact hy (Option.some.inj hnamed).symm
  · exact Iff.rfl

theorem Faithful.mem_registry_rename (hw : w.Faithful) {n : String} (hy : y ≠ e)
    (h : w.rename? e name = .ok w') :
    (n, y) ∈ w'.registry ↔ (n, y) ∈ w.registry ∧ ¬ w.named? (w.nameOf e) = some y := by
  rw [(rename?_eq_ok h).2.2]
  refine (mem_append_entry hy).trans (List.mem_filter.trans (and_congr_right fun hmem => ?_))
  rw [bne_iff_ne, not_iff_not, hw.named?_eq_some_iff]
  constructor
  · rintro rfl
    exact hmem
  · intro hold
    rw [← (hw.entries n y hmem).2, (hw.entries _ y hold).2]

/-- A new entity leaves the registration of the others. -/
theorem mem_registry_create {className n : String} {loose : Bool} (hy : y ≠ e)
    (h : w.create? className name loose = .ok (w', e)) :
    (n, y) ∈ w'.registry ↔ (n, y) ∈ w.registry := by
  obtain ⟨-, ⟨-, rfl⟩ | rfl⟩ := create?_eq_ok h
  · exact Iff.rfl
  · exact mem_append_entry hy

/-- **What an operation does to the registration of others**: it leaves it, unless it ousts them. -/
theorem Faithful.mem_registry_perform (hw : w.Faithful) (op : RegistryOp)
    (hy : y ≠ w.subject op) {n : String} :
    (n, y) ∈ (w.perform op).world.registry ↔ (n, y) ∈ w.registry ∧ ¬ w.Ousts op y := by
  -- only a new name ousts another entity
  have hkept (hop : ∀ e name, op ≠ .rename e name)
      (h : (n, y) ∈ (w.perform op).world.registry ↔ (n, y) ∈ w.registry) :
      (n, y) ∈ (w.perform op).world.registry ↔ (n, y) ∈ w.registry ∧ ¬ w.Ousts op y := by
    rw [h, and_iff_left]
    rintro ⟨e, name, heq, -⟩
    exact hop e name heq
  cases op with
  | create className name loose =>
    refine hkept nofun ?_
    rw [World.perform]
    cases h : w.create? className name loose with
    | error failure => exact Iff.rfl
    | ok r =>
      obtain ⟨w', e⟩ := r
      obtain rfl := (create?_eq_ok h).1
      exact mem_registry_create hy h
  | register e =>
    refine hkept nofun ?_
    rw [World.perform]
    cases h : w.register? e with
    | error failure => exact Iff.rfl
    | ok w' =>
      obtain ⟨-, rfl⟩ := register?_eq_ok h
      exact mem_append_entry hy
  | unregister e => exact hkept nofun (hw.mem_registry_unregister hy)
  | kill e =>
    refine hkept nofun ?_
    obtain ⟨⟨changed, hchanged⟩, -, hregistry⟩ := hw.kill e
    rw [World.perform, hchanged]
    dsimp only
    rw [hregistry]
    split
    · exact hw.mem_registry_unregister hy
    · exact Iff.rfl
  | rename e name =>
    have housts : w.Ousts (.rename e name) y ↔
        (w.perform (.rename e name)).failure = none ∧ w.named? (w.nameOf e) = some y := by
      constructor
      · rintro ⟨_, _, ⟨⟩, hfailure, -, hnamed⟩
        exact ⟨hfailure, hnamed⟩
      · rintro ⟨hfailure, hnamed⟩
        exact ⟨e, name, rfl, hfailure, hy, hnamed⟩
    rw [housts, World.perform]
    cases h : w.rename? e name with
    | error failure => exact (and_iff_left fun h => nomatch h.1).symm
    | ok w' =>
      refine (hw.mem_registry_rename hy h).trans (and_congr_right fun _ => not_congr ?_)
      exact (and_iff_right rfl).symm

/-! ## Runs -/

/-- **Every step keeps the registry faithful.** -/
theorem RegistryStep.faithful (h : RegistryStep w w') (hw : w.Faithful) : w'.Faithful := by
  cases h with
  | perform hop => exact (hw.perform hop).1
  | @addInput _ e i hi h =>
    have hsearchable := i.searchable_reset
    rw [hi] at hsearchable
    have hinputs := hw.inputs.addInput hsearchable h
    obtain ⟨-, rfl⟩ := addInput?_eq_ok h
    exact hw.of_sameEntities (.updateEntity w _ fun _ => ⟨rfl, rfl, rfl⟩) hinputs
  | apply =>
    exact hw.of_sameEntities (.of_changesOnly (applyItems_keywordsChange w _ _ _ _))
      (hw.inputs.searchable_applyItems _ _ _)

/-- **Every registry that is reached is faithful.** -/
theorem RegistryReached.faithful {p : Palette} (hp : p.IsUnset) (h : RegistryReached p w) :
    w.Faithful := by
  obtain ⟨settings, recordsEdits, h⟩ := h
  induction h with
  | refl =>
    refine ⟨hp, fun id i hi => ?_, fun y hy => ?_, List.nodup_nil, fun _ _ hmem => nomatch hmem⟩
    · obtain ⟨x, hx, -⟩ := Option.bind_eq_some_iff.1 hi
      cases hx
    · obtain ⟨x, hx⟩ := Option.isSome_iff_exists.1 hy
      cases hx
  | tail _ hstep ih => exact hstep.faithful ih

/-- **What the registry says is so, and an operation changes the registration of no other entity
than one that it ousts.** However entities have been created, registered, taken out, killed and
renamed, a name that is registered is a valid one, of one entity that carries it, and no entity is
registered twice; an operation that fails changes nothing; and what is registered under a name
afterwards, other than the entity that the operation is on, is what was so before, unless it was
registered under the name of an entity that has got a new one. -/
theorem registry_exact {p : Palette} (hp : p.IsUnset) (hw : RegistryReached p w) :
    (∀ name y, w.named? name = some y →
      (w.entity? y).isSome = true ∧ w.nameOf y = name ∧ isValidName name = true) ∧
    w.registered.Nodup ∧
    ∀ op, w.Applies op →
      ((w.perform op).failure.isSome = true → (w.perform op).world = w) ∧
      ∀ y, y ≠ w.subject op → ∀ name,
        (w.perform op).world.named? name = some y ↔ w.named? name = some y ∧ ¬ w.Ousts op y := by
  have hfaithful := hw.faithful hp
  refine ⟨fun name y hnamed => ?_, hfaithful.nodup_registered, fun op hop => ?_⟩
  · obtain ⟨hy, hname⟩ := hfaithful.entries name y (mem_registry_of_named? hnamed)
    exact ⟨hy, hname, hname ▸ hfaithful.valid y hy⟩
  · obtain ⟨hafter, hfailed⟩ := hfaithful.perform hop
    refine ⟨hfailed, fun y hy name => ?_⟩
    rw [hafter.named?_eq_some_iff, hfaithful.named?_eq_some_iff]
    exact hfaithful.mem_registry_perform op hy

/-- A node that was killed, and another one that has its name. -/
def reusedName : World where
  palette := nodes
  entities := [
    { name := "A", className := "Node", inNamespace := true, inputs := nodes.inputs "Node" },
    { name := "A", className := "Node", inNamespace := true, inputs := nodes.inputs "Node" }]
  registry := [("A", ⟨1⟩)]

theorem reusedName_reached : RegistryReached nodes reusedName := by
  have hfirst : RegistryStep { palette := nodes } oneNode :=
    @RegistryStep.perform _ (.create "Node" "A" false) trivial
  have hkilled : RegistryStep oneNode (oneNode.kill ⟨0⟩).world :=
    @RegistryStep.perform _ (.kill ⟨0⟩) rfl
  have hsecond : RegistryStep (oneNode.kill ⟨0⟩).world reusedName :=
    @RegistryStep.perform _ (.create "Node" "A" false) trivial
  exact ⟨{}, false, .tail (.tail (.tail .refl hfirst) hkilled) hsecond⟩

theorem registry_exact_reusedName :
    reusedName.nameOf ⟨1⟩ = "A" ∧ isValidName "A" = true ∧ reusedName.registered.Nodup ∧
      (reusedName.perform (.kill ⟨0⟩)).world.named? "A" = some ⟨1⟩ ∧
      (reusedName.perform (.rename ⟨0⟩ "B")).world.named? "A" ≠ some ⟨1⟩ := by
  obtain ⟨hnamed, hnodup, hop⟩ := registry_exact nodes_isPlain.isUnset reusedName_reached
  obtain ⟨-, hname, hvalid⟩ := hnamed "A" ⟨1⟩ rfl
  have hne : (⟨1⟩ : EntityId) ≠ ⟨0⟩ := by decide
  refine ⟨hname, hvalid, hnodup, ?_, fun hkept => ?_⟩
  · refine ((hop (.kill ⟨0⟩) rfl).2 ⟨1⟩ hne "A").2 ⟨rfl, ?_⟩
    rintro ⟨_, _, ⟨⟩, -⟩
  · obtain ⟨-, hnot⟩ := ((hop (.rename ⟨0⟩ "B") rfl).2 ⟨1⟩ hne "A").1 hkept
    exact hnot ⟨⟨0⟩, "B", rfl, rfl, hne, rfl⟩

/-- Operations on one entity do not always leave the registration of all others: a name that is
given to a node that was killed takes another node, which has the old name now, out of the
registry. -/
theorem not_forall_registration_kept :
    ¬ ∀ (p : Palette) (w : World), p.IsUnset → RegistryReached p w →
      ∀ op, w.Applies op → ∀ y, y ≠ w.subject op → ∀ name,
        (w.perform op).world.named? name = some y ↔ w.named? name = some y := by
  intro h
  have hkept := h nodes reusedName nodes_isPlain.isUnset reusedName_reached (.rename ⟨0⟩ "B") rfl
    ⟨1⟩ (by decide) "A"
  have hgone : (reusedName.perform (.rename ⟨0⟩ "B")).world.named? "A" = none := rfl
  rw [hgone] at hkept
  exact nomatch hkept.2 rfl

end World

end ModelInputs
