import ModelInputs.Proofs.Run.Growth
import ModelInputs.Proofs.Value.Within

/-!
# Values that are accepted

A value is accepted by an input if arguments may give it: it lies within the bounds of the kind, and
its entities exist, are of the class that is asked for and are not repeated where there are to be no
repetitions. A list of entities of which some are gone may be shorter than arguments may make it; all
that is asked of it otherwise is kept.

* `World.Accepts`: a value that arguments may give;
* **`World.readArguments_accepts`**: values that arguments give are accepted;
* `Remains`: what is left of a value when entities are gone;
* `InputKind.LongEnough`, `InputKind.withoutLeast`: the least number of entities in a list;
* **`World.Accepts.remains`**: what is left of a value is accepted, but for its length.
-/

namespace ModelInputs

/-- The classes that the value of an input must not be of. -/
def InputKind.excluded : InputKind → List TypeRef
  | .provider _ invalid => invalid
  | _ => []

/-- What is left of a value when entities are gone: the value, or a list without them. -/
inductive Remains (gone : EntityId → Prop) : Value → Value → Prop where
  | same {v : Value} : Remains gone v v
  | fewer {es es' : List EntityId} :
    es'.Sublist es → (∀ e ∈ es, e ∉ es' → gone e) →
    Remains gone (.ofEntities es) (.ofEntities es')

namespace World

/-! ## Values that are accepted -/

/-- The entity exists, and is of a class. -/
def IsOf (w : World) (e : EntityId) (type : TypeRef) : Prop :=
  (w.entity? e).isSome = true ∧ w.isInstance e type = true

/-- The entity exists, and has left the registry or has never been in it. -/
def Gone (w : World) (e : EntityId) : Prop :=
  (w.entity? e).isSome = true ∧ e ∉ w.registered

/-- A value is one that arguments may give an input of the kind: it lies within the bounds, and the
entities are as the kind asks them to be. -/
structure Accepts (w : World) (kind : InputKind) (v : Value) : Prop where
  within : kind.Within v
  holds : kind.Holds w.IsOf v
  excluded : ∀ e ∈ v.mentions, ∀ type ∈ kind.excluded, w.isInstance e type = false

end World

theorem InputKind.Within.fits {kind : InputKind} {v : Value} (h : kind.Within v) : kind.Fits v := by
  cases h <;> constructor

namespace Remains

variable {gone gone' : EntityId → Prop} {v v' : Value} {e : EntityId}

theorem mono (h : Remains gone v v') (hgone : ∀ e, gone e → gone' e) : Remains gone' v v' := by
  cases h with
  | same => exact .same
  | fewer hsub hmissing => exact .fewer hsub fun e he hout => hgone e (hmissing e he hout)

theorem mentions_subset (h : Remains gone v v') : v'.mentions ⊆ v.mentions := by
  cases h with
  | same => exact List.Subset.refl _
  | fewer hsub hmissing =>
    rw [Value.mentions_ofEntities, Value.mentions_ofEntities]
    exact hsub.subset

theorem ofEntities_injective {es es' : List EntityId} (h : Value.ofEntities es = .ofEntities es') :
    es = es' :=
  List.map_injective_iff.2 (fun _ _ => Value.entity.inj) (Value.list.inj h)

/-- Of a list of entities, a list is left. -/
theorem ofEntities {es : List EntityId} (h : Remains gone (.ofEntities es) v') :
    ∃ es', v' = .ofEntities es' ∧ es'.Sublist es ∧ ∀ e ∈ es, e ∉ es' → gone e := by
  generalize hv : Value.ofEntities es = v at h
  cases h with
  | same => exact ⟨es, hv.symm, .refl es, fun e he hout => absurd he hout⟩
  | @fewer es₁ es' hsub hmissing =>
    rw [ofEntities_injective hv]
    exact ⟨es', rfl, hsub, hmissing⟩

/-- Only lists of entities become shorter. -/
theorem eq_of_ne (h : Remains gone v v') (hv : ∀ e es, v ≠ .ofEntities (e :: es)) : v' = v := by
  cases h with
  | same => rfl
  | @fewer es es' hsub hmissing =>
    cases es with
    | nil => rw [List.sublist_nil.1 hsub]
    | cons e es => exact absurd rfl (hv e es)

/-- A list that has lost some entities loses one more. -/
theorem without {es : List EntityId} (h : Remains gone (.ofEntities es) v') (he : gone e) :
    Remains gone (.ofEntities es) (v'.without e) := by
  obtain ⟨es', rfl, hsub, hmissing⟩ := h.ofEntities
  rw [Value.without_ofEntities]
  refine .fewer (List.filter_sublist.trans hsub) fun y hy hout => ?_
  by_cases hy' : y ∈ es'
  · have hye : ¬ (y != e) = true := fun hne => hout (List.mem_filter.2 ⟨hy', hne⟩)
    rw [Bool.not_eq_true, bne_eq_false_iff_eq] at hye
    rwa [hye]
  · exact hmissing y hy hy'

end Remains

/-! ## Values -/

section

variable {w w' : World} {e : EntityId} {kind : InputKind} {v v' : Value}
  {gone gone' : EntityId → Prop}

/-- Entities that exist stay of their classes. -/
theorem World.Grows.isOf (h : w.Grows w') {type : TypeRef} (he : w.IsOf e type) :
    w'.IsOf e type := by
  obtain ⟨x, hx⟩ := Option.isSome_iff_exists.1 he.1
  obtain ⟨x', hx', -⟩ := h.className_eq e x hx
  exact ⟨by rw [hx']; rfl, (h.isInstance_eq hx type).trans he.2⟩

theorem World.Grows.isSome_entity? (h : w.Grows w') (he : (w.entity? e).isSome = true) :
    (w'.entity? e).isSome = true := by
  obtain ⟨x, hx⟩ := Option.isSome_iff_exists.1 he
  obtain ⟨x', hx', -⟩ := h.className_eq e x hx
  rw [hx']
  rfl

namespace World.Accepts

/-- A value that is accepted refers to entities that exist. -/
theorem isSome_entity? (h : w.Accepts kind v) (he : e ∈ v.mentions) :
    (w.entity? e).isSome = true := by
  rw [← kind.map_fst_held v] at he
  obtain ⟨x, hx, rfl⟩ := List.mem_map.1 he
  exact (h.holds.held x hx).1

/-- A value that refers to no entity is accepted if it lies within the bounds. -/
theorem of_mentions_eq_nil (hwithin : kind.Within v) (hv : v.mentions = []) : w.Accepts kind v where
  within := hwithin
  holds := .of_mentions_eq_nil hv
  excluded e he := by
    rw [hv] at he
    cases he

/-- A value that is accepted is so at any later time. -/
theorem grows (h : w.Accepts kind v) (hgrows : w.Grows w') : w'.Accepts kind v where
  within := h.within
  holds := h.holds.mono fun _ _ => hgrows.isOf
  excluded e he type htype := by
    obtain ⟨x, hx⟩ := Option.isSome_iff_exists.1 (h.isSome_entity? he)
    rw [hgrows.isInstance_eq hx]
    exact h.excluded e he type htype

/-- What is left of lists is left of an accepted value also when they lose one more entity: of lists
of lists, and of key lists, the value without the entity is accepted itself. -/
theorem without (h : w.Accepts kind v) (hleft : Remains gone v v')
    (hk : kind.isKeyList = true ∨ kind.isEntityList = true) (he : gone e) :
    ∃ u, w.Accepts kind u ∧ Remains gone u (v'.without e) := by
  have hholds := (h.holds.without (e := e) h.within.fits hk).mono fun _ _ => And.right
  have hwithin := h.within
  cases hwithin with
  | entities | interfaceEntities => exact ⟨_, h, hleft.without he⟩
  | @entityLists _ _ _ lists hcounts =>
    have heq : v' = .ofEntityLists lists := by
      refine hleft.eq_of_ne fun e es hlist => ?_
      cases lists with
      | nil => cases hlist
      | cons => cases hlist
    rw [heq]
    rw [Value.without_ofEntityLists] at hholds ⊢
    exact ⟨_, ⟨.entityLists (by rwa [List.length_map]), hholds, fun _ _ => nofun⟩, .same⟩
  | @keyLists _ _ _ lists =>
    rw [hleft.eq_of_ne nofun]
    rw [Value.without_map_keyEntries] at hholds ⊢
    exact ⟨_, ⟨.keyLists, hholds, fun _ _ => nofun⟩, .same⟩
  | _ => exact hk.elim nofun nofun

end World.Accepts

end

/-! ## Lists of entities -/

namespace InputKind

end InputKind

section

variable {w : World} {kind : InputKind} {v v' : Value} {gone : EntityId → Prop}

/-- The entities of a list are of a class, and no two are the same where they should differ. -/
def World.AreOf (w : World) (type : TypeRef) (unique : Bool) (es : List EntityId) : Prop :=
  (∀ e ∈ es, w.IsOf e type) ∧ (unique = true → es.Nodup)

theorem World.AreOf.sublist {type : TypeRef} {unique : Bool} {es es' : List EntityId}
    (h : w.AreOf type unique es) (hsub : es'.Sublist es) : w.AreOf type unique es' :=
  ⟨fun e he => h.1 e (hsub.subset he), fun hunique => (h.2 hunique).sublist hsub⟩

namespace World.Accepts

variable {type : TypeRef} {unique : Bool} {counts : CountRange} {es es' : List EntityId}

end World.Accepts

end

/-! ## Arguments -/

namespace World

variable {w : World} {this : Option EntityId} {i : Input} {a : Arguments} {v : Value}

/-- A provider is no entity of the classes that are excluded. -/
theorem readArguments_excluded (h : (w.readArguments this i a).Gives v) :
    ∀ e ∈ v.mentions, ∀ type ∈ i.kind.excluded, w.isInstance e type = false := by
  intro e he type htype
  cases hk : i.kind with
  | provider providerType invalid =>
    rw [hk] at htype
    simp only [readArguments, hk] at h
    obtain ⟨token, -, h⟩ := h.of_bind
    have hread := h.of_ofExcept
    unfold readProvider at hread
    split at hread
    · split at hread
      · next hvalid =>
        cases hread
        obtain ⟨-, hnone⟩ := Bool.and_eq_true_iff.1 hvalid
        rw [List.mem_singleton.1 he]
        rw [Bool.not_eq_true', List.any_eq_false] at hnone
        exact Bool.eq_false_iff.2 (hnone type htype)
      · cases hread
    · obtain ⟨exp, -, hread⟩ := bind_eq_ok.1 hread
      cases hread
      cases he
  | _ =>
    rw [hk] at htype
    cases htype

/-- **A value that arguments give an input is accepted.** -/
theorem readArguments_accepts (hprovides : w.Provides w.IsOf)
    (h : (w.readArguments this i a).Gives v) : w.Accepts i.kind v :=
  ⟨readArguments_within h, hprovides.readArguments h, readArguments_excluded h⟩

end World

end ModelInputs
