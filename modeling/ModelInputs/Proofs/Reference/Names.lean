import Mathlib.Data.List.Forall2
import Mathlib.Data.List.Nodup
import ModelInputs.Proofs.Reference.Mentions
import ModelInputs.Proofs.Outcome
import ModelInputs.Input.Assignment

/-!
# What names stand for

A name that is read as an entity is the name of one that is registered and of the class or interface
that is asked for; in a list it stands for the members of a group, or for the entity itself. Names
are accepted for a list exactly if what they stand for is of the class, and different where that is
asked for.

* `World.readEntity?_eq_ok`, `World.readInterface?_eq_ok`: single names;
* `World.StandsFor`: the entities that a name in a list stands for;
* **`World.readEntities_eq_ok`**, **`World.readInterfaces?_eq_ok`**: the names of a list.
-/

namespace ModelInputs

/-- What is read from each of some items is as the reading of one item ensures. -/
theorem forall_mem_of_forall₂ {α β : Type} {R : α → β → Prop} {P : β → Prop} {as : List α}
    {bs : List β} (h : List.Forall₂ R as bs) (hP : ∀ a b, R a b → P b) : ∀ b ∈ bs, P b := by
  induction h with
  | nil => exact nofun
  | cons hab _ ih => exact List.forall_mem_cons.2 ⟨hP _ _ hab, ih⟩

/-- From each of some items something is read. -/
theorem exists_mem_of_forall₂ {α β : Type} {R : α → β → Prop} {as : List α} {bs : List β}
    (h : List.Forall₂ R as bs) {a : α} (ha : a ∈ as) : ∃ b ∈ bs, R a b := by
  induction h with
  | nil => cases ha
  | cons hab _ ih =>
    obtain rfl | ha := List.mem_cons.1 ha
    · exact ⟨_, .head _, hab⟩
    · obtain ⟨b, hb, hab⟩ := ih ha
      exact ⟨b, .tail _ hb, hab⟩

namespace World

variable {w : World} {this : Option EntityId} {type : TypeRef} {name : String} {e : EntityId}

/-! ## Single names -/

theorem readNamed?_eq_ok :
    w.readNamed? this name = .ok e ↔ w.hasNamespace this = true ∧ w.named? name = some e := by
  unfold readNamed?
  split
  · next hns =>
    rw [and_iff_right hns]
    cases w.named? name with
    | none => exact iff_of_false nofun nofun
    | some e' =>
      constructor
      · rintro ⟨⟩
        rfl
      · rintro ⟨⟩
        rfl
  · next hns => exact iff_of_false nofun fun h => hns h.1

theorem findNamed?_eq_some :
    w.findNamed? this name = some e ↔ w.hasNamespace this = true ∧ w.named? name = some e := by
  unfold findNamed?
  split
  · next hns => rw [and_iff_right hns]
  · next hns => exact iff_of_false nofun fun h => hns h.1

theorem readEntity?_eq_ok :
    w.readEntity? this type name = .ok e ↔
      w.hasNamespace this = true ∧ w.named? name = some e ∧ w.isInstance e type = true := by
  rw [← and_assoc, ← readNamed?_eq_ok, readEntity?, bind_eq_ok]
  constructor
  · rintro ⟨e', he', h⟩
    split at h
    · next htype =>
      cases h
      exact ⟨he', htype⟩
    · cases h
  · rintro ⟨he, htype⟩
    exact ⟨e, he, if_pos htype⟩

theorem readInterface?_eq_ok :
    w.readInterface? this type name = .ok e ↔
      w.hasNamespace this = true ∧ w.named? name = some e ∧ w.isInstance e type = true := by
  rw [← and_assoc, ← readNamed?_eq_ok, readInterface?, bind_eq_ok]
  constructor
  · rintro ⟨e', he', h⟩
    split at h
    · next htype =>
      cases h
      exact ⟨he', htype⟩
    · cases h
  · rintro ⟨he, htype⟩
    exact ⟨e, he, if_pos htype⟩

/-- An entity is accepted as the relative one if the keyword does not lead back from it. -/
theorem readRelative_eq_ok {keyword : String} :
    w.readRelative this keyword type name = .ok e ↔
      w.readEntity? this type name = .ok e ∧
        w.leadsTo keyword this w.entities.length [] e = .ok false := by
  rw [readRelative, bind_eq_ok]
  constructor
  · rintro ⟨e', he', h⟩
    obtain ⟨back, hback, h⟩ := bind_eq_ok.1 h
    cases back with
    | true => cases h
    | false =>
      cases h
      exact ⟨mapError_eq_ok.1 he', hback⟩
  · rintro ⟨he, hback⟩
    exact ⟨e, mapError_eq_ok.2 he, bind_eq_ok.2 ⟨false, hback, rfl⟩⟩

/-! ## Lists -/

/-- The entities that a name stands for in a list of entities of a class: the members of a group,
unless groups are asked for, or the entity itself. -/
def StandsFor (w : World) (type : TypeRef) (name : String) (es : List EntityId) : Prop :=
  ∃ e, w.named? name = some e ∧ w.expand type e = .ok (es.map .entity)

variable {unique : Bool} {found es r : List EntityId} {names : List String}

/-- An entity that is added to a list without repetitions is refused exactly if it repeats one. -/
theorem not_repeats_iff (hfound : unique = true → found.Nodup) :
    ¬ (unique && found.contains e) = true ↔ (unique = true → (found ++ [e]).Nodup) := by
  rw [Bool.and_eq_true, List.contains_iff_mem, not_and]
  refine forall_congr' fun hunique => ?_
  constructor
  · intro hnew
    rw [← List.concat_eq_append]
    exact List.Nodup.concat hnew (hfound hunique)
  · intro hnodup hmem
    exact (List.nodup_append.1 hnodup).2.2 e hmem e (.head _) rfl

theorem addEntity?_eq_ok (hfound : unique = true → found.Nodup) :
    w.addEntity? type unique found e = .ok r ↔
      r = found ++ [e] ∧ w.isInstance e type = true ∧ (unique = true → r.Nodup) := by
  unfold addEntity?
  cases htype : w.isInstance e type with
  | false => exact iff_of_false nofun nofun
  | true =>
    have hnew := not_repeats_iff (e := e) hfound
    split
    · next hrefused => cases hrefused
    split
    · next hrepeats =>
      refine iff_of_false nofun ?_
      rintro ⟨rfl, -, hnodup⟩
      exact hnew.2 hnodup hrepeats
    · next hrepeats =>
      constructor
      · rintro ⟨⟩
        exact ⟨rfl, rfl, hnew.1 hrepeats⟩
      · rintro ⟨rfl, -, -⟩
        rfl

theorem addMembers_eq_ok {vs : List Value} (hfound : unique = true → found.Nodup) :
    vs.foldlM (w.addMember type unique) found = .ok r ↔
      ∃ es : List EntityId, vs = es.map .entity ∧ r = found ++ es ∧
        (∀ e ∈ es, w.isInstance e type = true) ∧ (unique = true → r.Nodup) := by
  induction vs generalizing found with
  | nil =>
    constructor
    · rintro ⟨⟩
      exact ⟨[], rfl, (List.append_nil _).symm, nofun, hfound⟩
    · rintro ⟨es, hes, rfl, -, -⟩
      rw [List.map_eq_nil_iff.1 hes.symm, List.append_nil]
      rfl
  | cons v vs ih =>
    rw [List.foldlM_cons, bind_eq_ok]
    constructor
    · rintro ⟨next, hnext, hrest⟩
      cases v with
      | entity e =>
        obtain ⟨rfl, hinstance, hnodup⟩ := (addEntity?_eq_ok hfound).1 (mapError_eq_ok.1 hnext)
        obtain ⟨es, rfl, rfl, hinstances, hall⟩ := (ih hnodup).1 hrest
        refine ⟨e :: es, rfl, ?_, List.forall_mem_cons.2 ⟨hinstance, hinstances⟩, hall⟩
        rw [List.append_assoc, List.singleton_append]
      | _ =>
        obtain ⟨_, -, ⟨⟩⟩ := bind_eq_ok.1 hnext
    · rintro ⟨es, hes, rfl, hinstances, hall⟩
      obtain ⟨e, es, rfl, rfl, rfl⟩ := List.map_eq_cons_iff.1 hes.symm
      obtain ⟨hinstance, hinstances⟩ := List.forall_mem_cons.1 hinstances
      have hnodup (h : unique = true) : (found ++ [e]).Nodup := by
        have hall' := hall h
        rw [← List.singleton_append, ← List.append_assoc] at hall'
        exact (List.nodup_append.1 hall').1
      refine ⟨found ++ [e], mapError_eq_ok.2 ((addEntity?_eq_ok hfound).2 ⟨rfl, hinstance, hnodup⟩),
        (ih hnodup).2 ⟨es, rfl, ?_, hinstances, hall⟩⟩
      rw [List.append_assoc, List.singleton_append]

theorem addNamed_eq_ok (hns : w.hasNamespace this = true) (hfound : unique = true → found.Nodup) :
    w.addNamed this type unique found name = .ok r ↔
      ∃ es, w.StandsFor type name es ∧ r = found ++ es ∧
        (∀ e ∈ es, w.isInstance e type = true) ∧ (unique = true → r.Nodup) := by
  rw [addNamed, bind_eq_ok]
  simp only [mapError_eq_ok, readNamed?_eq_ok, and_iff_right hns, bind_eq_ok,
    addMembers_eq_ok hfound, StandsFor]
  constructor
  · rintro ⟨e, he, _, hexpand, es, rfl, h⟩
    exact ⟨es, ⟨e, he, hexpand⟩, h⟩
  · rintro ⟨es, ⟨e, he, hexpand⟩, h⟩
    exact ⟨e, he, _, hexpand, es, rfl, h⟩

theorem addAllNamed_eq_ok (hns : w.hasNamespace this = true)
    (hfound : unique = true → found.Nodup) :
    names.foldlM (w.addNamed this type unique) found = .ok r ↔
      ∃ parts, List.Forall₂ (w.StandsFor type) names parts ∧ r = found ++ parts.flatten ∧
        (∀ e ∈ parts.flatten, w.isInstance e type = true) ∧ (unique = true → r.Nodup) := by
  induction names generalizing found with
  | nil =>
    constructor
    · rintro ⟨⟩
      exact ⟨[], .nil, (List.append_nil _).symm, nofun, hfound⟩
    · rintro ⟨parts, hparts, rfl, -, -⟩
      cases hparts
      rw [List.flatten_nil, List.append_nil]
      rfl
  | cons name names ih =>
    rw [List.foldlM_cons, bind_eq_ok]
    constructor
    · rintro ⟨next, hnext, hrest⟩
      obtain ⟨es, hstands, rfl, hinstance, hnodup⟩ := (addNamed_eq_ok hns hfound).1 hnext
      obtain ⟨parts, hparts, rfl, hinstances, hall⟩ := (ih hnodup).1 hrest
      refine ⟨es :: parts, .cons hstands hparts, ?_, ?_, hall⟩
      · rw [List.flatten_cons, List.append_assoc]
      · rw [List.flatten_cons, List.forall_mem_append]
        exact ⟨hinstance, hinstances⟩
    · rintro ⟨parts, hparts, hr, hinstances, hall⟩
      cases hparts with
      | @cons _ es _ parts hstands hparts =>
        rw [List.flatten_cons, List.forall_mem_append] at hinstances
        rw [List.flatten_cons, ← List.append_assoc] at hr
        have hnodup (h : unique = true) : (found ++ es).Nodup := by
          have hr' := hall h
          rw [hr] at hr'
          exact (List.nodup_append.1 hr').1
        exact ⟨found ++ es, (addNamed_eq_ok hns hfound).2 ⟨es, hstands, rfl, hinstances.1, hnodup⟩,
          (ih hnodup).2 ⟨parts, hparts, hr, hinstances.2, hall⟩⟩

/-- **The names of a list are accepted exactly if what they stand for is of the class**, and where
entities must be unique no two are the same. -/
theorem readEntities_eq_ok :
    w.readEntities this type unique names = .ok es ↔
      w.hasNamespace this = true ∧
        (∃ parts, List.Forall₂ (w.StandsFor type) names parts ∧ es = parts.flatten) ∧
        (∀ e ∈ es, w.isInstance e type = true) ∧ (unique = true → es.Nodup) := by
  unfold readEntities
  split
  · next hns =>
    rw [and_iff_right hns, addAllNamed_eq_ok hns fun _ => List.nodup_nil]
    simp only [List.nil_append]
    constructor
    · rintro ⟨parts, hparts, rfl, hinstances, hall⟩
      exact ⟨⟨parts, hparts, rfl⟩, hinstances, hall⟩
    · rintro ⟨⟨parts, hparts, rfl⟩, hinstances, hall⟩
      exact ⟨parts, hparts, rfl, hinstances, hall⟩
  · next hns => exact iff_of_false nofun fun h => hns h.1

theorem addInterfaces_eq_ok {a : Arguments} (hfound : unique = true → found.Nodup) :
    names.foldlM
        (fun found name => do
          let e ← w.readInterface? this type name
          if unique && found.contains e then refuseCommon .notUnique [w.nameOf e] a.origin
          else return found ++ [e])
        found = .ok r ↔
      ∃ es, List.Forall₂ (fun name e => w.readInterface? this type name = .ok e) names es ∧
        r = found ++ es ∧ (unique = true → r.Nodup) := by
  induction names generalizing found with
  | nil =>
    constructor
    · rintro ⟨⟩
      exact ⟨[], .nil, (List.append_nil _).symm, hfound⟩
    · rintro ⟨es, hes, rfl, -⟩
      cases hes
      rw [List.append_nil]
      rfl
  | cons name names ih =>
    rw [List.foldlM_cons, bind_eq_ok]
    constructor
    · rintro ⟨next, hnext, hrest⟩
      obtain ⟨e, he, hnext⟩ := bind_eq_ok.1 hnext
      split at hnext
      · cases hnext
      next hnew =>
      cases hnext
      obtain ⟨es, hes, rfl, hall⟩ := (ih ((not_repeats_iff hfound).1 hnew)).1 hrest
      refine ⟨e :: es, .cons he hes, ?_, hall⟩
      rw [List.append_assoc, List.singleton_append]
    · rintro ⟨es, hes, hr, hall⟩
      cases hes with
      | @cons _ e _ es he hes =>
        rw [← List.singleton_append, ← List.append_assoc] at hr
        have hnodup (h : unique = true) : (found ++ [e]).Nodup := by
          have hall' := hall h
          rw [hr] at hall'
          exact (List.nodup_append.1 hall').1
        exact ⟨found ++ [e], bind_eq_ok.2 ⟨e, he, if_neg ((not_repeats_iff hfound).2 hnodup)⟩,
          (ih hnodup).2 ⟨es, hes, hr, hall⟩⟩

/-- **The names of a list of entities that implement an interface**: each is one entity, and where
they must be unique no two are the same. -/
theorem readInterfaces?_eq_ok {a : Arguments} :
    w.readInterfaces? this type unique a = .ok es ↔
      List.Forall₂ (fun name e => w.readInterface? this type name = .ok e) a.args es ∧
        (unique = true → es.Nodup) := by
  rw [readInterfaces?, addInterfaces_eq_ok fun _ => List.nodup_nil]
  simp only [List.nil_append]
  constructor
  · rintro ⟨es, hes, rfl, hall⟩
    exact ⟨hes, hall⟩
  · rintro ⟨hes, hall⟩
    exact ⟨es, hes, rfl, hall⟩

/-! ## Keywords and chains -/

theorem checkCount_eq_ok {a : Arguments} {counts : List Nat} :
    a.checkCount counts = .ok () ↔ counts.contains a.args.length = true := by
  unfold Arguments.checkCount Arguments.count
  split
  · next h => exact iff_of_true rfl h
  · next h => exact iff_of_false nofun h

theorem single?_eq_ok {a : Arguments} {token : String} :
    a.single? = .ok token ↔ a.args = [token] := by
  rw [Arguments.single?, bind_eq_ok]
  constructor
  · rintro ⟨_, hcount, h⟩
    have hlength : a.args.length = 1 := by
      rw [checkCount_eq_ok, List.contains_iff_mem, List.mem_singleton] at hcount
      exact hcount
    obtain ⟨t, ht⟩ := List.length_eq_one_iff.1 hlength
    rw [ht] at h ⊢
    cases h
    rfl
  · intro h
    refine ⟨(), checkCount_eq_ok.2 (by rw [h]; rfl), ?_⟩
    rw [h]
    rfl

/-- The name of an entity and the keyword of an input that it has. -/
theorem readKeyword?_eq_ok {a : Arguments} {v : Value} :
    w.readKeyword? this a = .ok v ↔
      ∃ name keyword e, a.args = [name, keyword] ∧ w.readEntity? this entityType name = .ok e ∧
        (w.input? ⟨e, keyword⟩).isSome = true ∧ v = .keywordRef e ⟨e, keyword⟩ := by
  rw [readKeyword?, bind_eq_ok]
  constructor
  · rintro ⟨_, hcount, h⟩
    rw [checkCount_eq_ok, List.contains_iff_mem, List.mem_singleton] at hcount
    obtain ⟨name, keyword, hargs⟩ := List.length_eq_two.1 hcount
    obtain ⟨e, he, h⟩ := bind_eq_ok.1 h
    rw [hargs] at he h
    dsimp only at h
    split at h
    · next hinput =>
      cases h
      exact ⟨name, keyword, e, hargs, he, hinput, rfl⟩
    · cases h
  · rintro ⟨name, keyword, e, hargs, he, hinput, rfl⟩
    refine ⟨(), checkCount_eq_ok.2 (by rw [hargs]; rfl), ?_⟩
    rw [hargs]
    exact bind_eq_ok.2 ⟨e, he, if_pos hinput⟩

/-- A chain is accepted if it starts at an entity and one of its outputs, and goes on from an output
that may yield an entity. -/
theorem readChain?_eq_ok {a : Arguments} {c : OutputChain} :
    w.readChain? this a = .ok c ↔
      ∃ rootName, readChainNames? a = .ok (rootName :: c.firstName :: c.remaining) ∧
        (rootName :: c.firstName :: c.remaining).contains "" = false ∧
        w.readEntity? this entityType rootName = .ok c.root ∧
        w.handle? c.root c.firstName = some c.firstHandle ∧
        w.checkFollowed c.root c.firstName c.firstHandle c.remaining = .ok () := by
  constructor
  · intro h
    unfold readChain? at h
    obtain ⟨names, hnames, h⟩ := bind_eq_ok.1 h
    split at h
    · next rootName first remaining =>
      dsimp only at h
      split at h
      · cases h
      next hempty =>
      obtain ⟨root, hroot, h⟩ := bind_eq_ok.1 h
      split at h
      · cases h
      · next handle hhandle =>
        obtain ⟨_, hfollowed, h⟩ := bind_eq_ok.1 h
        cases h
        exact ⟨rootName, hnames, Bool.eq_false_iff.2 hempty, hroot, hhandle, hfollowed⟩
    · dsimp only at h
      split at h
      · cases h
      · cases h
  · rintro ⟨rootName, hnames, hempty, hroot, hhandle, hfollowed⟩
    rw [readChain?, hnames, ok_bind]
    dsimp only
    rw [if_neg (Bool.eq_false_iff.1 hempty), hroot, ok_bind, hhandle]
    exact bind_eq_ok.2 ⟨(), hfollowed, rfl⟩

/-- A chain of one output must have the unit type that is asked for. -/
theorem readOutput?_eq_ok {unit : Option UnitType} {a : Arguments} {v : Value} :
    w.readOutput? this unit a = .ok v ↔
      ∃ c, v = .chain c ∧ w.readChain? this a = .ok c ∧
        (c.remaining = [] → ∀ u ∈ unit, w.chainUnit w.readings c 0.0 = .ok u) := by
  rw [readOutput?, bind_eq_ok]
  constructor
  · rintro ⟨c, hc, h⟩
    refine ⟨c, ?_⟩
    cases unit with
    | none =>
      cases h
      exact ⟨rfl, mapError_eq_ok.1 hc, fun _ => nofun⟩
    | some u =>
      dsimp only at h
      split at h
      · obtain ⟨actual, hactual, h⟩ := bind_eq_ok.1 h
        split at h
        · cases h
        next heq =>
        cases h
        refine ⟨rfl, mapError_eq_ok.1 hc, fun _ => ?_⟩
        rintro _ ⟨⟩
        rw [hactual, Classical.not_not.1 heq]
      · next hne =>
        cases h
        exact ⟨rfl, mapError_eq_ok.1 hc, fun hnil => absurd (List.isEmpty_iff.2 hnil) hne⟩
  · rintro ⟨c, rfl, hc, hunit⟩
    refine ⟨c, mapError_eq_ok.2 hc, ?_⟩
    cases unit with
    | none => rfl
    | some u =>
      dsimp only
      split
      · next hempty =>
        rw [hunit (List.isEmpty_iff.1 hempty) u rfl]
        exact if_neg fun hne => hne rfl
      · rfl

end World

/-! ## Groups -/

section

variable {α : Type} {a : Arguments} {read : Arguments → Except Failure α} {found xs : List α}
  {groups : List Arguments}

theorem readGroupsFrom_gives
    (h : (readGroupsFrom a (fun _ group => Logged.ofExcept (read group)) found groups).Gives xs) :
    ∃ new, xs = found ++ new ∧ List.Forall₂ (fun group x => read group = .ok x) groups new := by
  induction groups generalizing found with
  | nil => exact ⟨[], (h.of_pure).trans (List.append_nil _).symm, .nil⟩
  | cons group groups ih =>
    obtain ⟨x, hx, h⟩ := h.of_bind
    obtain ⟨new, rfl, hnew⟩ := ih h
    refine ⟨x :: new, ?_, .cons hx.of_adapt.of_ofExcept hnew⟩
    rw [List.append_assoc, List.singleton_append]

/-- The elements of some groups are accepted only if each is. -/
theorem readGroups_gives
    (h : (readGroups a fun _ group => Logged.ofExcept (read group)).Gives xs) :
    ∃ groups, a.subArguments? = .ok groups ∧
      List.Forall₂ (fun group x => read group = .ok x) groups xs := by
  obtain ⟨groups, hgroups, h⟩ := h.of_bind
  obtain ⟨new, rfl, hnew⟩ := readGroupsFrom_gives h
  exact ⟨groups, hgroups.of_ofInput, hnew⟩

theorem readGroupsFrom_eq_pure (h : List.Forall₂ (fun group x => read group = .ok x) groups xs) :
    readGroupsFrom a (fun _ group => Logged.ofExcept (read group)) found groups =
      pure (found ++ xs) := by
  induction h generalizing found with
  | nil => rw [List.append_nil, readGroupsFrom]
  | @cons group x groups xs hx _ ih =>
    have hpure : ExceptT.adapt (Failure.inElement a (found.length + 1))
        (Logged.ofExcept (read group)) = pure x := by
      rw [hx]
      rfl
    rw [readGroupsFrom, hpure, pure_bind, ih, List.append_assoc, List.singleton_append]

/-- The elements of some groups are accepted if each is. -/
theorem readGroups_eq_pure (hgroups : a.subArguments? = .ok groups)
    (h : List.Forall₂ (fun group x => read group = .ok x) groups xs) :
    readGroups a (fun _ group => Logged.ofExcept (read group)) = pure xs := by
  have hpure : Logged.ofInput a.subArguments? = pure groups := by
    rw [hgroups]
    rfl
  rw [readGroups, hpure, pure_bind, readGroupsFrom_eq_pure h, List.nil_append]

/-- **Groups are accepted exactly if each is**, and what follows is too. -/
theorem gives_readGroups_bind {β : Type} {k : List α → Logged β} {b : β} :
    (readGroups a (fun _ group => Logged.ofExcept (read group)) >>= k).Gives b ↔
      ∃ groups xs, a.subArguments? = .ok groups ∧
        List.Forall₂ (fun group x => read group = .ok x) groups xs ∧ (k xs).Gives b := by
  constructor
  · intro h
    obtain ⟨xs, hxs, h⟩ := h.of_bind
    obtain ⟨groups, hgroups, hall⟩ := readGroups_gives hxs
    exact ⟨groups, xs, hgroups, hall, h⟩
  · rintro ⟨groups, xs, hgroups, hall, h⟩
    rw [readGroups_eq_pure hgroups hall, pure_bind]
    exact h

end

end ModelInputs
