import Mathlib.Data.List.Nodup
import ModelInputs.Proofs.Repeat.Values

/-!
# Definitions that are read again

Once definitions are assigned to an entity, their names are those of its own attributes and custom
outputs, and so are accepted again. Numbers and the texts of expressions are read as before; but an
expression is checked in the world that the definitions have changed, so the unit type of an
attribute may be another one, and the check may fail.

* `readGroupsFrom_again_iff`: elements that know the names before them;
* `World.Redefines`, **`World.readAttributes_again_iff`**: attributes;
* `World.nodup_of_readAttributes`: attributes have different names;
* **`World.readCustomOutputs_again_iff`**: custom outputs;
* `World.gives_readKind_attributes`, `World.gives_readKind_customOutputs`: what is assigned.
-/

namespace ModelInputs

open Logged

/-! ## Elements that know those before them -/

section Groups

variable {α : Type} {a : Arguments} {readOne readOne' : List α → Arguments → Logged α}
  {found xs : List α} {groups : List Arguments}

/-- The elements come behind those found so far. -/
theorem prefix_of_readGroupsFrom (h : (readGroupsFrom a readOne found groups).Gives xs) :
    found <+: xs := by
  induction groups generalizing found with
  | nil => exact h.of_pure ▸ List.prefix_refl _
  | cons group groups ih =>
    obtain ⟨x, -, h⟩ := h.of_bind
    exact (List.prefix_append found [x]).trans (ih h)

/-- The first element, and those behind it. -/
theorem exists_of_readGroupsFrom_cons {group : Arguments}
    (h : (readGroupsFrom a readOne found (group :: groups)).Gives (found ++ xs)) :
    ∃ x ys, xs = x :: ys ∧ (readOne found group).Gives x ∧
      (readGroupsFrom a readOne (found ++ [x]) groups).Gives (found ++ [x] ++ ys) := by
  obtain ⟨x, hx, h⟩ := h.of_bind
  obtain ⟨ys, hys⟩ := prefix_of_readGroupsFrom h
  refine ⟨x, ys, ?_, hx.of_adapt, hys ▸ h⟩
  rw [List.append_assoc] at hys
  exact (List.append_cancel_left hys).symm

/-- Elements have different keys if each has another one than those before it. -/
theorem nodup_of_readGroups (key : α → String)
    (hone : ∀ found group x, (readOne found group).Gives x → key x ∉ found.map key)
    (h : (readGroups a readOne).Gives xs) : (xs.map key).Nodup := by
  have hfrom (groups : List Arguments) (found : List α) (hfound : (found.map key).Nodup)
      (h : (readGroupsFrom a readOne found groups).Gives xs) : (xs.map key).Nodup := by
    induction groups generalizing found with
    | nil => rwa [h.of_pure]
    | cons group groups ih =>
      obtain ⟨x, hx, h⟩ := h.of_bind
      refine ih (found ++ [x]) ?_ h
      rw [List.map_append, List.map_singleton, ← List.concat_eq_append]
      exact hfound.concat (hone found group x hx.of_adapt)
  obtain ⟨groups, -, h⟩ := h.of_bind
  exact hfrom groups [] List.nodup_nil h

variable {key : α → String} {P : α → Prop} {R : α → α → Prop}

/-- **Groups are read again exactly if each is**, where an element knows the keys of those before
it. -/
theorem readGroupsFrom_again_iff (hsteady : ∀ found group, (readOne' found group).Steady)
    (hkey : ∀ x x', R x x' → key x' = key x)
    (hone : ∀ found found' group x, found'.map key = found.map key → P x →
      (readOne found group).Gives x → ∀ x', (readOne' found' group).Gives x' ↔ R x x')
    {found' ys : List α} (hfound : found'.map key = found.map key) (hxs : ∀ x ∈ xs, P x)
    (h : (readGroupsFrom a readOne found groups).Gives (found ++ xs)) :
    (readGroupsFrom a readOne' found' groups).Gives (found' ++ ys) ↔ List.Forall₂ R xs ys := by
  induction groups generalizing found found' xs ys with
  | nil =>
    obtain rfl : xs = [] := List.append_right_eq_self.1 h.of_pure
    rw [readGroupsFrom, gives_pure, List.append_right_eq_self, List.forall₂_nil_left_iff]
  | cons group groups ih =>
    obtain ⟨x, xs, rfl, hx, h⟩ := exists_of_readGroupsFrom_cons h
    have hread := hone found found' group x hfound (hxs x (.head _)) hx
    have hnext (x' : α) (hx' : R x x') : (found' ++ [x']).map key = (found ++ [x]).map key := by
      rw [List.map_append, List.map_append, hfound, List.map_singleton, List.map_singleton,
        hkey x x' hx']
    constructor
    · intro h'
      obtain ⟨x', ys, rfl, hx', h'⟩ := exists_of_readGroupsFrom_cons h'
      have hx' := (hread x').1 hx'
      exact .cons hx' ((ih (hnext x' hx') (fun y hy => hxs y (.tail _ hy)) h).1 h')
    · rintro (_ | ⟨hx', hys⟩)
      rename_i x' ys
      have h' := (ih (hnext x' hx') (fun y hy => hxs y (.tail _ hy)) h).2 hys
      rw [List.append_assoc, List.singleton_append] at h'
      refine (Steady.gives_bind fun x => readGroupsFrom_steady hsteady groups _).2 ⟨x', ?_, h'⟩
      exact Steady.gives_adapt.2 ((hread x').2 hx')

/-- Groups of arguments are read again exactly if each is. -/
theorem readGroups_again_iff (key : α → String) (P : α → Prop) (hsteady : ∀ found group, (readOne' found group).Steady)
    (hkey : ∀ x x', R x x' → key x' = key x)
    (hone : ∀ found found' group x, found'.map key = found.map key → P x →
      (readOne found group).Gives x → ∀ x', (readOne' found' group).Gives x' ↔ R x x')
    {ys : List α} (hxs : ∀ x ∈ xs, P x) (h : (readGroups a readOne).Gives xs) :
    (readGroups a readOne').Gives ys ↔ List.Forall₂ R xs ys := by
  obtain ⟨groups, hgroups, h⟩ := gives_ofInput_bind.1 h
  rw [readGroups, gives_ofInput_bind, ← readGroupsFrom_again_iff hsteady hkey hone rfl hxs h]
  constructor
  · rintro ⟨groups', hgroups', h'⟩
    rw [hgroups] at hgroups'
    cases hgroups'
    exact h'
  · exact fun h' => ⟨groups, hgroups, h'⟩

end Groups

namespace World

variable {inputs : InputId → Prop} {attributesOf outputsOf : EntityId → Prop} {w w' : World}
  {e : EntityId} {a : Arguments} {name text : String}

/-! ## Expressions -/

/-- An expression is accepted if it can be parsed and passes the checks. -/
theorem readExpression_eq_ok {this : Option EntityId} {unit : Option UnitType} {exp : Expression} :
    w.readExpression this text unit = .ok exp ↔
      Expression.parse? text w.settings.foldConstants = .ok exp ∧
        w.checkExpression exp this unit = .ok () := by
  rw [readExpression, mapError_eq_ok]
  constructor
  · intro h
    obtain ⟨exp', hparse, h⟩ := bind_eq_ok.1 h
    obtain ⟨_, hcheck, h⟩ := bind_eq_ok.1 h
    cases h
    exact ⟨hparse, hcheck⟩
  · rintro ⟨hparse, hcheck⟩
    exact bind_eq_ok.2 ⟨exp, hparse, bind_eq_ok.2 ⟨(), hcheck, rfl⟩⟩

/-- An expression of any unit type passes the checks if its unit type can be inferred. -/
theorem checkExpression_none_eq_ok {this : Option EntityId} {exp : Expression} :
    w.checkExpression exp this none = .ok () ↔ ∃ unit, w.inferUnit exp this = .ok unit := by
  rw [checkExpression, Expression.check, bind_eq_ok]
  constructor
  · rintro ⟨unit, hunit, -⟩
    exact ⟨unit, hunit⟩
  · rintro ⟨unit, hunit⟩
    exact ⟨unit, hunit, rfl⟩

/-! ## Attributes -/

/-- The attribute that the same definition makes in a world: that of an expression has the unit type
that the expression has there. -/
inductive Redefines (w : World) (d : Attribute) : Attribute → Prop where
  | value : d.expression = none → Redefines w d d
  | expression {exp : Expression} {unit : Option UnitType} : d.expression = some exp →
    w.inferUnit exp (some d.entity) = .ok unit →
    Redefines w d { d with unitType := unit.getD .dimensionless }

theorem Redefines.name_eq {d d' : Attribute} (h : w.Redefines d d') : d'.name = d.name := by
  cases h with
  | _ => rfl

theorem redefines_iff_eq {d d' : Attribute} (hd : d.expression = none) :
    w.Redefines d d' ↔ d' = d := by
  constructor
  · rintro (_ | ⟨hexp, -⟩)
    · rfl
    · rw [hd] at hexp
      cases hexp
  · rintro rfl
    exact .value hd

/-- A definition makes the same attribute exactly if its expression has the same unit type. -/
theorem redefines_self_iff {d : Attribute} : w.Redefines d d ↔ w.KeepsUnit d := by
  constructor
  · intro h exp hexp
    obtain ⟨d', hd', h⟩ : ∃ d', d' = d ∧ w.Redefines d d' := ⟨d, rfl, h⟩
    cases h with
    | value hnone =>
      rw [hnone] at hexp
      cases hexp
    | @expression exp' unit hexp' hunit =>
      obtain rfl : exp' = exp := Option.some.inj (hexp'.symm.trans hexp)
      exact ⟨unit, hunit, congrArg Attribute.unitType hd'⟩
  · intro hkeeps
    cases hexp : d.expression with
    | none => exact .value hexp
    | some exp =>
      obtain ⟨unit, hunit, hsame⟩ := hkeeps exp hexp
      have hd : w.Redefines d { d with unitType := unit.getD .dimensionless } :=
        .expression hexp hunit
      rwa [hsame] at hd

theorem numberAttribute_gives {unit : UnitType} {d : Attribute}
    (h : (w.numberAttribute e name unit a).Gives d) :
    d.entity = e ∧ d.name = name ∧ d.expression = none := by
  obtain ⟨xs, -, h⟩ := h.of_bind
  split at h
  · rw [h.of_pure]
    exact ⟨rfl, rfl, rfl⟩
  · exact absurd h.of_ofInput nofun

theorem expressionAttribute_eq_ok {d : Attribute} :
    w.expressionAttribute e name text = .ok d ↔
      ∃ exp unit, Expression.parse? text w.settings.foldConstants = .ok exp ∧
        w.inferUnit exp (some e) = .ok unit ∧
        d = { entity := e, name := name, unitType := unit.getD .dimensionless,
              expression := some exp } := by
  rw [expressionAttribute, bind_eq_ok]
  constructor
  · rintro ⟨exp, hexp, h⟩
    obtain ⟨unit, hunit, h⟩ := bind_eq_ok.1 h
    cases h
    exact ⟨exp, unit, (readExpression_eq_ok.1 hexp).1, mapError_eq_ok.1 hunit, rfl⟩
  · rintro ⟨exp, unit, hparse, hunit, rfl⟩
    refine ⟨exp, readExpression_eq_ok.2 ⟨hparse, checkExpression_none_eq_ok.2 ⟨unit, hunit⟩⟩, ?_⟩
    exact bind_eq_ok.2 ⟨unit, mapError_eq_ok.2 hunit, rfl⟩

/-- The arguments alone tell whether a number of a unit type is defined or an expression. -/
theorem readDefinition_eq (a : Arguments) :
    (∃ unit : Except InputError UnitType, ∀ (w : World) (e : EntityId) (name : String),
      w.readDefinition e name a = ofInput unit >>= fun unit => w.numberAttribute e name unit a) ∨
    ∃ text, ∀ (w : World) (e : EntityId) (name : String),
      w.readDefinition e name a = ofExcept (w.expressionAttribute e name text) := by
  have hunit (token : String) (w : World) (e : EntityId) (name : String) :
      (do w.numberAttribute e name (← ofInput (anyUnit? token)).unitType a) =
        ofInput ((anyUnit? token).map (·.unitType)) >>= fun unit =>
          w.numberAttribute e name unit a := by
    cases anyUnit? token with
    | _ => rfl
  unfold readDefinition
  split
  · next unit hargs => exact .inl ⟨_, fun w e name => hunit unit w e name⟩
  · next first rest hrest hargs =>
    split
    · next number suffix hsplit =>
      split
      · exact .inl ⟨_, fun w e name => hunit suffix w e name⟩
      · exact .inr ⟨first, fun _ _ _ => rfl⟩
    · split
      · exact .inl ⟨.ok .dimensionless, fun _ _ _ => rfl⟩
      · exact .inr ⟨first, fun _ _ _ => rfl⟩
  · exact .inl ⟨refuseCommon .count ["1", a.text], fun _ _ _ => rfl⟩

/-- **A definition is read again as the attribute that it makes now.** -/
theorem readDefinition_again_iff (hsettings : w'.settings = w.settings) {d d' : Attribute}
    (h : (w.readDefinition e name a).Gives d) :
    (w'.readDefinition e name a).Gives d' ↔ w'.Redefines d d' := by
  obtain ⟨unit, hnumber⟩ | ⟨text, hexpression⟩ := readDefinition_eq a
  · have hsame : w'.readDefinition e name a = w.readDefinition e name a := by
      rw [hnumber, hnumber]
      unfold numberAttribute
      rw [hsettings]
    rw [hsame, (w.readDefinition_steady a e name).gives_iff_eq h, redefines_iff_eq]
    rw [hnumber] at h
    obtain ⟨_, -, h⟩ := h.of_bind
    exact (numberAttribute_gives h).2.2
  · rw [hexpression, gives_ofExcept, expressionAttribute_eq_ok] at h ⊢
    obtain ⟨exp, unit, hparse, -, rfl⟩ := h
    rw [hsettings, hparse]
    constructor
    · rintro ⟨_, unit', ⟨⟩, hunit', rfl⟩
      exact .expression rfl hunit'
    · rintro (⟨⟨⟩⟩ | ⟨⟨⟩, hunit'⟩)
      exact ⟨exp, _, rfl, hunit', rfl⟩

theorem name_of_readDefinition {d : Attribute} (h : (w.readDefinition e name a).Gives d) :
    d.name = name := by
  obtain ⟨unit, hnumber⟩ | ⟨text, hexpression⟩ := readDefinition_eq a
  · rw [hnumber] at h
    obtain ⟨_, -, h⟩ := h.of_bind
    exact (numberAttribute_gives h).2.1
  · rw [hexpression, gives_ofExcept, expressionAttribute_eq_ok] at h
    obtain ⟨_, _, -, -, rfl⟩ := h
    rfl

theorem ChangesOnly.checkNewName_eq (h : w.ChangesOnly inputs attributesOf outputsOf w')
    (seen : List String) : w'.checkNewName e name seen = w.checkNewName e name seen := by
  rw [checkNewName, checkNewName, h.isDeclaredOutput_eq, h.nameOf_eq]

theorem not_mem_of_checkNewName {seen : List String} (h : w.checkNewName e name seen = .ok ()) :
    name ∉ seen := by
  unfold checkNewName at h
  split at h
  · cases h
  split at h
  · cases h
  · next hseen => exact fun hmem => hseen (List.contains_iff_mem.2 hmem)

/-- The name of an attribute of the entity is accepted again. -/
theorem ChangesOnly.checkAttributeName_again (h : w.ChangesOnly inputs attributesOf outputsOf w')
    {seen : List String} (hname : w'.hasAttribute e name = true)
    (hcheck : w.checkAttributeName e name seen = .ok ()) :
    w'.checkAttributeName e name seen = .ok () := by
  obtain ⟨_, hnew, -⟩ := bind_eq_ok.1 hcheck
  refine bind_eq_ok.2 ⟨(), (h.checkNewName_eq seen).trans hnew, ?_⟩
  rw [hname, Bool.not_true, Bool.and_false]
  rfl

/-- An attribute is read from a name and a definition behind it. -/
theorem readAttribute_gives {found : List Attribute} {group : Arguments} {d : Attribute} :
    (w.readAttribute e found group).Gives d ↔
      group.checkCountRange 2 (some 3) = .ok () ∧
      w.checkAttributeName e (group.args.headD "") (found.map (·.name)) = .ok () ∧
      ∃ rest, group.slice? 1 = .ok rest ∧
        (w.readDefinition e (group.args.headD "") rest).Gives d := by
  unfold readAttribute
  dsimp only
  simp only [gives_ofInput_bind]
  constructor
  · rintro ⟨_, hcount, _, hname, rest, hrest, h⟩
    exact ⟨hcount, hname, rest, hrest, h⟩
  · rintro ⟨hcount, hname, rest, hrest, h⟩
    exact ⟨(), hcount, (), hname, rest, hrest, h⟩

/-- **Definitions of attributes are read again as the attributes that they make now.** -/
theorem ChangesOnly.readAttributes_again_iff (h : w.ChangesOnly inputs attributesOf outputsOf w')
    {ds ds' : List Attribute} (hnames : ∀ d ∈ ds, w'.hasAttribute e d.name = true)
    (hread : (w.readAttributes e a).Gives ds) :
    (w'.readAttributes e a).Gives ds' ↔ List.Forall₂ w'.Redefines ds ds' := by
  refine readGroups_again_iff (·.name) (fun d => w'.hasAttribute e d.name = true)
    (w'.readAttribute_steady e) (fun _ _ => Redefines.name_eq) ?_ hnames hread
  intro found found' group d hfound hname hread d'
  rw [readAttribute_gives] at hread ⊢
  obtain ⟨hcount, hcheck, rest, hrest, hread⟩ := hread
  rw [hcount, hfound, ← readDefinition_again_iff h.settings_eq hread]
  rw [name_of_readDefinition hread] at hname
  constructor
  · rintro ⟨-, -, rest', hrest', h'⟩
    rw [hrest] at hrest'
    cases hrest'
    exact h'
  · intro h'
    exact ⟨rfl, h.checkAttributeName_again hname hcheck, rest, hrest, h'⟩

/-- **Attributes that are defined together have different names.** -/
theorem nodup_of_readAttributes {ds : List Attribute} (h : (w.readAttributes e a).Gives ds) :
    (ds.map (·.name)).Nodup := by
  refine nodup_of_readGroups (·.name) (fun found group d hd => ?_) h
  obtain ⟨-, hcheck, rest, -, hread⟩ := readAttribute_gives.1 hd
  obtain ⟨_, hnew, -⟩ := bind_eq_ok.1 hcheck
  rw [name_of_readDefinition hread]
  exact not_mem_of_checkNewName hnew

/-! ## Custom outputs -/

theorem ChangesOnly.checkCustomName_eq (h : w.ChangesOnly inputs attributesOf outputsOf w')
    (ha : ∀ e, ¬ attributesOf e) (seen : List String) :
    w'.checkCustomName e name seen = w.checkCustomName e name seen := by
  have hattribute : w'.hasAttribute e name = w.hasAttribute e name := by
    unfold hasAttribute
    cases hx : w.entity? e with
    | none => rw [h.entity?_eq_none hx]
    | some x =>
      obtain ⟨x', hx', hxx'⟩ := h.entity e x hx
      rw [hx', Option.bind_some, Option.bind_some, hxx'.attributes_eq (ha e)]
  rw [checkCustomName, checkCustomName, h.checkNewName_eq, hattribute, h.nameOf_eq]

/-- The unit type that a group asks for. -/
def customUnit? (group : Arguments) : Except InputError UnitType :=
  match group.args with
  | [_, _, unit] => unitOrType? unit
  | _ => .ok .dimensionless

/-- A custom output is read from a name, an expression and perhaps a unit type. -/
theorem readCustomOutput_gives {found : List CustomOutput} {group : Arguments} {o : CustomOutput} :
    (w.readCustomOutput e found group).Gives o ↔
      group.checkCountRange 2 (some 3) = .ok () ∧
      w.checkCustomName e (group.args.headD "") (found.map (·.name)) = .ok () ∧
      ∃ unit exp, customUnit? group = .ok unit ∧
        Expression.parse? (group.args.getD 1 "") w.settings.foldConstants = .ok exp ∧
        w.checkExpression exp (some e) (some unit) = .ok () ∧
        o = ⟨e, group.args.headD "", exp, unit⟩ := by
  have hread : w.readCustomOutput e found group = do
      ofInput (group.checkCountRange 2 (some 3))
      ofInput (w.checkCustomName e (group.args.headD "") (found.map (·.name)))
      let unit ← ofInput (customUnit? group)
      let exp ← Logged.ofExcept (w.readExpression (some e) (group.args.getD 1 "") (some unit))
      return ⟨e, group.args.headD "", exp, unit⟩ := by
    unfold readCustomOutput customUnit?
    dsimp only
    generalize group.args = args
    match args with
    | [] | [_] | [_, _] | [_, _, _] | _ :: _ :: _ :: _ :: _ => rfl
  rw [hread]
  simp only [gives_ofInput_bind, gives_ofExcept_bind, gives_pure, readExpression_eq_ok]
  constructor
  · rintro ⟨_, hcount, _, hname, unit, hunit, exp, ⟨hparse, hcheck⟩, rfl⟩
    exact ⟨hcount, hname, unit, exp, hunit, hparse, hcheck, rfl⟩
  · rintro ⟨hcount, hname, unit, exp, hunit, hparse, hcheck, rfl⟩
    exact ⟨(), hcount, (), hname, unit, hunit, exp, ⟨hparse, hcheck⟩, rfl⟩

/-- **Definitions of custom outputs are read again exactly if they pass the checks now.** -/
theorem ChangesOnly.readCustomOutputs_again_iff (h : w.ChangesOnly inputs attributesOf outputsOf w')
    (ha : ∀ e, ¬ attributesOf e) {os os' : List CustomOutput}
    (hread : (w.readCustomOutputs e a).Gives os) :
    (w'.readCustomOutputs e a).Gives os' ↔ os' = os ∧ ∀ o ∈ os, w'.PassesCheck o := by
  have hagain : (w'.readCustomOutputs e a).Gives os' ↔
      List.Forall₂ (fun o o' => o' = o ∧ w'.PassesCheck o) os os' := by
    refine readGroups_again_iff (·.name) (fun _ => True) (w'.readCustomOutput_steady e) ?_ ?_
      (fun _ _ => trivial) hread
    · rintro o _ ⟨rfl, -⟩
      rfl
    · rintro found found' group o hfound - hread o'
      rw [readCustomOutput_gives] at hread ⊢
      obtain ⟨hcount, hname, unit, exp, hunit, hparse, -, rfl⟩ := hread
      rw [hcount, hfound, h.checkCustomName_eq ha, hname, hunit, h.settings_eq, hparse]
      constructor
      · rintro ⟨-, -, _, _, ⟨⟩, ⟨⟩, hcheck, rfl⟩
        exact ⟨rfl, hcheck⟩
      · rintro ⟨rfl, hcheck⟩
        exact ⟨rfl, rfl, unit, exp, rfl, rfl, hcheck, rfl⟩
  rw [hagain]
  clear hread hagain
  constructor
  · intro hall
    induction hall with
    | nil => exact ⟨rfl, nofun⟩
    | cons ho _ ih =>
      obtain ⟨rfl, hpasses⟩ := ih
      obtain ⟨rfl, ho⟩ := ho
      exact ⟨rfl, List.forall_mem_cons.2 ⟨ho, hpasses⟩⟩
  · rintro ⟨rfl, hpasses⟩
    exact List.forall₂_same.2 fun o ho => ⟨rfl, hpasses o ho⟩

/-! ## Assignments of definitions -/

section

variable {i : Input} {assignment : Assignment}

theorem gives_readKind_attributes (hk : i.kind = .attributes) :
    (w.readKind (some e) i a).Gives assignment ↔
      ∃ ds, (w.readAttributes e a).Gives ds ∧ assignment = .attributes e ds := by
  unfold readKind
  rw [hk]
  constructor
  · intro h
    obtain ⟨ds, hread, h⟩ := (show Gives (w.readAttributes e a >>= fun ds => pure (.attributes e ds))
      assignment from h).of_bind
    exact ⟨ds, hread, h.of_pure⟩
  · rintro ⟨ds, hread, rfl⟩
    exact (Steady.gives_bind fun _ => steady_pure _).2 ⟨ds, hread, gives_pure.2 rfl⟩

theorem gives_readKind_customOutputs (hk : i.kind = .customOutputs) :
    (w.readKind (some e) i a).Gives assignment ↔
      ∃ os, (w.readCustomOutputs e a).Gives os ∧ assignment = .customOutputs e os := by
  unfold readKind
  rw [hk]
  constructor
  · intro h
    obtain ⟨os, hread, h⟩ := (show Gives
      (w.readCustomOutputs e a >>= fun os => pure (.customOutputs e os)) assignment from h).of_bind
    exact ⟨os, hread, h.of_pure⟩
  · rintro ⟨os, hread, rfl⟩
    exact (Steady.gives_bind fun _ => steady_pure _).2 ⟨os, hread, gives_pure.2 rfl⟩

end

end World

end ModelInputs
