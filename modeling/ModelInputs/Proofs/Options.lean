import ModelInputs.Input.Option
import ModelInputs.Proofs.Reading.Colours
import ModelInputs.Proofs.Record.Words
import ModelInputs.Proofs.Relatives
import ModelInputs.Proofs.Run.Assigning
import ModelInputs.Proofs.Run.Declaring
import ModelInputs.Proofs.Run.Tokens

/-!
# Options

An input that can list the values it accepts offers them as options: truth values, choices, the
members of an enumeration, the names of colours, or the names of the registered entities of a class,
without its own entity. Entities are found by these names, and of the class, at any time. But the
options are listed without a look at what the entities are beside, so an input of a relative entity
offers also those that lead back, and refuses them.

* `InputKind.OffersValues`: the kinds of inputs, of which each option is one value;
* `World.TypedStep`, `World.TypedReached`: what is done to a model, and where it leads;
* **`World.TypedStep.typed`**: every step leaves relative inputs with entities, and the registry
  faithful;
* **`World.exists_isOffered`**: an entity whose name is offered is found by the name;
* `World.LeadsBack`, **`World.readsOption`**: the options that are read;
* **`World.option_accepted_iff`**: exactly the options are accepted that do not lead back;
* **`World.not_forall_option_accepted`**: one that leads back is offered.
-/

namespace ModelInputs

open Logged Record Relation

/-! ## Kinds of options -/

/-- The kinds whose options are values that are given by one argument: no choice is a brace, and no
member is hidden by an alias. -/
def InputKind.OffersValues : InputKind → Prop
  | .boolean | .colour | .entity _ | .interfaceEntity _ | .relativeEntity _ | .provider .. => True
  | .choice choices _ => ∀ c ∈ choices, isBrace c = false
  | .member e => ∀ name ∈ e.names, isBrace name = false ∧ e.aliases.lookup name = none
  | _ => False

theorem InputKind.OffersValues.isValue {kind : InputKind} (h : kind.OffersValues) :
    kind.target? = none ∧ kind.holdsValue = true := by
  cases kind with
  | boolean | colour | entity | interfaceEntity | relativeEntity | provider | choice | member =>
    exact ⟨rfl, rfl⟩
  | _ => exact h.elim

/-- The default of a relative input is an entity, if there is one. -/
def Input.DefaultsToEntity (i : Input) : Prop :=
  ∀ type, i.kind = .relativeEntity type → i.default = .none ∨ ∃ e, i.default = .entity e

/-- The classes declare relative inputs whose defaults are entities. -/
def Palette.DefaultsToEntities (p : Palette) : Prop :=
  ∀ className, ∀ i ∈ p.inputs className, i.DefaultsToEntity

theorem Input.DefaultsToEntity.of_sameDeclaration {i i' : Input} (h : i.DefaultsToEntity)
    (hsame : i.SameDeclaration i') : i'.DefaultsToEntity := by
  intro type hk
  rw [hsame.default_eq]
  exact h type (hsame.kind_eq.symm.trans hk)

namespace World

variable {w w' : World} {x : EntityId} {keyword option : String} {options : List String} {i : Input}

/-! ## Runs -/

/-- One thing that is done to a model in which the defaults of relative inputs are entities. -/
inductive TypedStep : World → World → Prop where
  | perform {w : World} {op : RegistryOp} : w.Applies op → TypedStep w (w.perform op).world
  | addInput {w w' : World} {e : EntityId} {i : Input} :
    i.reset = i → i.DefaultsToEntity → w.addInput? e i = .ok w' → TypedStep w w'
  | apply {w : World} {e : EntityId} {items : List Arguments} :
    TypedStep w (w.applyItems e [] [] items).world
  | parse {w w' : World} {this : Option EntityId} {id : InputId} {a : Arguments} :
    (w.parseInput this id a).Gives w' → TypedStep w w'
  | reset {w : World} {id : InputId} : TypedStep w (w.updateInput id Input.reset)
  | setAttribute {w w' : World} {e : EntityId} {name : String} {r : Result} :
    w.setAttribute? e name r = .ok w' → TypedStep w w'
  | resetAttributes {w : World} {e : EntityId} : TypedStep w (w.resetAttributes e)

/-- The world is reached from an empty one of the classes. -/
def TypedReached (p : Palette) (w : World) : Prop :=
  ∃ settings recordsEdits, ReflTransGen TypedStep
    { palette := p, settings := settings, recordsEdits := recordsEdits } w

/-- What holds at any time of such a run. -/
structure Typed (w : World) : Prop where
  faithful : w.Faithful
  palette : w.palette.DefaultsToEntities
  defaults : w.InputsAll Input.DefaultsToEntity

theorem parseInput_changesOnly {this : Option EntityId} {id : InputId} {a : Arguments}
    (h : (w.parseInput this id a).Gives w') :
    w.ChangesOnly (fun _ => True) (fun _ => True) (fun _ => True) w' := by
  obtain ⟨-, rfl⟩ | ⟨i, assignment, -, -, rfl⟩ := parseInput_gives h
  · exact .refl w'
  · exact store_changesOnly trivial (fun _ _ _ => trivial) fun _ _ _ => trivial

theorem parseInput_searchable (hw : w.InputsAll Input.Searchable) {this : Option EntityId}
    {id : InputId} {a : Arguments} (h : (w.parseInput this id a).Gives w') :
    w'.InputsAll Input.Searchable := by
  obtain ⟨-, rfl⟩ | ⟨i, assignment, hi, hread, rfl⟩ := parseInput_gives h
  · exact hw
  · refine hw.store fun j hj => ?_
    obtain rfl : i = j := Option.some.inj (hi.symm.trans hj)
    have hsearchable := hw _ i hi
    exact searchable_assigned hsearchable (readKind_fits (fun hk => hsearchable.fits (.inl hk)) hread)

theorem reset_searchable (hw : w.InputsAll Input.Searchable) (id : InputId) :
    (w.updateInput id Input.reset).InputsAll Input.Searchable := by
  intro id' i' hi'
  rw [input?_updateInput (f := Input.reset) fun _ => rfl] at hi'
  split at hi'
  · obtain ⟨i, -, rfl⟩ := Option.map_eq_some_iff.1 hi'
    exact i.searchable_reset
  · exact hw id' i' hi'

/-- **Every step leaves the registry as it should be.** -/
theorem TypedStep.faithful (h : TypedStep w w') (hw : w.Faithful) : w'.Faithful := by
  cases h with
  | perform hop => exact RegistryStep.faithful (.perform hop) hw
  | addInput hi _ h => exact RegistryStep.faithful (.addInput hi h) hw
  | apply => exact RegistryStep.faithful .apply hw
  | parse h =>
    exact hw.of_sameEntities (.of_changesOnly (parseInput_changesOnly h))
      (parseInput_searchable hw.inputs h)
  | reset =>
    exact hw.of_sameEntities (.updateEntity w _ fun _ => ⟨rfl, rfl, rfl⟩)
      (reset_searchable hw.inputs _)
  | setAttribute h =>
    obtain ⟨a, rfl⟩ := setAttribute?_eq_ok h
    exact hw.of_sameEntities ⟨rfl, rfl, fun _ => rfl⟩ hw.inputs
  | resetAttributes =>
    exact resetAttributes_induction hw fun v _ hv =>
      hv.of_sameEntities ⟨rfl, rfl, fun _ => rfl⟩ hv.inputs

namespace Typed

/-- Where inputs lose their relative entities, they keep their defaults. -/
theorem loosen_defaults (hw : w.Typed) (h : w.Loosens w') :
    w'.InputsAll Input.DefaultsToEntity := by
  intro id i' hi'
  obtain hunset | ⟨i, hi, hloose⟩ := h.input id i' hi'
  · exact fun type hk => .inl (hunset type hk).2
  · exact (hw.defaults id i hi).of_sameDeclaration hloose.declaration

/-- What inputs are set to is no part of their defaults. -/
theorem change_defaults (hw : w.Typed) {inputs : InputId → Prop}
    {attributesOf outputsOf : EntityId → Prop}
    (h : w.ChangesOnly inputs attributesOf outputsOf w') : w'.InputsAll Input.DefaultsToEntity := by
  intro id i' hi'
  have hreset := h.input?_declaration id
  rw [hi', Option.map_some] at hreset
  obtain ⟨i, hi, hsame⟩ := Option.map_eq_some_iff.1 hreset.symm
  exact (hw.defaults id i hi).of_sameDeclaration hsame.symm

theorem perform_defaults (hw : w.Typed) (op : RegistryOp) :
    (w.perform op).world.InputsAll Input.DefaultsToEntity := by
  refine perform_induction hw.defaults (fun className _ _ _ _ h => ?_) (fun e w' h => ?_)
    (fun e => ?_) (fun e => hw.loosen_defaults (.kill w e)) (fun _ _ _ h => ?_) op
  · exact hw.defaults.create (hw.palette className) h
  · obtain ⟨-, rfl⟩ := register?_eq_ok h
    refine hw.loosen_defaults (.of_input?_eq rfl fun id => ?_)
    exact input?_updateEntity w _ e (f := fun x => { x with inNamespace := true }) (fun _ => rfl) id
  · unfold unregister
    split
    · exact hw.defaults
    · exact hw.defaults
  · exact hw.loosen_defaults (.rename h)

/-- Relative inputs hold entities. -/
theorem relativesHeld (hw : w.Typed) (keyword : String) : w.RelativesHeld keyword := by
  intro x
  unfold RelativeTo relativeValue
  split
  · next i hi =>
    split
    · next type hk =>
      rw [Input.stored_of_relative hk]
      split
      · exact hw.defaults _ i hi type hk
      · next hset =>
        have hfits := (hw.faithful.inputs _ i hi).fits (.inr (Bool.eq_false_iff.2 hset))
        rw [hk] at hfits
        generalize i.value = v at hfits
        cases hfits
        exact .inr ⟨_, rfl⟩
    · exact .inl rfl
  · exact .inl rfl

end Typed

theorem TypedStep.palette_eq (h : TypedStep w w') : w'.palette = w.palette := by
  cases h with
  | perform => exact FreeStep.perform.staysDeclared.palette_eq
  | addInput _ _ h => exact (FreeStep.addInput h).staysDeclared.palette_eq
  | apply => exact FreeStep.apply.staysDeclared.palette_eq
  | parse h => exact (parseInput_changesOnly h).palette_eq
  | reset => rfl
  | setAttribute h => exact (FreeStep.setAttribute h).staysDeclared.palette_eq
  | resetAttributes => exact FreeStep.resetAttributes.staysDeclared.palette_eq

/-- **Every step leaves relative inputs with entities.** -/
theorem TypedStep.typed (h : TypedStep w w') (hw : w.Typed) : w'.Typed := by
  refine ⟨h.faithful hw.faithful, h.palette_eq ▸ hw.palette, ?_⟩
  cases h with
  | perform => exact hw.perform_defaults _
  | addInput _ hi h => exact hw.defaults.addInput hi h
  | apply => exact hw.change_defaults (applyItems_keywordsChange w _ _ _ _)
  | parse h => exact hw.change_defaults (parseInput_changesOnly h)
  | reset => exact hw.loosen_defaults (.reset w _)
  | setAttribute h =>
    obtain ⟨a, rfl⟩ := setAttribute?_eq_ok h
    exact hw.defaults
  | resetAttributes => exact resetAttributes_induction hw.defaults fun _ _ hv => hv

theorem TypedReached.typed {p : Palette} (hunset : p.IsUnset) (hp : p.DefaultsToEntities)
    (h : TypedReached p w) : w.Typed := by
  obtain ⟨settings, recordsEdits, h⟩ := h
  induction h with
  | refl =>
    have hreached : RegistryReached p
        { palette := p, settings := settings, recordsEdits := recordsEdits } :=
      ⟨settings, recordsEdits, .refl⟩
    exact ⟨hreached.faithful hunset, hp, fun _ _ hi => nomatch hi⟩
  | tail _ hstep ih => exact hstep.typed ih

/-! ## Values that are listed -/

section

variable {this : Option EntityId} {a : Arguments}

theorem gives_truthValue (hk : i.kind = .boolean) (ho : option ∈ ["TRUE", "FALSE"])
    (hargs : a.args = [option]) : ∃ v, (w.readArguments this i a).Gives v := by
  have hread : ∃ b, readBoolean? option = .ok b := by
    obtain rfl | ho := List.mem_cons.1 ho
    · exact ⟨true, rfl⟩
    · obtain rfl := List.mem_singleton.1 ho
      exact ⟨false, rfl⟩
  obtain ⟨b, hb⟩ := hread
  rw [readArguments, hk]
  refine ⟨.bool b, gives_ofInput.2 ?_⟩
  rw [single?_eq_ok.2 hargs, ok_bind, hb]
  rfl

theorem gives_choice {choices : List String} {caseSensitive : Bool}
    (hk : i.kind = .choice choices caseSensitive) (ho : option ∈ choices)
    (hargs : a.args = [option]) : ∃ v, (w.readArguments this i a).Gives v := by
  have hread : ∃ v, readChoice? a choices caseSensitive = .ok v := by
    rw [readChoice?, single?_eq_ok.2 hargs, ok_bind]
    dsimp only
    split
    · exact ⟨_, rfl⟩
    · next hfind =>
      refine absurd ?_ (List.find?_eq_none.1 hfind option ho)
      rw [beq_self_eq_true, Bool.true_or]
  obtain ⟨v, hv⟩ := hread
  rw [readArguments, hk]
  exact ⟨v, gives_ofInput.2 hv⟩

theorem gives_member {e : Enumeration} (hk : i.kind = .member e) (ho : option ∈ e.names)
    (halias : e.aliases.lookup option = none) (hargs : a.args = [option]) :
    ∃ v, (w.readArguments this i a).Gives v := by
  have hread : ∃ v, readMember? a e = .ok v := by
    rw [readMember?, single?_eq_ok.2 hargs, ok_bind, Enumeration.find?, halias]
    dsimp only [Option.getD_none]
    split
    · exact ⟨_, rfl⟩
    · next hfind =>
      obtain ⟨m, hm, rfl⟩ := List.mem_map.1 ho
      exact absurd (beq_self_eq_true m.name) (List.find?_eq_none.1 hfind m hm)
  obtain ⟨v, hv⟩ := hread
  rw [readArguments, hk]
  exact ⟨v, gives_ofInput.2 hv⟩

theorem colourNames_read (ho : option ∈ Colour.names) :
    IsWord option ∧ ∃ c, Colour.find? option = some c := by
  rw [Colour.names, List.mem_mergeSort, List.mem_map] at ho
  obtain ⟨entry, hentry, rfl⟩ := ho
  exact ⟨Colour.isWord_of_mem_named entry hentry, entry.2,
    Colour.find?_of_mem_named entry hentry⟩

theorem gives_colour {c : Colour} (hk : i.kind = .colour) (hc : Colour.find? option = some c)
    (hargs : a.args = [option]) : ∃ v, (w.readArguments this i a).Gives v := by
  rw [readArguments, hk]
  refine ⟨.colour c, gives_ofInput.2 ?_⟩
  rw [Colour.read?_name hargs hc]
  rfl

/-! ## Entities that are registered -/

/-- The entity is what the name stands for, for an entity that can find others. -/
structure IsOffered (w : World) (this : Option EntityId) (type : TypeRef) (name : String)
    (y : EntityId) : Prop where
  hasNamespace : w.hasNamespace this = true
  named : w.named? name = some y
  isInstance : w.isInstance y type = true
  isValidName : isValidName name = true

variable {type : TypeRef} {y : EntityId}

theorem mem_sortedNames {es : List EntityId} {name : String} :
    name ∈ w.sortedNames es ↔ ∃ e ∈ es, w.nameOf e = name := by
  rw [sortedNames, List.mem_mergeSort, List.mem_map]

/-- **An entity whose name is offered is found by the name.** -/
theorem exists_isOffered (hw : w.Faithful) {P : EntityId → Bool}
    (hoptions : (if w.hasNamespace this then
      some (w.sortedNames ((w.registeredOf type).filter P)) else some []) = some options)
    (ho : option ∈ options) : ∃ y, w.IsOffered this type option y ∧ P y = true := by
  split at hoptions
  · next hnamespace =>
    obtain rfl := Option.some.inj hoptions
    obtain ⟨y, hy, rfl⟩ := mem_sortedNames.1 ho
    obtain ⟨hof, hP⟩ := List.mem_filter.1 hy
    obtain ⟨hregistered, htype⟩ := List.mem_filter.1 hof
    obtain ⟨name, hentry⟩ := mem_registered.1 hregistered
    exact ⟨y, ⟨hnamespace, hw.named?_nameOf hregistered, htype,
      hw.valid y (hw.entries name y hentry).1⟩, hP⟩
  · cases hoptions
    cases ho

theorem IsOffered.findNamed?_eq (h : w.IsOffered this type option y) :
    w.findNamed? this option = some y :=
  findNamed?_eq_some.2 ⟨h.hasNamespace, h.named⟩

theorem IsOffered.gives_entity (h : w.IsOffered this type option y) (hk : i.kind = .entity type)
    (hargs : a.args = [option]) : ∃ v, (w.readArguments this i a).Gives v := by
  rw [readArguments, hk]
  refine ⟨.entity y, gives_ofInput.2 ?_⟩
  rw [single?_eq_ok.2 hargs, ok_bind,
    readEntity?_eq_ok.2 ⟨h.hasNamespace, h.named, h.isInstance⟩]
  rfl

theorem IsOffered.gives_interface (h : w.IsOffered this type option y)
    (hk : i.kind = .interfaceEntity type) (hargs : a.args = [option]) :
    ∃ v, (w.readArguments this i a).Gives v := by
  rw [readArguments, hk]
  refine ⟨.entity y, gives_ofInput.2 ?_⟩
  rw [single?_eq_ok.2 hargs, ok_bind,
    readInterface?_eq_ok.2 ⟨h.hasNamespace, h.named, h.isInstance⟩]
  rfl

theorem IsOffered.gives_provider {invalid : List TypeRef} (h : w.IsOffered this type option y)
    (hvalid : (!invalid.any (w.isInstance y)) = true) (hk : i.kind = .provider type invalid)
    (hargs : a.args = [option]) : ∃ v, (w.readArguments this i a).Gives v := by
  rw [readArguments, hk]
  refine ⟨.provider (.constant y), gives_ofInput_bind.2
    ⟨option, single?_eq_ok.2 hargs, gives_ofExcept.2 ?_⟩⟩
  rw [readProvider, h.findNamed?_eq]
  exact if_pos (Bool.and_eq_true_iff.2 ⟨h.isInstance, hvalid⟩)

/-- **The name of an entity is accepted as the relative one exactly if it does not lead back.** -/
theorem IsOffered.gives_relative_iff (hw : w.RelativesHeld i.keyword)
    (h : w.IsOffered (some x) type option y) (hk : i.kind = .relativeEntity type)
    (hargs : a.args = [option]) :
    (∃ v, (w.readArguments (some x) i a).Gives v) ↔
      ¬ ReflTransGen (w.RelativeTo i.keyword) y x := by
  obtain ⟨hrefused, haccepted⟩ := hw.readRelative h.findNamed?_eq h.isInstance
  simp only [readArguments, hk, gives_ofInput_bind, gives_ofExcept_bind, single?_eq_ok.2 hargs,
    gives_pure]
  constructor
  · rintro ⟨v, name, ⟨⟩, z, hz, -⟩ hback
    rw [hrefused hback] at hz
    cases hz
  · intro hback
    exact ⟨_, option, rfl, y, haccepted hback, rfl⟩

end

/-! ## Options that are accepted -/

/-- The option is the name of an entity from which the relative ones lead back. -/
def LeadsBack (w : World) (x : EntityId) (i : Input) (option : String) : Prop :=
  ∃ type y, i.kind = .relativeEntity type ∧ w.named? option = some y ∧
    ReflTransGen (w.RelativeTo i.keyword) y x

theorem IsOffered.leadsBack_iff {type : TypeRef} {y : EntityId}
    (h : w.IsOffered (some x) type option y) (hk : i.kind = .relativeEntity type) :
    w.LeadsBack x i option ↔ ReflTransGen (w.RelativeTo i.keyword) y x := by
  constructor
  · rintro ⟨_, z, -, hz, hback⟩
    rw [h.named] at hz
    cases hz
    exact hback
  · intro hback
    exact ⟨type, y, hk, h.named, hback⟩

/-- The option is one argument, which is accepted exactly if it does not lead back. -/
structure ReadsOption (w : World) (x : EntityId) (i : Input) (option : String) : Prop where
  isBalanced : isBalanced [option] = true
  gives_iff : ∀ a : Arguments, a.args = [option] →
    ((∃ v, (w.readArguments (some x) i a).Gives v) ↔ ¬ w.LeadsBack x i option)

/-- An option of an input that is not relative is accepted. -/
theorem ReadsOption.of_gives (hk : ∀ type, i.kind ≠ .relativeEntity type)
    (hbalanced : Record.isBalanced [option] = true)
    (h : ∀ a : Arguments, a.args = [option] → ∃ v, (w.readArguments (some x) i a).Gives v) :
    w.ReadsOption x i option := by
  refine ⟨hbalanced, fun a hargs => iff_of_true (h a hargs) ?_⟩
  rintro ⟨type, y, hkind, -⟩
  exact hk type hkind

theorem isBalanced_of_not_isBrace (h : isBrace option = false) :
    Record.isBalanced [option] = true :=
  isBalanced_words (List.forall_mem_singleton.2 h)

theorem readsOption (hw : w.Typed) (hk : i.kind.OffersValues)
    (hoptions : w.options? (some x) i = some options) (ho : option ∈ options) :
    w.ReadsOption x i option := by
  unfold options? at hoptions
  cases hkind : i.kind with
  | boolean =>
    rw [hkind] at hoptions
    obtain rfl := Option.some.inj hoptions
    have hwords : ∀ o ∈ ["TRUE", "FALSE"], isBrace o = false := by
      decide
    exact .of_gives (hkind ▸ nofun) (isBalanced_of_not_isBrace (hwords option ho)) fun _ =>
      gives_truthValue hkind ho
  | choice choices caseSensitive =>
    rw [hkind] at hoptions hk
    obtain rfl := Option.some.inj hoptions
    exact .of_gives (hkind ▸ nofun) (isBalanced_of_not_isBrace (hk option ho)) fun _ =>
      gives_choice hkind ho
  | member e =>
    rw [hkind] at hoptions hk
    obtain rfl := Option.some.inj hoptions
    obtain ⟨hword, halias⟩ := hk option ho
    exact .of_gives (hkind ▸ nofun) (isBalanced_of_not_isBrace hword) fun _ =>
      gives_member hkind ho halias
  | colour =>
    rw [hkind] at hoptions
    obtain rfl := Option.some.inj hoptions
    obtain ⟨hword, c, hc⟩ := colourNames_read ho
    exact .of_gives (hkind ▸ nofun) (isBalanced_of_not_isBrace hword.not_isBrace) fun _ =>
      gives_colour hkind hc
  | entity type =>
    rw [hkind] at hoptions
    obtain ⟨y, hy, -⟩ := exists_isOffered hw.faithful hoptions ho
    exact .of_gives (hkind ▸ nofun) (isBalanced_of_isValidName hy.isValidName) fun _ =>
      hy.gives_entity hkind
  | interfaceEntity type =>
    rw [hkind] at hoptions
    obtain ⟨y, hy, -⟩ := exists_isOffered hw.faithful hoptions ho
    exact .of_gives (hkind ▸ nofun) (isBalanced_of_isValidName hy.isValidName) fun _ =>
      hy.gives_interface hkind
  | provider type invalid =>
    rw [hkind] at hoptions
    obtain ⟨y, hy, hvalid⟩ := exists_isOffered hw.faithful hoptions ho
    exact .of_gives (hkind ▸ nofun) (isBalanced_of_isValidName hy.isValidName) fun _ =>
      hy.gives_provider hvalid hkind
  | relativeEntity type =>
    rw [hkind] at hoptions
    obtain ⟨y, hy, -⟩ := exists_isOffered hw.faithful hoptions ho
    refine ⟨isBalanced_of_isValidName hy.isValidName, fun a hargs => ?_⟩
    rw [hy.leadsBack_iff hkind]
    exact hy.gives_relative_iff (hw.relativesHeld i.keyword) hkind hargs
  | _ =>
    rw [hkind] at hk
    exact hk.elim

/-- Such an option is accepted by the keyword of the input. -/
theorem ReadsOption.parseInput_iff (h : w.ReadsOption x i option)
    (hi : w.input? ⟨x, keyword⟩ = some i) (hk : i.kind.OffersValues) {a : Arguments}
    (hargs : a.args = [option]) :
    (∃ w', (w.parseInput (some x) ⟨x, keyword⟩ a).Gives w') ↔ ¬ w.LeadsBack x i option := by
  obtain ⟨htarget, hvalue⟩ := hk.isValue
  simp only [parseInput_value_iff hi htarget hvalue, ← h.gives_iff a hargs]
  constructor
  · rintro ⟨w', v, hv, -⟩
    exact ⟨v, hv⟩
  · rintro ⟨v, hv⟩
    exact ⟨_, v, hv, rfl⟩

/-- **Exactly the options are accepted that do not lead back**: however a model has come about from
classes whose inputs are not set and whose relative inputs default to entities or to nothing, each
value that an input offers for its entity is one argument, and given as the only one it is accepted,
unless it is the name of an entity from which the relative ones of the keyword lead back. -/
theorem option_accepted_iff {p : Palette} (hunset : p.IsUnset) (hp : p.DefaultsToEntities)
    (hw : TypedReached p w) (hi : w.input? ⟨x, keyword⟩ = some i) (hk : i.kind.OffersValues)
    (hoptions : w.options? (some x) i = some options) (ho : option ∈ options) :
    isBalanced [option] = true ∧ ∀ a : Arguments, a.args = [option] →
      ((∃ w', (w.parseInput (some x) ⟨x, keyword⟩ a).Gives w') ↔ ¬ w.LeadsBack x i option) := by
  have hread : w.ReadsOption x i option := readsOption (hw.typed hunset hp) hk hoptions ho
  exact ⟨hread.isBalanced, fun a hargs => hread.parseInput_iff hi hk hargs⟩

theorem places_isPlain : places.IsPlain := by
  refine .of_classes fun c hc => ?_
  rw [List.mem_singleton.1 hc]
  refine ⟨List.nodup_singleton _, fun i hi => ?_⟩
  rw [List.mem_singleton.1 hi]
  exact Input.isNew_make _ _ rfl rfl

theorem places_defaultsToEntities : places.DefaultsToEntities :=
  fun className i hi type hk => .inl (places_relativesUnset className i hi type hk).2

theorem adjacentPlaces_typedReached : TypedReached places adjacentPlaces := by
  have hfirst : TypedStep { palette := places } onePlace := by
    have h : onePlace = (perform { palette := places } (.create "Place" "A" false)).world := rfl
    rw [h]
    exact .perform trivial
  have hsecond : TypedStep onePlace twoPlaces := by
    have h : twoPlaces = (onePlace.perform (.create "Place" "B" false)).world := rfl
    rw [h]
    exact .perform trivial
  exact ⟨{}, false, .tail (.tail (.tail .refl hfirst) hsecond) .apply⟩

/-- The first place is offered the second one, which it is beside already. -/
theorem adjacentPlaces_first : ∃ i, adjacentPlaces.input? ⟨⟨0⟩, "Beside"⟩ = some i ∧
    i.kind.OffersValues ∧ adjacentPlaces.options? (some ⟨0⟩) i = some ["B"] ∧
    ¬ adjacentPlaces.LeadsBack ⟨0⟩ i "B" := by
  refine ⟨_, rfl, trivial, congrArg some (List.mergeSort_singleton "B"), ?_⟩
  rintro ⟨type, y, -, ⟨⟩, hback⟩
  have hend : ∀ y, ¬ adjacentPlaces.RelativeTo "Beside" ⟨1⟩ y := fun y hy => nomatch hy
  cases (reflTransGen_iff_of_end hend).1 hback

/-- The second place is offered the first one, which is beside it. -/
theorem adjacentPlaces_second : ∃ i, adjacentPlaces.input? ⟨⟨1⟩, "Beside"⟩ = some i ∧
    i.kind.OffersValues ∧ adjacentPlaces.options? (some ⟨1⟩) i = some ["A"] ∧
    adjacentPlaces.LeadsBack ⟨1⟩ i "A" := by
  have hstep : adjacentPlaces.RelativeTo "Beside" ⟨0⟩ ⟨1⟩ := rfl
  exact ⟨_, rfl, trivial, congrArg some (List.mergeSort_singleton "A"), _, ⟨0⟩, rfl, rfl,
    .single hstep⟩

theorem option_accepted_iff_adjacentPlaces :
    (∃ w', (adjacentPlaces.parseInput (some ⟨0⟩) ⟨⟨0⟩, "Beside"⟩ besideB).Gives w') ∧
      ¬ ∃ w', (adjacentPlaces.parseInput (some ⟨1⟩) ⟨⟨1⟩, "Beside"⟩ besideA).Gives w' := by
  obtain ⟨i, hi, hk, hoptions, hback⟩ := adjacentPlaces_first
  obtain ⟨i', hi', hk', hoptions', hback'⟩ := adjacentPlaces_second
  have haccepted := option_accepted_iff places_isPlain.isUnset places_defaultsToEntities
    adjacentPlaces_typedReached hi hk hoptions (.head _)
  have hrefused := option_accepted_iff places_isPlain.isUnset places_defaultsToEntities
    adjacentPlaces_typedReached hi' hk' hoptions' (.head _)
  exact ⟨(haccepted.2 besideB rfl).2 hback, fun h => (hrefused.2 besideA rfl).1 h hback'⟩

/-- **Not every option is accepted**: of two places of which the first is beside the second, the
first is offered to the second, and refused. -/
theorem not_forall_option_accepted :
    ¬ ∀ (p : Palette) (w : World) (x : EntityId) (keyword option : String) (i : Input)
      (options : List String) (a : Arguments), p.IsUnset → p.DefaultsToEntities →
      TypedReached p w → w.input? ⟨x, keyword⟩ = some i → i.kind.OffersValues →
      w.options? (some x) i = some options → option ∈ options → a.args = [option] →
      ∃ w', (w.parseInput (some x) ⟨x, keyword⟩ a).Gives w' := by
  intro h
  obtain ⟨i, hi, hk, hoptions, hback⟩ := adjacentPlaces_second
  have hread := readsOption
    (adjacentPlaces_typedReached.typed places_isPlain.isUnset places_defaultsToEntities) hk hoptions
    (.head _)
  have haccepted := h places adjacentPlaces ⟨1⟩ "Beside" "A" i ["A"] besideA places_isPlain.isUnset
    places_defaultsToEntities adjacentPlaces_typedReached hi hk hoptions (.head _) rfl
  exact (hread.parseInput_iff hi hk rfl).1 haccepted hback

end World

end ModelInputs
