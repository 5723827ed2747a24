import ModelInputs.Proofs.Reference.Registered
import ModelInputs.Proofs.Record.Groups

/-!
# What arguments denote

The arguments of an input that refers to entities denote a value: names are those of the entities
that the value holds, or in a list of groups of them. Where a value is held already, and so is known
to be of the right classes, arguments are accepted with that value exactly if they denote it.

* `InputKind.isReference`, `InputKind.namesEntities`: inputs that refer to entities, by their names
  alone or together with a keyword or outputs;
* `World.Denotes`: the value that arguments denote, as names are now;
* **`World.denotes_of_gives`**, **`World.gives_of_denotes`**: accepted arguments denote the value,
  and arguments that denote a value that is as it should be are accepted with it;
* `World.Denotes.names`: the arguments are braces and names of registered entities.
-/

namespace ModelInputs

namespace InputKind

/-- The arguments of inputs of the kind are names of entities, which may be grouped. -/
def namesEntities : InputKind → Bool
  | entity _ | interfaceEntity _ | relativeEntity _ => true
  | entities .. | interfaceEntities .. | entityLists .. => true
  | _ => false

/-- Inputs of the kind refer to entities, to an input of one, or to outputs that start at one. -/
def isReference : InputKind → Bool
  | keyword | output _ => true
  | kind => kind.namesEntities

variable {kind : InputKind}

theorem holdsValue_of_isReference (h : kind.isReference = true) : kind.holdsValue = true := by
  cases kind with
  | keyLists | attributes | customOutputs | deprecated => cases h
  | _ => rfl

theorem isReference_of_namesEntities (h : kind.namesEntities = true) : kind.isReference = true := by
  cases kind with
  | keyword | output => rfl
  | _ => exact h

theorem target?_of_isReference (h : kind.isReference = true) : kind.target? = none := by
  cases kind with
  | synonym => cases h
  | _ => rfl

end InputKind

namespace World

/-- The value of an input of a kind that arguments denote. -/
inductive Denotes (w : World) (id : InputId) (a : Arguments) : InputKind → Value → Prop where
  | entity {type : TypeRef} {name : String} {y : EntityId} :
    a.args = [name] → w.named? name = some y → Denotes w id a (.entity type) (.entity y)
  | interfaceEntity {type : TypeRef} {name : String} {y : EntityId} :
    a.args = [name] → w.named? name = some y → Denotes w id a (.interfaceEntity type) (.entity y)
  /-- the keyword does not lead back from the entity -/
  | relativeEntity {type : TypeRef} {name : String} {y : EntityId} :
    a.args = [name] → w.named? name = some y →
    w.leadsTo id.keyword (some id.entity) w.entities.length [] y = .ok false →
    Denotes w id a (.relativeEntity type) (.entity y)
  | entities {type : TypeRef} {unique : Bool} {counts : CountRange}
    {parts : List (List EntityId)} :
    List.Forall₂ (w.StandsFor type) a.args parts →
    counts.least ≤ parts.flatten.length → parts.flatten.length ≤ counts.most →
    Denotes w id a (.entities type unique counts) (.ofEntities parts.flatten)
  | interfaceEntities {type : TypeRef} {unique : Bool} {counts : CountRange} {es : List EntityId} :
    a.checkCounts counts = .ok () → List.Forall₂ (fun name y => w.named? name = some y) a.args es →
    Denotes w id a (.interfaceEntities type unique counts) (.ofEntities es)
  | entityLists {type : TypeRef} {unique : Bool} {counts : CountRange} {groups : List Arguments}
    {lists : List (List EntityId)} :
    a.subArguments? = .ok groups →
    List.Forall₂ (fun group es => ∃ parts, List.Forall₂ (w.StandsFor type) group.args parts ∧
      es = parts.flatten) groups lists →
    counts.least ≤ lists.length → lists.length ≤ counts.most →
    Denotes w id a (.entityLists type unique counts) (.ofEntityLists lists)
  | keyword {name keyword : String} {y : EntityId} :
    a.args = [name, keyword] → w.named? name = some y →
    (w.input? ⟨y, keyword⟩).isSome = true → Denotes w id a .keyword (.keywordRef y ⟨y, keyword⟩)
  /-- the first output is still the one that was found, and as it is asked to be -/
  | output {unit : Option UnitType} {rootName : String} {c : OutputChain} :
    readChainNames? a = .ok (rootName :: c.firstName :: c.remaining) →
    (rootName :: c.firstName :: c.remaining).contains "" = false → w.named? rootName = some c.root →
    w.handle? c.root c.firstName = some c.firstHandle →
    w.checkFollowed c.root c.firstName c.firstHandle c.remaining = .ok () →
    (c.remaining = [] → ∀ u ∈ unit, w.chainUnit w.readings c 0.0 = .ok u) →
    Denotes w id a (.output unit) (.chain c)

variable {w : World} {x : EntityId} {i : Input} {a : Arguments} {v : Value}

/-! ## Reading -/

/-- Inputs that refer to entities are set to the value that is read. -/
theorem gives_readKind_iff {this : Option EntityId} (hk : i.kind.isReference = true)
    {assignment : Assignment} :
    (w.readKind this i a).Gives assignment ↔
      ∃ v, (w.readArguments this i a).Gives v ∧ assignment = .value v := by
  rw [readKind_value (InputKind.holdsValue_of_isReference hk)]
  constructor
  · intro h
    obtain ⟨v, hv, h⟩ := h.of_bind
    exact ⟨v, hv, h.of_pure⟩
  · rintro ⟨v, ⟨log, log', hv⟩, rfl⟩
    exact ⟨log, log', Logged.run_bind hv⟩

/-- **Arguments that are accepted denote the value that they give.** -/
theorem denotes_of_gives (hk : i.kind.isReference = true)
    (h : (w.readArguments (some x) i a).Gives v) : w.Denotes ⟨x, i.keyword⟩ a i.kind v := by
  unfold readArguments at h
  generalize i.kind = kind at hk h
  cases kind with
  | entity type =>
    obtain ⟨name, hargs, h⟩ := bind_eq_ok.1 (Logged.gives_ofInput.1 h)
    obtain ⟨y, hy, ⟨⟩⟩ := bind_eq_ok.1 h
    exact .entity (single?_eq_ok.1 hargs) (readEntity?_eq_ok.1 hy).2.1
  | interfaceEntity type =>
    obtain ⟨name, hargs, h⟩ := bind_eq_ok.1 (Logged.gives_ofInput.1 h)
    obtain ⟨y, hy, ⟨⟩⟩ := bind_eq_ok.1 h
    exact .interfaceEntity (single?_eq_ok.1 hargs) (readInterface?_eq_ok.1 hy).2.1
  | relativeEntity type =>
    obtain ⟨name, hargs, h⟩ := Logged.gives_ofInput_bind.1 h
    obtain ⟨y, hy, h⟩ := Logged.gives_ofExcept_bind.1 h
    obtain ⟨hy, hback⟩ := readRelative_eq_ok.1 hy
    rw [h.of_pure]
    exact .relativeEntity (single?_eq_ok.1 hargs) (readEntity?_eq_ok.1 hy).2.1 hback
  | entities type unique counts =>
    obtain ⟨es, hes, h⟩ := Logged.gives_ofExcept_bind.1 h
    obtain ⟨sized, hsized, hv⟩ := Logged.gives_ofInput_bind.1 h
    obtain ⟨rfl, hleast, hmost⟩ := sized_eq_ok.1 hsized
    obtain ⟨-, ⟨parts, hparts, rfl⟩, -⟩ := readEntities_eq_ok.1 hes
    rw [hv.of_pure]
    exact .entities hparts hleast hmost
  | interfaceEntities type unique counts =>
    obtain ⟨_, hcounts, h⟩ := bind_eq_ok.1 (Logged.gives_ofInput.1 h)
    obtain ⟨es, hes, ⟨⟩⟩ := bind_eq_ok.1 h
    exact .interfaceEntities hcounts
      ((readInterfaces?_eq_ok.1 hes).1.imp fun _ _ hy => (readInterface?_eq_ok.1 hy).2.1)
  | entityLists type unique counts =>
    obtain ⟨groups, lists, hgroups, hlists, h⟩ := gives_readGroups_bind.1 h
    obtain ⟨sized, hsized, hv⟩ := Logged.gives_ofInput_bind.1 h
    obtain ⟨rfl, hleast, hmost⟩ := sized_eq_ok.1 hsized
    rw [hv.of_pure]
    exact .entityLists hgroups (hlists.imp fun _ _ hes => (readEntities_eq_ok.1 hes).2.1) hleast
      hmost
  | keyword =>
    obtain ⟨name, keyword, y, hargs, hy, hinput, rfl⟩ :=
      readKeyword?_eq_ok.1 (Logged.gives_ofInput.1 h)
    exact .keyword hargs (readEntity?_eq_ok.1 hy).2.1 hinput
  | output unit =>
    obtain ⟨c, rfl, hc, hunit⟩ := readOutput?_eq_ok.1 (Logged.gives_ofExcept.1 h)
    obtain ⟨rootName, hnames, hempty, hroot, hhandle, hfollowed⟩ := readChain?_eq_ok.1 hc
    exact .output hnames hempty (readEntity?_eq_ok.1 hroot).2.1 hhandle hfollowed hunit
  | _ => cases hk

/-- **Arguments that denote a value which is as it should be are accepted with it.** -/
theorem gives_of_denotes (hx : w.hasNamespace (some x) = true) (hholds : i.kind.Holds w.Meets v)
    (h : w.Denotes ⟨x, i.keyword⟩ a i.kind v) : (w.readArguments (some x) i a).Gives v := by
  unfold readArguments
  generalize i.kind = kind at hholds h
  cases h with
  | entity hargs hname =>
    have hmeets := hholds.held _ (.head _)
    refine Logged.gives_ofInput.2 (bind_eq_ok.2 ⟨_, single?_eq_ok.2 hargs, ?_⟩)
    exact bind_eq_ok.2 ⟨_, readEntity?_eq_ok.2 ⟨hx, hname, hmeets.2⟩, rfl⟩
  | interfaceEntity hargs hname =>
    have hmeets := hholds.held _ (.head _)
    refine Logged.gives_ofInput.2 (bind_eq_ok.2 ⟨_, single?_eq_ok.2 hargs, ?_⟩)
    exact bind_eq_ok.2 ⟨_, readInterface?_eq_ok.2 ⟨hx, hname, hmeets.2⟩, rfl⟩
  | relativeEntity hargs hname hback =>
    have hmeets := hholds.held _ (.head _)
    refine Logged.gives_ofInput_bind.2 ⟨_, single?_eq_ok.2 hargs, ?_⟩
    refine Logged.gives_ofExcept_bind.2 ⟨_, readRelative_eq_ok.2 ?_, Logged.gives_pure.2 rfl⟩
    exact ⟨readEntity?_eq_ok.2 ⟨hx, hname, hmeets.2⟩, hback⟩
  | @entities type unique counts parts hparts hleast hmost =>
    obtain ⟨hmeet, hnodup⟩ :=
      (InputKind.holds_ofEntities_iff (InputKind.uniqueLists_ofEntities _)).1 hholds
    refine Logged.gives_ofExcept_bind.2 ⟨parts.flatten, readEntities_eq_ok.2 ?_, ?_⟩
    · exact ⟨hx, ⟨parts, hparts, rfl⟩, fun y hy => (hmeet y hy).2, hnodup⟩
    · exact Logged.gives_ofInput_bind.2
        ⟨_, sized_eq_ok.2 ⟨rfl, hleast, hmost⟩, Logged.gives_pure.2 rfl⟩
  | @interfaceEntities type unique counts es hcounts hes =>
    obtain ⟨hmeet, hnodup⟩ :=
      (InputKind.holds_ofEntities_iff (InputKind.uniqueLists_ofInterfaceEntities _)).1 hholds
    refine Logged.gives_ofInput.2 (bind_eq_ok.2 ⟨(), hcounts, ?_⟩)
    refine bind_eq_ok.2 ⟨es, readInterfaces?_eq_ok.2 ⟨?_, hnodup⟩, rfl⟩
    exact ((List.forall₂_and_left _ _).2 ⟨hmeet, hes.flip⟩).flip.imp fun _ _ hy =>
      readInterface?_eq_ok.2 ⟨hx, hy.2, hy.1.2⟩
  | @entityLists type unique counts groups lists hgroups hlists hleast hmost =>
    have hmeet := InputKind.holds_ofEntityLists_iff.1 hholds
    refine gives_readGroups_bind.2 ⟨groups, lists, hgroups, ?_, ?_⟩
    · refine ((List.forall₂_and_left _ _).2 ⟨hmeet, hlists.flip⟩).flip.imp fun group es hes => ?_
      obtain ⟨⟨hmeet, hnodup⟩, hparts⟩ := hes
      exact readEntities_eq_ok.2 ⟨hx, hparts, fun y hy => (hmeet y hy).2, hnodup⟩
    · exact Logged.gives_ofInput_bind.2
        ⟨_, sized_eq_ok.2 ⟨rfl, hleast, hmost⟩, Logged.gives_pure.2 rfl⟩
  | keyword hargs hname hinput =>
    have hmeets := hholds.held _ (.head _)
    exact Logged.gives_ofInput.2 (readKeyword?_eq_ok.2
      ⟨_, _, _, hargs, readEntity?_eq_ok.2 ⟨hx, hname, hmeets.2⟩, hinput, rfl⟩)
  | @output unit rootName c hnames hempty hname hhandle hfollowed hunit =>
    have hmeets := hholds.held (c.root, entityType) (.head _)
    refine Logged.gives_ofExcept.2 (readOutput?_eq_ok.2 ⟨c, rfl, readChain?_eq_ok.2 ?_, hunit⟩)
    exact ⟨rootName, hnames, hempty, readEntity?_eq_ok.2 ⟨hx, hname, hmeets.2⟩, hhandle, hfollowed⟩

/-! ## Tokens -/

theorem StandsFor.named {type : TypeRef} {name : String} {es : List EntityId}
    (h : w.StandsFor type name es) : ∃ y, w.named? name = some y := by
  obtain ⟨y, hname, -⟩ := h
  exact ⟨y, hname⟩

/-- Where arguments name entities only, they are braces and names of registered entities. -/
theorem Denotes.names {id : InputId} {kind : InputKind} (hk : kind.namesEntities = true)
    (h : w.Denotes id a kind v) {t : String} (ht : t ∈ a.args) :
    Record.isBrace t = true ∨ ∃ y, w.named? t = some y := by
  have hsingle {name : String} {y : EntityId} (hargs : a.args = [name])
      (hname : w.named? name = some y) : ∃ y, w.named? t = some y := by
    rw [hargs] at ht
    rw [List.mem_singleton.1 ht]
    exact ⟨y, hname⟩
  cases h with
  | entity hargs hname | interfaceEntity hargs hname | relativeEntity hargs hname =>
    exact .inr (hsingle hargs hname)
  | entities hparts =>
    exact .inr (forall_mem_of_forall₂ (P := fun t => ∃ y, w.named? t = some y) hparts.flip
      (fun _ _ hstands => StandsFor.named hstands) t ht)
  | interfaceEntities hcounts hes =>
    exact .inr (forall_mem_of_forall₂ (P := fun t => ∃ y, w.named? t = some y) hes.flip
      (fun y _ hname => ⟨y, hname⟩) t ht)
  | entityLists hgroups hlists =>
    refine (Arguments.subArguments?_covers hgroups ht).imp_right ?_
    rintro ⟨group, hgroup, ht⟩
    refine forall_mem_of_forall₂ (P := fun group => t ∈ group.args → ∃ y, w.named? t = some y)
      hlists.flip (fun es group hes ht => ?_) group hgroup ht
    obtain ⟨parts, hparts, -⟩ := hes
    exact forall_mem_of_forall₂ (P := fun t => ∃ y, w.named? t = some y) hparts.flip
      (fun _ _ hstands => StandsFor.named hstands) t ht
  | keyword | output => cases hk

end World

end ModelInputs
