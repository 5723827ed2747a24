import ModelInputs.Proofs.Keywords
import ModelInputs.Proofs.Reference.Mentions
import ModelInputs.Proofs.Reference.Names

/-!
# The values that arguments give

Arguments give an input a value of its kind, and nothing else: an entity input an entity, a list of
numbers numbers, a key list lists of entities by entities.

* `InputKind.Fits`: the values that inputs of a kind are set to by arguments;
* **`World.readArguments_fits`**, **`World.editKeyLists_entries`**: arguments give such a value;
* `World.Assigns`, `World.assigns_of_gives`: the ways in which arguments make an assignment;
* `Assignment.Fits`, **`World.readKind_fits`**: what arguments assign fits the input.
-/

namespace ModelInputs

/-- The values that inputs of a kind are set to by arguments. -/
inductive InputKind.Fits : InputKind → Value → Prop where
  | bool {b : Bool} : Fits .boolean (.bool b)
  | int {range : IntRange} {n : Int} : Fits (.integer range) (.int n)
  | float {unit : UnitType} {range : NumberRange} {x : Float} : Fits (.number unit range) (.float x)
  | text {s : String} : Fits .text (.text s)
  | choice {choices : List String} {caseSensitive : Bool} {s : String} :
    Fits (.choice choices caseSensitive) (.text s)
  | member {enumeration : Enumeration} {m : EnumMember} : Fits (.member enumeration) (.member m)
  | date {d : DateTime} : Fits .date (.date d)
  | colour {c : Colour} : Fits .colour (.colour c)
  | vector {unit : UnitType} {range : NumberRange} {v : Vector3} :
    Fits (.vector unit range) (.vector v)
  | ints {range : IntRange} {counts : CountRange} {ns : List Int} :
    Fits (.integers range counts) (.list (ns.map .int))
  | floats {unit : UnitType} {range : NumberRange} {counts : CountRange} {xs : List Float} :
    Fits (.numbers unit range counts) (.list (xs.map .float))
  | texts {choices : Option (List String)} {counts : CountRange} {ss : List String} :
    Fits (.texts choices counts) (.list (ss.map .text))
  | colours {counts : CountRange} {cs : List Colour} :
    Fits (.colours counts) (.list (cs.map .colour))
  | vectors {unit : UnitType} {counts : CountRange} {vs : List Vector3} :
    Fits (.vectors unit counts) (.list (vs.map .vector))
  | entity {type : TypeRef} {e : EntityId} : Fits (.entity type) (.entity e)
  | interfaceEntity {type : TypeRef} {e : EntityId} : Fits (.interfaceEntity type) (.entity e)
  | relativeEntity {type : TypeRef} {e : EntityId} : Fits (.relativeEntity type) (.entity e)
  | entities {type : TypeRef} {unique : Bool} {counts : CountRange} {es : List EntityId} :
    Fits (.entities type unique counts) (.ofEntities es)
  | interfaceEntities {type : TypeRef} {unique : Bool} {counts : CountRange} {es : List EntityId} :
    Fits (.interfaceEntities type unique counts) (.ofEntities es)
  | entityLists {type : TypeRef} {unique : Bool} {counts : CountRange}
    {lists : List (List EntityId)} : Fits (.entityLists type unique counts) (.ofEntityLists lists)
  | keyLists {keyType valueType : TypeRef} {keyless : List EntityId}
    {lists : List (EntityId × List EntityId)} :
    Fits (.keyLists keyType valueType keyless) (.map (Value.keyEntries lists))
  | keyword {e : EntityId} {id : InputId} : Fits .keyword (.keywordRef e id)
  | chain {unit : Option UnitType} {c : OutputChain} : Fits (.output unit) (.chain c)
  | sampleEntity {unit : UnitType} {range : NumberRange} {e : EntityId} :
    Fits (.sample unit range) (.entity e)
  | sampler {unit : UnitType} {range : NumberRange} {s : Sampler} :
    Fits (.sample unit range) (.sampler s)
  | provider {type : TypeRef} {invalid : List TypeRef} {p : Provider} :
    Fits (.provider type invalid) (.provider p)
  | attributes {ids : List AttributeId} :
    Fits .attributes (.list (ids.map fun a => .handle (.attribute a)))
  | customOutputs {outputs : List CustomOutput} :
    Fits .customOutputs (.list (outputs.map fun o => .handle (.custom o)))

/-! ## Single values -/

section

variable {a : Arguments} {v : Value}

theorem readText?_eq_ok (h : readText? a = .ok v) : ∃ s, v = .text s := by
  obtain ⟨s, -, h⟩ := bind_eq_ok.1 h
  split at h
  · cases h
  · cases h
    exact ⟨s, rfl⟩

theorem readChoice?_eq_ok {choices : List String} {caseSensitive : Bool}
    (h : readChoice? a choices caseSensitive = .ok v) : ∃ s, v = .text s := by
  obtain ⟨token, -, h⟩ := bind_eq_ok.1 h
  dsimp only at h
  split at h
  · cases h
    exact ⟨_, rfl⟩
  · cases h

theorem readMember?_eq_ok {enumeration : Enumeration} (h : readMember? a enumeration = .ok v) :
    ∃ m, v = .member m := by
  obtain ⟨token, -, h⟩ := bind_eq_ok.1 h
  split at h
  · cases h
    exact ⟨_, rfl⟩
  · cases h

theorem readTexts?_eq_ok {choices : Option (List String)} {counts : CountRange}
    (h : readTexts? a choices counts = .ok v) : ∃ ss : List String, v = .list (ss.map .text) := by
  obtain ⟨_, -, h⟩ := bind_eq_ok.1 h
  split at h
  · cases h
  split at h
  · cases h
    exact ⟨_, rfl⟩
  split at h
  · cases h
  · cases h
    exact ⟨_, rfl⟩

theorem readVectors_gives {settings : Settings} {unit : UnitType} {counts : CountRange}
    (h : (readVectors settings a unit counts).Gives v) :
    ∃ vs : List Vector3, v = .list (vs.map .vector) := by
  unfold readVectors at h
  dsimp only at h
  obtain ⟨_, -, h⟩ := h.of_bind
  obtain ⟨_, -, h⟩ := h.of_bind
  obtain ⟨vs, -, h⟩ := h.of_bind
  exact ⟨vs, h.of_pure⟩

end

namespace World

variable {w : World} {this : Option EntityId} {a : Arguments} {v : Value}

/-! ## References -/

theorem chainSample_eq_ok {unit : UnitType} {c : OutputChain}
    (h : w.chainSample unit c = .ok v) : v = .sampler (.chain c unit) := by
  unfold chainSample at h
  dsimp only at h
  split at h
  · obtain ⟨_, -, h⟩ := bind_eq_ok.1 h
    obtain ⟨_, -, h⟩ := bind_eq_ok.1 h
    cases h
    rfl
  · cases h
    rfl

theorem constantSample_gives {unit : UnitType} {range : NumberRange}
    (h : (w.constantSample unit range a).Gives v) : ∃ x, v = .sampler (.constant x unit) := by
  obtain ⟨xs, -, h⟩ := h.of_bind
  split at h
  · exact ⟨_, h.of_pure⟩
  · exact absurd h.of_ofInput nofun

/-- A sample is an entity or a sampler of the unit type of the input. -/
theorem readSample_gives {unit : UnitType} {range : NumberRange}
    (h : (w.readSample this unit range a).Gives v) :
    (∃ e, v = .entity e) ∨ ∃ s : Sampler, v = .sampler s ∧ s.unitType = unit := by
  obtain ⟨_, -, h⟩ := h.of_bind
  have hconstant (h : (w.constantSample unit range a).Gives v) :
      (∃ e, v = .entity e) ∨ ∃ s : Sampler, v = .sampler s ∧ s.unitType = unit := by
    obtain ⟨x, rfl⟩ := constantSample_gives h
    exact .inr ⟨_, rfl, rfl⟩
  split at h
  · unfold shortSample at h
    split at h
    · obtain ⟨_, -, h⟩ := h.of_bind
      exact .inl ⟨_, h.of_pure⟩
    split at h
    · exact hconstant h
    · obtain ⟨exp, -, h⟩ := h.of_bind
      exact .inr ⟨_, h.of_pure, rfl⟩
  · unfold longSample at h
    split at h
    · exact .inr ⟨_, chainSample_eq_ok h.of_ofExcept, rfl⟩
    split at h
    · exact absurd h Logged.not_gives_throw
    · exact hconstant h

theorem readProvider_eq_ok {type : TypeRef} {invalid : List TypeRef} {token : String}
    (h : w.readProvider this type invalid token = .ok v) : ∃ p, v = .provider p := by
  unfold readProvider at h
  split at h
  · split at h
    · cases h
      exact ⟨_, rfl⟩
    · cases h
  · obtain ⟨exp, -, h⟩ := bind_eq_ok.1 h
    cases h
    exact ⟨_, rfl⟩

/-! ## By kind -/

/-- **Arguments give an input a value of its kind.** -/
theorem readArguments_fits {i : Input} (h : (w.readArguments this i a).Gives v) :
    i.kind.Fits v := by
  unfold readArguments at h
  split at h
  · next hk =>
    obtain ⟨token, -, h⟩ := bind_eq_ok.1 h.of_ofInput
    obtain ⟨b, -, h⟩ := bind_eq_ok.1 h
    cases h
    rw [hk]
    exact .bool
  · next range hk =>
    obtain ⟨token, -, h⟩ := bind_eq_ok.1 h.of_ofInput
    obtain ⟨n, -, h⟩ := bind_eq_ok.1 h
    cases h
    rw [hk]
    exact .int
  · next unit range hk =>
    obtain ⟨_, -, h⟩ := h.of_bind
    obtain ⟨xs, -, h⟩ := h.of_bind
    split at h
    · rw [hk, h.of_pure]
      exact .float
    · exact absurd h.of_ofInput nofun
  · next hk =>
    obtain ⟨s, rfl⟩ := readText?_eq_ok h.of_ofInput
    rw [hk]
    exact .text
  · next choices caseSensitive hk =>
    obtain ⟨s, rfl⟩ := readChoice?_eq_ok h.of_ofInput
    rw [hk]
    exact .choice
  · next e hk =>
    obtain ⟨m, rfl⟩ := readMember?_eq_ok h.of_ofInput
    rw [hk]
    exact .member
  · next hk =>
    obtain ⟨d, -, rfl⟩ := map_eq_ok.1 h.of_ofInput
    rw [hk]
    exact .date
  · next hk =>
    obtain ⟨c, -, rfl⟩ := map_eq_ok.1 h.of_ofInput
    rw [hk]
    exact .colour
  · next unit range hk =>
    obtain ⟨x, -, h⟩ := h.of_bind
    rw [hk, h.of_pure]
    exact .vector
  · next range counts hk =>
    obtain ⟨_, -, h⟩ := bind_eq_ok.1 h.of_ofInput
    obtain ⟨ns, -, h⟩ := bind_eq_ok.1 h
    cases h
    rw [hk]
    exact .ints
  · next unit range counts hk =>
    obtain ⟨xs, -, h⟩ := h.of_bind
    obtain ⟨sized, -, h⟩ := h.of_bind
    rw [hk, h.of_pure]
    exact .floats
  · next choices counts hk =>
    obtain ⟨ss, rfl⟩ := readTexts?_eq_ok h.of_ofInput
    rw [hk]
    exact .texts
  · next counts hk =>
    obtain ⟨cs, -, h⟩ := h.of_bind
    obtain ⟨sized, -, h⟩ := h.of_bind
    rw [hk, h.of_pure]
    exact .colours
  · next unit counts hk =>
    obtain ⟨vs, rfl⟩ := readVectors_gives h
    rw [hk]
    exact .vectors
  · next type hk =>
    obtain ⟨name, -, h⟩ := bind_eq_ok.1 h.of_ofInput
    obtain ⟨e, -, h⟩ := bind_eq_ok.1 h
    cases h
    rw [hk]
    exact .entity
  · next type hk =>
    obtain ⟨name, -, h⟩ := bind_eq_ok.1 h.of_ofInput
    obtain ⟨e, -, h⟩ := bind_eq_ok.1 h
    cases h
    rw [hk]
    exact .interfaceEntity
  · next type hk =>
    obtain ⟨name, -, h⟩ := h.of_bind
    obtain ⟨e, -, h⟩ := h.of_bind
    rw [hk, h.of_pure]
    exact .relativeEntity
  · next type unique counts hk =>
    obtain ⟨es, -, h⟩ := h.of_bind
    obtain ⟨sized, -, h⟩ := h.of_bind
    rw [hk, h.of_pure]
    exact .entities
  · next type unique counts hk =>
    obtain ⟨_, -, h⟩ := bind_eq_ok.1 h.of_ofInput
    obtain ⟨es, -, h⟩ := bind_eq_ok.1 h
    cases h
    rw [hk]
    exact .interfaceEntities
  · next type unique counts hk =>
    obtain ⟨lists, -, h⟩ := h.of_bind
    obtain ⟨sized, -, h⟩ := h.of_bind
    rw [hk, h.of_pure]
    exact .entityLists
  · next hk =>
    obtain ⟨_, _, _, -, -, -, rfl⟩ := readKeyword?_eq_ok.1 h.of_ofInput
    rw [hk]
    exact .keyword
  · next unit hk =>
    obtain ⟨c, rfl, -⟩ := readOutput?_eq_ok.1 h.of_ofExcept
    rw [hk]
    exact .chain
  · next unit range hk =>
    rw [hk]
    obtain ⟨e, rfl⟩ | ⟨s, rfl, -⟩ := readSample_gives h
    · exact .sampleEntity
    · exact .sampler
  · next type invalid hk =>
    obtain ⟨token, -, h⟩ := h.of_bind
    obtain ⟨p, rfl⟩ := readProvider_eq_ok h.of_ofExcept
    rw [hk]
    exact .provider
  · exact absurd h Logged.not_gives_throw

/-! ## Key lists -/

theorem editGroup_entries {keyword : String} {keyType valueType : TypeRef} {l l' : KeyLists}
    {group : Arguments} (hl : ∃ lists, l.entries = Value.keyEntries lists)
    (h : (w.editGroup this keyword keyType valueType l group).Gives l') :
    ∃ lists, l'.entries = Value.keyEntries lists := by
  obtain ⟨lists, hl⟩ := hl
  unfold editGroup at h
  split at h
  · rw [h.of_pure]
    exact ⟨lists, hl⟩
  split at h
  · next key _ =>
    obtain ⟨es, -, h⟩ := h.of_bind
    rw [h.of_pure, KeyLists.put, hl]
    obtain ⟨lists', hlists', -⟩ := Value.put_keyEntries key es lists
    exact ⟨lists', hlists'⟩
  · obtain ⟨es, -, h⟩ := h.of_bind
    rw [h.of_pure]
    exact ⟨lists, hl⟩

/-- **Edits of a key list leave a key list.** -/
theorem editKeyLists_entries {keyword : String} {keyType valueType : TypeRef} {l l' : KeyLists}
    (hl : ∃ lists, l.entries = Value.keyEntries lists)
    (h : (w.editKeyLists this keyword keyType valueType l a).Gives l') :
    ∃ lists, l'.entries = Value.keyEntries lists := by
  obtain ⟨groups, -, h⟩ := h.of_bind
  exact h.foldlM_induction hl fun _ _ _ hc hstep => editGroup_entries hc hstep

end World

/-! ## Assignments -/

/-- The assignments that set an input of a kind to a value of that kind. -/
inductive Assignment.Fits (kind : InputKind) : Assignment → Prop where
  | value {v : Value} : kind.Fits v → Fits kind (.value v)
  | keyLists {lists : KeyLists} : kind.Fits lists.toValue → Fits kind (.keyLists lists)
  | attributes {e : EntityId} {definitions : List Attribute} :
    kind = .attributes → Fits kind (.attributes e definitions)
  | customOutputs {e : EntityId} {outputs : List CustomOutput} :
    kind = .customOutputs → Fits kind (.customOutputs e outputs)
  | nothing : Fits kind .nothing

namespace World

/-- The assignment is made by arguments, in the way of the kind of the input. -/
inductive Assigns (w : World) (this : Option EntityId) (i : Input) (a : Arguments) :
    Assignment → Prop where
  | value {v : Value} : (w.readArguments this i a).Gives v → Assigns w this i a (.value v)
  | keyLists {keyType valueType : TypeRef} {keyless : List EntityId} {l lists : KeyLists} :
    i.kind = .keyLists keyType valueType keyless → KeyLists.ofInput i = .ok l →
    (w.editKeyLists this i.keyword keyType valueType l a).Gives lists →
    Assigns w this i a (.keyLists lists)
  | attributes {e : EntityId} {definitions : List Attribute} :
    i.kind = .attributes → this = some e → (w.readAttributes e a).Gives definitions →
    Assigns w this i a (.attributes e definitions)
  | customOutputs {e : EntityId} {outputs : List CustomOutput} :
    i.kind = .customOutputs → this = some e → (w.readCustomOutputs e a).Gives outputs →
    Assigns w this i a (.customOutputs e outputs)
  | nothing {advice : String} : i.kind = .deprecated advice false → Assigns w this i a .nothing

variable {w : World} {this : Option EntityId} {a : Arguments}

theorem assigns_of_gives {i : Input} {assignment : Assignment}
    (h : (w.readKind this i a).Gives assignment) : w.Assigns this i a assignment := by
  unfold readKind at h
  split at h
  · next hk =>
    obtain ⟨l, hl, h⟩ := h.of_bind
    obtain ⟨lists, hedited, h⟩ := h.of_bind
    rw [h.of_pure]
    exact .keyLists hk hl.of_ofExcept hedited
  · next hk =>
    obtain ⟨e, he, h⟩ := h.of_bind
    obtain ⟨definitions, hread, h⟩ := h.of_bind
    rw [h.of_pure]
    exact .attributes hk (requireEntity_gives he) hread
  · next hk =>
    obtain ⟨e, he, h⟩ := h.of_bind
    obtain ⟨outputs, hread, h⟩ := h.of_bind
    rw [h.of_pure]
    exact .customOutputs hk (requireEntity_gives he) hread
  · next advice fatal hk =>
    cases fatal with
    | true => exact absurd h Logged.not_gives_throw
    | false =>
      obtain ⟨_, -, h⟩ := h.of_bind
      rw [h.of_pure]
      exact .nothing hk
  · obtain ⟨v, hv, h⟩ := h.of_bind
    rw [h.of_pure]
    exact .value hv

/-- **What arguments assign fits the input**, where a key list has the value of a key list. -/
theorem readKind_fits {i : Input} {assignment : Assignment}
    (hkeys : i.kind.isKeyList = true → i.kind.Fits i.value)
    (h : (w.readKind this i a).Gives assignment) : assignment.Fits i.kind := by
  cases assigns_of_gives h with
  | value hread => exact .value (readArguments_fits hread)
  | @keyLists _ _ _ l _ hk hl hedited =>
    rw [hk] at hkeys ⊢
    have hvalue := hkeys rfl
    generalize hv : i.value = v at hvalue
    cases hvalue with
    | @keyLists _ _ _ entries =>
      rw [KeyLists.ofInput, hv, Value.asEntries_map] at hl
      cases hl
      obtain ⟨entries', hentries'⟩ := editKeyLists_entries ⟨entries, rfl⟩ hedited
      refine .keyLists ?_
      rw [KeyLists.toValue, hentries']
      exact .keyLists
  | attributes hk => exact .attributes hk
  | customOutputs hk => exact .customOutputs hk
  | nothing => exact .nothing

end World

end ModelInputs
