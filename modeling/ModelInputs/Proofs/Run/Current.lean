import ModelInputs.Proofs.Run.Tokens

/-!
# Tokens that stay current

As long as no entity gets another name, an input that refers to one entity, or to an input of one,
keeps tokens by which this is found: the entity keeps its name, one that is killed takes the tokens
along, and a keyword leaves new ones. Only where a synonym of a synonym is set, it is the latter
that gets the tokens.

* `InputKind.isSingle`: the inputs that refer to one entity, or to an input of one;
* `World.Finds`: the tokens by which that is found;
* `World.TokensCurrent`: those that inputs keep are such tokens;
* `World.SteadyStep`, `World.SteadyReached`: runs without new names;
* **`World.SteadyStep.tokensCurrent`**: every step of such a run keeps this.
-/

namespace ModelInputs

/-- Inputs of the kind refer to one entity, or to an input of one. -/
def InputKind.isSingle : InputKind → Bool
  | entity _ | interfaceEntity _ | relativeEntity _ | keyword => true
  | _ => false

theorem InputKind.isReference_of_isSingle {kind : InputKind} (h : kind.isSingle = true) :
    kind.isReference = true := by
  cases kind with
  | entity | interfaceEntity | relativeEntity | keyword => rfl
  | _ => cases h

theorem InputKind.namesEntities_of_isSingle {kind : InputKind} (h : kind.isSingle = true)
    (hne : kind ≠ .keyword) : kind.namesEntities = true := by
  cases kind with
  | entity | interfaceEntity | relativeEntity => rfl
  | keyword => exact absurd rfl hne
  | _ => cases h

/-- An input that refers to one entity is as it was once another one is gone, or else keeps no
tokens. -/
theorem Input.letGo_of_isSingle {i : Input} (h : i.kind.isSingle = true) (e : EntityId) :
    (i.letGo e).tokens = none ∨ i.letGo e = i ∧ e ∉ i.stored.mentions := by
  have hlist : i.kind.isKeyList = false ∧ i.kind.isEntityList = false := by
    cases hk : i.kind with
    | entity | interfaceEntity | relativeEntity | keyword => exact ⟨rfl, rfl⟩
    | _ =>
      rw [hk] at h
      cases h
  unfold letGo without
  rw [hlist.1, hlist.2]
  split
  · exact .inl rfl
  · next hmention => exact .inr ⟨rfl, fun hstored => hmention (List.mem_append_left _ hstored)⟩

namespace World

variable {w w' : World} {e : EntityId} {id : InputId} {a : Arguments} {kind : InputKind} {v : Value}

/-! ## Tokens that find a value -/

/-- The tokens name the entity, or the input of one. -/
inductive Finds (w : World) : List String → Value → Prop where
  | entity {name : String} {y : EntityId} :
    w.named? name = some y → Finds w [name] (.entity y)
  | keyword {name keyword : String} {y : EntityId} :
    w.named? name = some y → (w.input? ⟨y, keyword⟩).isSome = true →
    Finds w [name, keyword] (.keywordRef y ⟨y, keyword⟩)

theorem Denotes.finds (hk : kind.isSingle = true) (h : w.Denotes id a kind v) :
    w.Finds a.args v := by
  cases h with
  | entity hargs hname | interfaceEntity hargs hname | relativeEntity hargs hname =>
    rw [hargs]
    exact .entity hname
  | keyword hargs hname hinput =>
    rw [hargs]
    exact .keyword hname hinput
  | entities | interfaceEntities | entityLists | output => cases hk

/-- Arguments by which the value of an input is found denote it, unless they lead back to its
entity. -/
theorem Finds.denotes (hk : kind.isSingle = true) (hfits : kind.Fits v)
    (hback : ∀ type y, kind = .relativeEntity type → v = .entity y →
      w.leadsTo id.keyword (some id.entity) w.entities.length [] y = .ok false)
    (h : w.Finds a.args v) : w.Denotes id a kind v := by
  generalize hargs : a.args = ts at h
  cases h with
  | entity hname =>
    cases hfits with
    | entity => exact .entity hargs hname
    | interfaceEntity => exact .interfaceEntity hargs hname
    | relativeEntity => exact .relativeEntity hargs hname (hback _ _ rfl rfl)
    | _ => cases hk
  | keyword hname hinput =>
    cases hfits with
    | keyword => exact .keyword hargs hname hinput

/-- What is found is found later too, if the name stands for the same entity then. -/
theorem Finds.mono {ts : List String}
    (hnames : ∀ name, ∀ y ∈ v.mentions, w.named? name = some y → w'.named? name = some y)
    (hinputs : ∀ id, (w.input? id).isSome = true → (w'.input? id).isSome = true)
    (h : w.Finds ts v) : w'.Finds ts v := by
  cases h with
  | entity hname => exact .entity (hnames _ _ (.head _) hname)
  | keyword hname hinput => exact .keyword (hnames _ _ (.head _) hname) (hinputs _ hinput)

/-! ## Worlds -/

/-- The tokens that registered entities keep for inputs that refer to one entity find its value. -/
def TokensCurrent (w : World) : Prop :=
  ∀ id i, id.entity ∈ w.registered → w.input? id = some i → i.kind.isSingle = true →
    ∀ ts, i.tokens = some ts → Record.isBalanced ts = true ∧ w.Finds ts i.stored

namespace TokensCurrent

/-- A step after which names of entities and inputs are there as they were, except for entities that
inputs with tokens do not refer to. -/
theorem of_kept (hw : w.TokensCurrent)
    (hinputs : ∀ id, (w.input? id).isSome = true → (w'.input? id).isSome = true)
    (hkept : ∀ id i', id.entity ∈ w'.registered → w'.input? id = some i' →
      i'.kind.isSingle = true → i'.tokens = none ∨ id.entity ∈ w.registered ∧
        w.input? id = some i' ∧ ∀ name, ∀ y ∈ i'.stored.mentions,
          w.named? name = some y → w'.named? name = some y) : w'.TokensCurrent := by
  intro id i' hid hi' hk ts hts
  obtain hnone | ⟨hold, hi, hnames⟩ := hkept id i' hid hi' hk
  · rw [hnone] at hts
    cases hts
  · exact (hw id i' hold hi hk ts hts).imp_right (Finds.mono hnames hinputs)

theorem create (hw : w.TokensCurrent) (hwell : w.WellFormed) {className name : String}
    {loose : Bool} (h : w.create? className name loose = .ok (w', e)) : w'.TokensCurrent := by
  refine hw.of_kept (fun id hid => ?_) fun id i' hid hi' _ => ?_
  · obtain ⟨i, hi⟩ := Option.isSome_iff_exists.1 hid
    obtain ⟨x, hx, -⟩ := Option.bind_eq_some_iff.1 hi
    have hlt : id.entity.index < w.entities.length := (List.getElem?_eq_some_iff.1 hx).1
    rw [input?_create h, if_neg]
    · exact hid
    · rw [(create?_eq_ok h).1]
      intro hnew
      rw [hnew] at hlt
      exact Nat.lt_irrefl _ hlt
  · rw [input?_create h] at hi'
    split at hi'
    · left
      rw [← (hwell.palette.inputs className i' (List.mem_of_find?_eq_some hi')).reset_eq]
      rfl
    · next hne =>
      refine .inr ⟨((mem_registered_create h).2 hid).resolve_left hne, hi', fun n y _ hname => ?_⟩
      refine (hwell.create h).named?_eq_some.2 ?_
      have hmem := hwell.named?_eq_some.1 hname
      obtain ⟨-, ⟨-, rfl⟩ | rfl⟩ := create?_eq_ok h
      · exact hmem
      · exact List.mem_append_left _ hmem

theorem addInput (hw : w.TokensCurrent) {i : Input} (hi : i.IsNew)
    (h : w.addInput? e i = .ok w') : w'.TokensCurrent := by
  have hregistry := registry_addInput h
  refine hw.of_kept (fun id hid => ?_) fun id i' hid hi' _ => ?_
  · obtain ⟨i, hi⟩ := Option.isSome_iff_exists.1 hid
    rw [input?_of_addInput h hi]
    rfl
  · obtain ⟨-, rfl⟩ | hold := input?_addInput h hi'
    · left
      rw [← hi.reset_eq]
      rfl
    · refine .inr ⟨?_, hold, fun name y _ hname => ?_⟩
      · rwa [registered, hregistry] at hid
      · rwa [named?, hregistry]

theorem kill (hw : w.TokensCurrent) (hwell : w.WellFormed) (he : e ∈ w.registered) :
    (w.kill e).world.TokensCurrent := by
  obtain ⟨hwell', changed, -, hkilled⟩ := hwell.kill he
  refine hw.of_kept (fun id hid => ?_) fun id i' hid hi' hk => ?_
  · rw [hkilled.input?_eq]
    split
    · rwa [Option.isSome_map]
    · exact hid
  · rw [hkilled.input?_eq, if_pos hid] at hi'
    obtain ⟨i, hi, rfl⟩ := Option.map_eq_some_iff.1 hi'
    rw [(i.letGo_sameDeclaration e).kind_eq] at hk
    refine (i.letGo_of_isSingle hk e).imp_right ?_
    rintro ⟨hsame, hmention⟩
    rw [hsame]
    refine ⟨(hkilled.mem_registered.1 hid).2, hi, fun name y hy hname => ?_⟩
    have hne : y ≠ e := by
      rintro rfl
      exact hmention hy
    refine hwell'.named?_eq_some.2 ?_
    rw [hkilled.registry_eq]
    exact List.mem_filter.2 ⟨hwell.named?_eq_some.1 hname, bne_iff_ne.2 hne⟩

/-- **A keyword leaves the tokens of what it sets**, unless a synonym of a synonym sets it. -/
theorem applyArguments (hw : w.TokensCurrent)
    (hdirect : w.receiver ⟨e, a.keyword⟩ = w.target ⟨e, a.keyword⟩)
    (h : (w.applyArguments e a).Gives (w', id)) : w'.TokensCurrent := by
  have hchanges := (applyArguments_gives h).2.1
  have hnamed (name : String) : w'.named? name = w.named? name := by
    rw [named?, named?, hchanges.registry_eq]
  have hinputs (id' : InputId) (hid' : (w.input? id').isSome = true) :
      (w'.input? id').isSome = true := by
    have hkind := congrArg Option.isSome (hchanges.kind_eq id')
    rw [Option.isSome_map, Option.isSome_map] at hkind
    exact hkind.trans hid'
  obtain ⟨-, hreceiver, -⟩ := applyArguments_eq_of_gives h
  intro id' i' hid' hi' hk ts hts
  by_cases hid : id' = id
  · subst hid
    obtain ⟨i, v, -, hkind, hdenotes, rfl, -, htokens, -⟩ :=
      applyArguments_receiver h hi' (InputKind.isReference_of_isSingle hk)
    rw [htokens] at hts
    split at hts
    · cases hts
    cases hts
    have hfinds := hdenotes.finds (hkind ▸ hk)
    exact ⟨a.balanced, hfinds.mono (fun name y _ hname => (hnamed name).trans hname) hinputs⟩
  · obtain ⟨i, hi, -, -, hsame⟩ := applyArguments_other h hid hi'
    obtain rfl := hsame (by rwa [← hdirect, ← hreceiver])
    have hold : id'.entity ∈ w.registered := by rwa [registered, hchanges.registry_eq] at hid'
    exact (hw id' i' hold hi hk ts hts).imp_right
      (Finds.mono (fun name y _ hname => (hnamed name).trans hname) hinputs)

/-- Keywords leave the tokens of what they set, unless synonyms of synonyms set it, and whether or
not one of them is refused. -/
theorem applyItems (hw : w.TokensCurrent) (log : List Warning) (done : List InputId)
    {items : List Arguments}
    (hdirect : ∀ a ∈ items, w.receiver ⟨e, a.keyword⟩ = w.target ⟨e, a.keyword⟩) :
    (w.applyItems e log done items).world.TokensCurrent := by
  have hkept : (w.applyItems e log done items).world.TokensCurrent ∧ ∀ a ∈ items,
      (w.applyItems e log done items).world.receiver ⟨e, a.keyword⟩ =
        (w.applyItems e log done items).world.target ⟨e, a.keyword⟩ := by
    refine applyItems_induction (P := fun w => w.TokensCurrent ∧
      ∀ a ∈ items, w.receiver ⟨e, a.keyword⟩ = w.target ⟨e, a.keyword⟩) ⟨hw, hdirect⟩ ?_
    rintro w a w' id ha ⟨hw, hdirect⟩ h
    have hchanges := (applyArguments_gives h).2.1
    refine ⟨hw.applyArguments (hdirect a ha) h, fun a' ha' => ?_⟩
    rw [hchanges.target_eq, receiver, hchanges.target?_eq]
    exact hdirect a' ha'
  exact hkept.1

end TokensCurrent

/-! ## Runs -/

/-- One thing that is done to a model without giving an entity another name. Keywords set what they
name, or what it is a synonym of, but no synonym of a synonym. -/
inductive SteadyStep : World → World → Prop where
  | create {w w' : World} {e : EntityId} {className name : String} {loose : Bool} :
    w.create? className name loose = .ok (w', e) → SteadyStep w w'
  | addInput {w w' : World} {e : EntityId} {i : Input} :
    i.IsNew → w.addInput? e i = .ok w' → SteadyStep w w'
  | apply {w : World} {e : EntityId} {items : List Arguments} :
    (∀ a ∈ items, w.receiver ⟨e, a.keyword⟩ = w.target ⟨e, a.keyword⟩) →
    SteadyStep w (w.applyItems e [] [] items).world
  | kill {w : World} {e : EntityId} : e ∈ w.registered → SteadyStep w (w.kill e).world

/-- The world is reached from an empty one of the classes without giving an entity another name. -/
def SteadyReached (p : Palette) (w : World) : Prop :=
  ∃ settings recordsEdits, Relation.ReflTransGen SteadyStep
    { palette := p, settings := settings, recordsEdits := recordsEdits } w

theorem SteadyStep.step (h : SteadyStep w w') : Step w w' := by
  cases h with
  | create h => exact .create h
  | addInput hi h => exact .addInput hi h
  | apply => exact .apply
  | kill he => exact .kill he

theorem SteadyReached.reached {p : Palette} (h : SteadyReached p w) : Reached p w := by
  obtain ⟨settings, recordsEdits, h⟩ := h
  exact ⟨settings, recordsEdits, Relation.ReflTransGen.mono (fun _ _ => SteadyStep.step) _ _ h⟩

/-- **Without new names the tokens of single entities stay current.** -/
theorem SteadyStep.tokensCurrent (h : SteadyStep w w') (hwell : w.WellFormed)
    (hw : w.TokensCurrent) : w'.TokensCurrent := by
  cases h with
  | create h => exact hw.create hwell h
  | addInput hi h => exact hw.addInput hi h
  | apply hdirect => exact hw.applyItems [] [] hdirect
  | kill he => exact hw.kill hwell he

theorem SteadyReached.tokensCurrent {p : Palette} (hp : p.IsPlain) (h : SteadyReached p w) :
    w.TokensCurrent := by
  obtain ⟨settings, recordsEdits, h⟩ := h
  induction h with
  | refl => exact fun _ _ hid => absurd hid List.not_mem_nil
  | tail hrun hstep ih =>
    have hreached : SteadyReached p _ := ⟨settings, recordsEdits, hrun⟩
    exact hstep.tokensCurrent (hreached.reached.wellFormed hp) ih

end World

end ModelInputs
