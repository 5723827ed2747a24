import ModelInputs.Proofs.Run.Declaring
import ModelInputs.Proofs.Transparency

/-!
# Lists of definitions

The user of an entity defines attributes and custom outputs by two lists. What a list defines is
kept twice: as the value of the input, and in a table of the entity. Keywords that are accepted set
both, and nothing else sets one of them; but when the input is reset, the table stays. So a list says
what the entity has as long as it is not reset while the entity has something, and again as soon as
it is set. Where a keyword of one entity stands for the list of another one, it sets the table of the
one and the list of the other; so keywords that define outputs must lead to the list of their own
entity.

* `DefinitionList`: the two lists, with their keywords and what an entity has by them;
* `Palette.HasList`, `World.DefinesAtHome`: what is asked of classes and keywords;
* `World.InStep`: the list says what the entity has; `World.SetWhereDefined`;
* `World.ListChange`: what a step does to a list and its table, **`World.FreeStep.listChange`**;
* **`World.valueOf_applyArguments`**: a keyword that leads to the list of another entity;
* **`World.FreelyReached.reflects`**: a list that is set says what the entity has;
* **`World.definitions_inStep`**: which runs keep lists in step;
* **`World.not_forall_inStep`**: a list that is reset is not.
-/

namespace ModelInputs

open Logged

/-! ## Lists and tables -/

/-- The lists by which the user of an entity defines outputs. -/
inductive DefinitionList where
  | attributes
  | customOutputs

namespace DefinitionList

/-- The keyword of the list. -/
def keyword : DefinitionList → String
  | attributes => "AttributeDefinitionList"
  | customOutputs => "CustomOutputList"

/-- The kind of the inputs that define such outputs. -/
def kind : DefinitionList → InputKind
  | attributes => .attributes
  | customOutputs => .customOutputs

/-- The outputs in the table of an entity, in the order of the table. -/
def handles (x : Entity) : DefinitionList → List Handle
  | attributes => x.attributes.map fun entry => .attribute entry.2
  | customOutputs => x.customOutputs.map fun entry => .custom entry.2

theorem target?_kind (l : DefinitionList) : l.kind.target? = none := by
  cases l with
  | _ => rfl

/-- Lists of definitions refer to no entity. -/
theorem removeReferences_eq_self {e : EntityId} {i i' : Input} {changed : Bool} (l : DefinitionList)
    (hk : i.kind = l.kind) (h : i.removeReferences e = .ok (i', changed)) : i' = i := by
  unfold Input.removeReferences at h
  rw [hk] at h
  cases l with
  | _ =>
    dsimp only [kind] at h
    split at h
    · cases h
      rfl
    · cases h
      rfl

theorem handles_eq_nil {x : Entity} (h : x.definedNames = []) (l : DefinitionList) :
    l.handles x = [] := by
  obtain ⟨hattributes, hcustom⟩ := List.append_eq_nil_iff.1 h
  cases l with
  | attributes => rw [handles, List.map_eq_nil_iff.1 hattributes, List.map_nil]
  | customOutputs => rw [handles, List.map_eq_nil_iff.1 hcustom, List.map_nil]

end DefinitionList

/-- A new entity of the class has the list, which is empty by default and not set. -/
def Palette.HasList (p : Palette) (className : String) (l : DefinitionList) : Prop :=
  ∃ i, (p.inputs className).find? (·.keyword == l.keyword) = some i ∧ i.kind = l.kind ∧
    i.default = .list [] ∧ i.isDefault = true

namespace World

variable {w w' w'' : World} {e : EntityId} {l : DefinitionList}

/-- The entity has the list, which is empty by default. -/
def HasList (w : World) (e : EntityId) (l : DefinitionList) : Prop :=
  ∃ i, w.input? ⟨e, l.keyword⟩ = some i ∧ i.kind = l.kind ∧ i.default = .list []

/-- Keywords that define such outputs are for the entity exactly if they lead to its own list. -/
def DefinesAtHome (w : World) (e : EntityId) (l : DefinitionList) : Prop :=
  ∀ id id' i, w.Receives id id' → w.input? id' = some i → i.kind = l.kind →
    (id.entity = e ↔ id' = ⟨e, l.keyword⟩)

/-- The outputs that the user of the entity has defined. -/
def defined (w : World) (e : EntityId) (l : DefinitionList) : List Handle :=
  ((w.entity? e).map l.handles).getD []

/-- What the list is set to, if it is set. -/
def setting? (w : World) (e : EntityId) (l : DefinitionList) : Option Value :=
  (w.input? ⟨e, l.keyword⟩).bind fun i => if i.isDefault then none else some i.value

/-- The value of the list are the outputs that the user has defined, in their order. -/
def InStep (w : World) (e : EntityId) (l : DefinitionList) : Prop :=
  w.valueOf ⟨e, l.keyword⟩ = .ok (.list ((w.defined e l).map .handle))

/-- The list is set if the user has defined something. -/
def SetWhereDefined (w : World) (e : EntityId) (l : DefinitionList) : Prop :=
  w.setting? e l = none → w.defined e l = []

/-! ## Reading lists -/

theorem HasList.valueOf_eq (h : w.HasList e l) :
    w.valueOf ⟨e, l.keyword⟩ = .ok ((w.setting? e l).getD (.list [])) := by
  obtain ⟨i, hi, hk, hdefault⟩ := h
  have hcurrent : i.current? = .ok (if i.isDefault then i.default else i.value) := by
    unfold Input.current? Input.stored
    rw [hk]
    cases l with
    | _ => rfl
  rw [valueOf, target_eq_self hi (hk ▸ l.target?_kind), setting?, hi, Option.bind_some]
  dsimp only
  rw [hcurrent, hdefault]
  cases i.isDefault with
  | true => rfl
  | false => rfl

theorem HasList.of_staysDeclared (h : w.HasList e l) (hstays : w.StaysDeclared w') :
    w'.HasList e l := by
  obtain ⟨i, hi, hk, hdefault⟩ := h
  obtain ⟨i', hi', hsame⟩ := hstays.input _ i hi
  exact ⟨i', hi', hsame.kind_eq.trans hk, hsame.default_eq.trans hdefault⟩

/-- What defines at home once all is declared has always done so. -/
theorem DefinesAtHome.of_staysDeclared (h : w'.DefinesAtHome e l) (hstays : w.StaysDeclared w') :
    w.DefinesAtHome e l := by
  intro id id' i hr hi hk
  obtain ⟨i', hi', hsame⟩ := hstays.input id' i hi
  exact h id id' i' (hstays.receives hr hi (hk ▸ l.target?_kind)) hi' (hsame.kind_eq.trans hk)

theorem DefinesAtHome.of_changesOnly {inputs : InputId → Prop}
    {attributesOf outputsOf : EntityId → Prop} (h : w.DefinesAtHome e l)
    (hchanges : w.ChangesOnly inputs attributesOf outputsOf w') : w'.DefinesAtHome e l := by
  intro id id' i' hr hi' hk
  have hkind := hchanges.kind_eq id'
  rw [hi', Option.map_some] at hkind
  obtain ⟨i, hi, hki⟩ := Option.map_eq_some_iff.1 hkind.symm
  exact h id id' i (hchanges.receives hr) hi (hki.trans hk)

theorem setting?_updateInput {f : Input → Input} (hf : ∀ i : Input, (f i).keyword = i.keyword)
    {id : InputId} (h : id ≠ ⟨e, l.keyword⟩) :
    (w.updateInput id f).setting? e l = w.setting? e l := by
  rw [setting?, input?_updateInput hf, if_neg h, setting?]

/-- What receives a keyword shows it, but keeps its value. -/
theorem setting?_markReceiver (w' : World) (y : EntityId) (a : Arguments) (id : InputId) :
    (w.updateInput id (w'.markReceiver y a)).setting? e l = w.setting? e l := by
  rw [setting?, input?_updateInput fun i => (w'.markReceiver_sameDeclaration y a i).keyword_eq,
    setting?]
  split
  · rw [Option.bind_map]
    refine congrArg (Option.bind (w.input? ⟨e, l.keyword⟩)) (funext fun i => ?_)
    rw [Function.comp_apply, w'.isDefault_markReceiver, w'.value_markReceiver]
  · rfl

/-- An entity changes, but not its table; the registry may change too. -/
theorem defined_updateEntity (w : World) (registry : List (String × EntityId)) (y : EntityId)
    {f : Entity → Entity} (hf : ∀ x, l.handles (f x) = l.handles x) :
    (({ w with registry := registry } : World).updateEntity y f).defined e l = w.defined e l := by
  rw [defined, entity?_updateEntity]
  split
  · rw [Option.map_map]
    exact congrArg (·.getD []) (congrArg (Option.map · (w.entity? e)) (funext hf))
  · rfl

theorem defined_updateInput (w : World) (id : InputId) (f : Input → Input) :
    (w.updateInput id f).defined e l = w.defined e l :=
  defined_updateEntity w w.registry id.entity fun x => by
    cases l with
    | _ => rfl

theorem ChangesOnly.defined_eq {inputs : InputId → Prop} {attributesOf outputsOf : EntityId → Prop}
    (h : w.ChangesOnly inputs attributesOf outputsOf w')
    (hattributes : l = .attributes → ¬ attributesOf e)
    (hcustom : l = .customOutputs → ¬ outputsOf e) : w'.defined e l = w.defined e l := by
  unfold defined
  cases hx : w.entity? e with
  | none => rw [h.entity?_eq_none hx]
  | some x =>
    obtain ⟨x', hx', hxx'⟩ := h.entity e x hx
    rw [hx', Option.map_some, Option.map_some, Option.getD_some, Option.getD_some]
    cases l with
    | attributes => rw [DefinitionList.handles, hxx'.attributes_eq (hattributes rfl)]; rfl
    | customOutputs => rw [DefinitionList.handles, hxx'.customOutputs_eq (hcustom rfl)]; rfl

/-! ## Definitions -/

/-- The attributes that are defined are those that the table has then. -/
theorem defined_store_attributes {x : Entity} (hx : w.entity? e = some x) {a : Arguments}
    {ds : List Attribute} (hds : (w.readAttributes e a).Gives ds) (id : InputId) :
    (w.store id (.attributes e ds)).defined e .attributes =
      (w.newAttributeIds ds.length).map .attribute := by
  have hids : (w.definitionTable ds).map (·.2) = w.newAttributeIds ds.length := by
    refine List.map_snd_zip ?_
    rw [newAttributeIds, List.length_map, List.length_map, List.length_range]
  refine (defined_updateInput _ _ _).trans ?_
  show ((w.addAttributes ds).setAttributes e (w.definitionTable ds)).defined e .attributes = _
  rw [defined, entity?_defineAttributes hx hds, ← hids, List.map_map]
  rfl

/-- The custom outputs that are defined are those that the table has then. -/
theorem defined_store_customOutputs {x : Entity} (hx : w.entity? e = some x) {a : Arguments}
    {os : List CustomOutput} (hos : (w.readCustomOutputs e a).Gives os) (id : InputId) :
    (w.store id (.customOutputs e os)).defined e .customOutputs = os.map .custom := by
  refine (defined_updateInput _ _ _).trans ?_
  rw [defined, entity?_defineCustomOutputs hx hos]
  exact List.map_map

/-- **Definitions that are read for an entity set the list to what that entity has by then.** -/
theorem setting?_define {y : EntityId} {x : Entity} (hx : w.entity? y = some x) {i : Input}
    (hi : w.input? ⟨e, l.keyword⟩ = some i) (hk : i.kind = l.kind) {a : Arguments}
    {assignment : Assignment} (hread : (w.readKind (some y) i a).Gives assignment) :
    (w.store ⟨e, l.keyword⟩ assignment).setting? e l =
      some (.list (((w.store ⟨e, l.keyword⟩ assignment).defined y l).map .handle)) := by
  rw [setting?, input?_store, if_pos rfl, hi, Option.map_some, Option.bind_some]
  cases l with
  | attributes =>
    obtain ⟨ds, hds, rfl⟩ := (gives_readKind_attributes hk).1 hread
    rw [defined_store_attributes hx hds, List.map_map]
    rfl
  | customOutputs =>
    obtain ⟨os, hos, rfl⟩ := (gives_readKind_customOutputs hk).1 hread
    rw [defined_store_customOutputs hx hos, List.map_map]
    rfl

/-- An assignment leaves what an entity has, unless it defines such outputs for it. -/
theorem defined_store {id : InputId} {y : EntityId} {i : Input} {a : Arguments}
    {assignment : Assignment} (hy : i.kind = l.kind → y ≠ e)
    (hread : (w.readKind (some y) i a).Gives assignment) :
    (w.store id assignment).defined e l = w.defined e l := by
  have hsuits := readKind_gives hread
  have hchanges : w.ChangesOnly (id = ·) (fun e' => e' = y ∧ i.kind = .attributes)
      (fun e' => e' = y ∧ i.kind = .customOutputs) (w.store id assignment) := by
    refine store_changesOnly rfl ?_ ?_
    · rintro e' ds rfl
      generalize i.kind = kind at hsuits
      cases hsuits
      exact ⟨rfl, rfl⟩
    · rintro e' os rfl
      generalize i.kind = kind at hsuits
      cases hsuits
      exact ⟨rfl, rfl⟩
  refine hchanges.defined_eq ?_ ?_
  · rintro rfl ⟨rfl, hk⟩
    exact hy hk rfl
  · rintro rfl ⟨rfl, hk⟩
    exact hy hk rfl

/-! ## What happens to a list and its table -/

/-- The list and the table of the entity are as they were, or the list is set to what the table has
by then. -/
inductive ListChange (w w' : World) (e : EntityId) (l : DefinitionList) : Prop where
  | kept : w'.setting? e l = w.setting? e l → w'.defined e l = w.defined e l → ListChange w w' e l
  | set : w'.setting? e l = some (.list ((w'.defined e l).map .handle)) → ListChange w w' e l

namespace ListChange

theorem refl (w : World) (e : EntityId) (l : DefinitionList) : ListChange w w e l :=
  .kept rfl rfl

theorem trans (h : ListChange w w' e l) (h' : ListChange w' w'' e l) : ListChange w w'' e l := by
  cases h' with
  | set hset => exact .set hset
  | kept hsetting hdefined =>
    cases h with
    | kept hsetting' hdefined' =>
      exact .kept (hsetting.trans hsetting') (hdefined.trans hdefined')
    | set hset => exact .set (by rw [hsetting, hdefined, hset])

/-- An entity changes, but neither its inputs nor its table; the registry may change too. -/
theorem updateEntity (w : World) (registry : List (String × EntityId)) (y : EntityId)
    {f : Entity → Entity} (hinputs : ∀ x, (f x).inputs = x.inputs)
    (hf : ∀ x, l.handles (f x) = l.handles x) :
    ListChange w (({ w with registry := registry } : World).updateEntity y f) e l := by
  refine .kept ?_ (defined_updateEntity w registry y hf)
  rw [setting?, input?_updateEntity w registry y hinputs, setting?]

theorem updateInput {f : Input → Input} (hf : ∀ i : Input, (f i).keyword = i.keyword)
    {id : InputId} (h : id ≠ ⟨e, l.keyword⟩) : ListChange w (w.updateInput id f) e l :=
  .kept (setting?_updateInput hf h) (defined_updateInput w id f)

/-! ### Keywords -/

theorem applyArguments (hlist : w.HasList e l) (hhome : w.DefinesAtHome e l) {y : EntityId}
    {a : Arguments} {id : InputId} (h : (w.applyArguments y a).Gives (w', id)) :
    ListChange w w' e l := by
  obtain ⟨-, -, changed, hparse, rfl⟩ := applyArguments_eq_of_gives h
  refine .trans ?_ (.kept (setting?_markReceiver w y a _) (defined_updateInput _ _ _))
  obtain ⟨-, rfl⟩ | ⟨i, assignment, hi, hread, rfl⟩ := parseInput_gives hparse
  · exact .refl changed e l
  have hlead (hk : i.kind = l.kind) := hhome _ _ i (receives_target ⟨y, a.keyword⟩) hi hk
  by_cases hown : w.target ⟨y, a.keyword⟩ = ⟨e, l.keyword⟩
  · rw [hown] at hi ⊢
    obtain ⟨j, hj, hk, -⟩ := hlist
    cases hi.symm.trans hj
    obtain rfl : y = e := (hlead hk).2 hown
    obtain ⟨x, hx, -⟩ := Option.bind_eq_some_iff.1 hi
    exact .set (setting?_define hx hi hk hread)
  · refine .kept ?_ (defined_store (fun hk hy => hown ((hlead hk).1 hy)) hread)
    rw [setting?, input?_store, if_neg hown, setting?]

/-- **Keywords keep the list and the table, or set both**, whether or not one of them is refused. -/
theorem applyItems (hlist : w.HasList e l) (hhome : w.DefinesAtHome e l) (y : EntityId)
    (log : List Warning) (done : List InputId) (items : List Arguments) :
    ListChange w (w.applyItems y log done items).world e l := by
  have hkept : ListChange w (w.applyItems y log done items).world e l ∧
      (w.applyItems y log done items).world.HasList e l ∧
      (w.applyItems y log done items).world.DefinesAtHome e l := by
    refine applyItems_induction (P := fun w' => ListChange w w' e l ∧ w'.HasList e l ∧
      w'.DefinesAtHome e l) ⟨.refl w e l, hlist, hhome⟩ ?_
    rintro w₁ a w' id - ⟨hchange, hlist, hhome⟩ h
    have hchanges := (applyArguments_gives h).2.1
    exact ⟨hchange.trans (.applyArguments hlist hhome h),
      hlist.of_staysDeclared (.of_changesOnly hchanges), hhome.of_changesOnly hchanges⟩
  exact hkept.1

/-! ### Other steps -/

/-- An entity that is killed is in no list of definitions. -/
theorem kill (hlist : w.HasList e l) (y : EntityId) : ListChange w (w.kill y).world e l := by
  have hregistry (registry : List (String × EntityId)) :
      ListChange w { w with registry := registry } e l := .kept rfl rfl
  have hkept : ListChange w (w.kill y).world e l ∧ (w.kill y).world.HasList e l := by
    refine kill_induction (P := fun w' => ListChange w w' e l ∧ w'.HasList e l)
      (fun registry => ⟨hregistry registry, hlist⟩) ?_
    rintro w' id i i' changed hi hremove ⟨hchange, hlist⟩
    have hdeclared := (Input.removeReferences_loosens hremove).declaration
    refine ⟨hchange.trans (.kept ?_ (defined_updateInput w' id _)),
      hlist.of_staysDeclared (.setInput hi hdeclared)⟩
    rw [setting?, input?_setInput w' (hdeclared.keyword_eq.trans (input?_keyword hi)), setting?]
    split
    · next hid =>
      subst hid
      obtain ⟨j, hj, hk, -⟩ := hlist
      cases hi.symm.trans hj
      rw [l.removeReferences_eq_self hk hremove, hi]
      rfl
    · rfl
  exact hkept.1

theorem perform (hlist : w.HasList e l) (op : RegistryOp) :
    ListChange w (w.perform op).world e l := by
  have htable {f : Entity → Entity} (hattributes : ∀ x, (f x).attributes = x.attributes)
      (hcustom : ∀ x, (f x).customOutputs = x.customOutputs) (x : Entity) :
      l.handles (f x) = l.handles x := by
    cases l with
    | attributes => rw [DefinitionList.handles, hattributes]; rfl
    | customOutputs => rw [DefinitionList.handles, hcustom]; rfl
  refine perform_induction (P := fun w' => ListChange w w' e l) (.refl w e l)
    (fun className name loose w' y h => ?_) (fun y w' h => ?_) (fun y => ?_) (.kill hlist)
    (fun y _ w' h => ?_) op
  · -- the entity exists, so it is another one that is created
    have hne : e ≠ y := by
      rintro rfl
      obtain ⟨i, hi, -⟩ := hlist
      rw [input?, entity?_eq_none_of_create h] at hi
      cases hi
    refine .kept ?_ ?_
    · rw [setting?, input?_create h, if_neg hne, setting?]
    · rw [defined, entity?_create h hne, defined]
  · obtain ⟨-, rfl⟩ := register?_eq_ok h
    exact .updateEntity w _ y (fun _ => rfl) (htable (fun _ => rfl) fun _ => rfl)
  · unfold unregister
    split
    · exact .kept rfl rfl
    · exact .refl w e l
  · obtain ⟨-, -, rfl⟩ := rename?_eq_ok h
    exact .updateEntity w _ y (fun _ => rfl) (htable (fun _ => rfl) fun _ => rfl)

theorem addInput (hlist : w.HasList e l) {y : EntityId} {i : Input}
    (h : w.addInput? y i = .ok w') : ListChange w w' e l := by
  obtain ⟨j, hj, -⟩ := hlist
  refine .kept ?_ ?_
  · rw [setting?, input?_of_addInput h hj, setting?, hj]
  · obtain ⟨-, rfl⟩ := addInput?_eq_ok h
    exact defined_updateEntity w w.registry y fun x => by
      cases l with
      | _ => rfl

end ListChange

/-- **A keyword that stands for the list of another entity** sets that list to what is defined for its
own entity, while the other entity keeps what it has. -/
theorem valueOf_applyArguments (hlist : w.HasList e l) {y : EntityId} (hy : y ≠ e) {a : Arguments}
    (hlead : w.target ⟨y, a.keyword⟩ = ⟨e, l.keyword⟩) {id : InputId}
    (h : (w.applyArguments y a).Gives (w', id)) :
    w'.valueOf ⟨e, l.keyword⟩ = .ok (.list ((w'.defined y l).map .handle)) ∧
      w'.defined e l = w.defined e l := by
  have hlist' := hlist.of_staysDeclared (.of_changesOnly (applyArguments_gives h).2.1)
  obtain ⟨hfound, -, changed, hparse, rfl⟩ := applyArguments_eq_of_gives h
  obtain ⟨j, hj, hk, -⟩ := hlist
  obtain ⟨hnone, -⟩ | ⟨i, assignment, hi, hread, rfl⟩ := parseInput_gives hparse
  · rw [hlead, hj] at hnone
    cases hnone
  · obtain ⟨k, hk'⟩ := Option.isSome_iff_exists.1 hfound
    obtain ⟨x, hx, -⟩ := Option.bind_eq_some_iff.1 hk'
    rw [hlead] at hi hlist' ⊢
    cases hi.symm.trans hj
    rw [hlist'.valueOf_eq, setting?_markReceiver, defined_updateInput, defined_updateInput,
      setting?_define hx hi hk hread]
    exact ⟨rfl, defined_store (fun _ => hy) hread⟩

/-- **Every step keeps the list and the table, or sets both, or resets the list.** -/
theorem FreeStep.listChange (h : FreeStep w w') (hlist : w.HasList e l)
    (hhome : w.DefinesAtHome e l) :
    ListChange w w' e l ∨ w' = w.updateInput ⟨e, l.keyword⟩ Input.reset := by
  cases h with
  | perform => exact .inl (.perform hlist _)
  | addInput h => exact .inl (.addInput hlist h)
  | apply => exact .inl (.applyItems hlist hhome _ _ _ _)
  | @reset id =>
    by_cases hid : id = ⟨e, l.keyword⟩
    · exact .inr (by rw [hid])
    · have hkeyword (i : Input) : i.reset.keyword = i.keyword := rfl
      exact .inl (.updateInput hkeyword hid)
  | setAttribute h =>
    unfold setAttribute? at h
    split at h
    · cases h
      exact .inl (.kept rfl rfl)
    · cases h
  | resetAttributes =>
    left
    exact resetAttributes_induction (P := fun w' => ListChange w w' e l) (.refl w e l)
      fun _ _ h => h.trans (.kept rfl rfl)

/-- A list that is reset is not set; the table stays. -/
theorem HasList.reset (h : w.HasList e l) :
    (w.updateInput ⟨e, l.keyword⟩ Input.reset).setting? e l = none ∧
      (w.updateInput ⟨e, l.keyword⟩ Input.reset).defined e l = w.defined e l := by
  obtain ⟨i, hi, -⟩ := h
  refine ⟨?_, defined_updateInput w _ _⟩
  rw [setting?, input?_updateInput (f := Input.reset) fun _ => rfl, if_pos rfl, hi]
  rfl

/-! ## Runs -/

/-- The entity has the list, which says what the user has defined if it is set. -/
structure Reflects (w : World) (e : EntityId) (l : DefinitionList) : Prop where
  hasList : w.HasList e l
  setting : ∀ v, w.setting? e l = some v → v = .list ((w.defined e l).map .handle)

/-- **A list that reflects what is defined is in step exactly if it is set where it has to be.** -/
theorem Reflects.inStep_iff (h : w.Reflects e l) : w.InStep e l ↔ w.SetWhereDefined e l := by
  rw [InStep, h.hasList.valueOf_eq, SetWhereDefined]
  cases hv : w.setting? e l with
  | none =>
    rw [Option.getD_none, Except.ok.injEq, Value.list.injEq, eq_comm, List.map_eq_nil_iff]
    exact ⟨fun hnil _ => hnil, fun hnil => hnil rfl⟩
  | some v =>
    rw [Option.getD_some, h.setting v hv]
    exact ⟨fun _ => nofun, fun _ => rfl⟩

/-- A new entity has an empty list that is not set, and has defined nothing. -/
theorem reflects_create {className name : String} {loose : Bool}
    (h : w.create? className name loose = .ok (w', e)) (hclass : w.palette.HasList className l) :
    w'.Reflects e l ∧ w'.SetWhereDefined e l := by
  obtain ⟨i, hfound, hk, hdefault, hd⟩ := hclass
  have hi : w'.input? ⟨e, l.keyword⟩ = some i := by
    rw [input?_create h, if_pos rfl]
    exact hfound
  have hsetting : w'.setting? e l = none := by
    rw [setting?, hi, Option.bind_some, if_pos hd]
  refine ⟨⟨⟨i, hi, hk, hdefault⟩, fun v hv => ?_⟩, fun _ => ?_⟩
  · rw [hsetting] at hv
    cases hv
  · unfold defined
    cases hx' : w'.entity? e with
    | none => rfl
    | some x' =>
      obtain hnil | ⟨x, hx, -⟩ := (KeepsTables.create h).tables e x' hx'
      · exact l.handles_eq_nil hnil
      · rw [entity?_eq_none_of_create h] at hx
        cases hx

/-- **Every step keeps what lists reflect.** -/
theorem Reflects.step (hw : w.Reflects e l) (hhome : w.DefinesAtHome e l) (h : FreeStep w w') :
    w'.Reflects e l := by
  refine ⟨hw.hasList.of_staysDeclared h.staysDeclared, fun v hv => ?_⟩
  obtain (⟨hsetting, hdefined⟩ | hset) | rfl := h.listChange hw.hasList hhome
  · rw [hdefined]
    exact hw.setting v (hsetting.symm.trans hv)
  · exact Option.some.inj (hv.symm.trans hset)
  · rw [hw.hasList.reset.1] at hv
    cases hv

theorem FreelyReached.palette_eq {p : Palette} (h : FreelyReached p w) : w.palette = p := by
  obtain ⟨settings, recordsEdits, h⟩ := h
  induction h with
  | refl => rfl
  | tail _ hstep ih => exact hstep.staysDeclared.palette_eq.trans ih

/-- A step either finds the entity or creates it. -/
theorem FreeStep.entity?_cases (h : FreeStep w w') {x' : Entity} (hx' : w'.entity? e = some x') :
    (∃ x, w.entity? e = some x ∧ x.className = x'.className) ∨
      ∃ name loose, w.create? x'.className name loose = .ok (w', e) := by
  cases hx : w.entity? e with
  | some x =>
    obtain ⟨y, hy, hclass⟩ := h.staysDeclared.className_eq e x hx
    cases hx'.symm.trans hy
    exact .inl ⟨x, rfl, hclass.symm⟩
  | none =>
    obtain ⟨className, name, loose, hcreate⟩ := h.exists_create hx (by rw [hx']; rfl)
    have hclass := classOf_create hcreate
    rw [classOf, hx', Option.map_some, Option.getD_some] at hclass
    exact .inr ⟨name, loose, hclass ▸ hcreate⟩

/-- **In every world that is reached a list that is set says what the user has defined.** -/
theorem FreelyReached.reflects {p : Palette} (hw : FreelyReached p w) {x : Entity}
    (hx : w.entity? e = some x) (hclass : p.HasList x.className l) (hhome : w.DefinesAtHome e l) :
    w.Reflects e l := by
  obtain ⟨settings, recordsEdits, hrun⟩ := hw
  induction hrun generalizing x with
  | refl => cases hx
  | tail hrun hstep ih =>
    obtain ⟨y, hy, hsame⟩ | ⟨name, loose, hcreate⟩ := hstep.entity?_cases hx
    · have hhome := hhome.of_staysDeclared hstep.staysDeclared
      exact (ih hy (hsame ▸ hclass) hhome).step hhome hstep
    · have hpalette := FreelyReached.palette_eq ⟨settings, recordsEdits, hrun⟩
      exact (reflects_create hcreate (hpalette ▸ hclass)).1

/-- One thing that is done to a model, without resetting the list of the entity while its user has
something defined by it. -/
structure SparingStep (e : EntityId) (l : DefinitionList) (w w' : World) : Prop where
  step : FreeStep w w'
  spares : w.defined e l ≠ [] → w' ≠ w.updateInput ⟨e, l.keyword⟩ Input.reset

/-- A list that is set where it has to be stays so as long as it is spared. -/
theorem SparingStep.setWhereDefined (h : SparingStep e l w w') (hlist : w.HasList e l)
    (hhome : w.DefinesAtHome e l) (hw : w.SetWhereDefined e l) : w'.SetWhereDefined e l := by
  intro hnone
  obtain (⟨hsetting, hdefined⟩ | hset) | hreset := h.step.listChange hlist hhome
  · exact hdefined.trans (hw (hsetting.symm.trans hnone))
  · rw [hnone] at hset
    cases hset
  · rw [hreset, hlist.reset.2]
    by_contra hne
    exact h.spares hne hreset

/-- **Where the lists of an entity are in step with what its user has defined.** After any run, a
list is in step exactly if it is set or nothing is defined by it; and a run that starts there ends
there, unless it resets the list while something is defined by it. -/
theorem definitions_inStep {p : Palette} (hw : FreelyReached p w)
    (hrun : Relation.ReflTransGen (SparingStep e l) w w') {x : Entity}
    (hx : w'.entity? e = some x) (hclass : p.HasList x.className l)
    (hhome : w'.DefinesAtHome e l) :
    (w'.InStep e l ↔ w'.SetWhereDefined e l) ∧ (w.SetWhereDefined e l → w'.InStep e l) := by
  have hreach {w'' : World} (hrun : Relation.ReflTransGen (SparingStep e l) w w'') :
      FreelyReached p w'' := by
    obtain ⟨settings, recordsEdits, h⟩ := hw
    exact ⟨settings, recordsEdits, h.trans (.mono (fun _ _ hstep => hstep.step) _ _ hrun)⟩
  have hset (hw : w.SetWhereDefined e l) : w'.SetWhereDefined e l := by
    induction hrun generalizing x with
    | refl => exact hw
    | tail hrun hstep ih =>
      obtain ⟨y, hy, hsame⟩ | ⟨name, loose, hcreate⟩ := hstep.step.entity?_cases hx
      · have hclass := hsame ▸ hclass
        have hhome := hhome.of_staysDeclared hstep.step.staysDeclared
        have hlist := ((hreach hrun).reflects hy hclass hhome).hasList
        exact hstep.setWhereDefined hlist hhome (ih hy hclass hhome)
      · have hpalette := (hreach hrun).palette_eq
        exact (reflects_create hcreate (hpalette ▸ hclass)).2
  have hiff := ((hreach hrun).reflects hx hclass hhome).inStep_iff
  exact ⟨hiff, fun hw => hiff.2 (hset hw)⟩

/-! ## A server with a custom output -/

/-- Without synonyms, inputs define at home if they do so by the keywords of the lists. -/
theorem definesAtHome_of_direct (hdirect : w.InputsAll fun i => i.kind.target? = none)
    (hown : w.InputsAll fun i => i.kind = l.kind → i.keyword = l.keyword) (e : EntityId) :
    w.DefinesAtHome e l := by
  intro id id' i hr hi hk
  have hnone {id target : InputId} (ht : (w.input? id).bind (·.kind.target?) = some target) :
      False := by
    obtain ⟨j, hj, hkind⟩ := Option.bind_eq_some_iff.1 ht
    rw [hdirect id j hj] at hkind
    cases hkind
  cases hr with
  | self =>
    have hkeyword : id.keyword = l.keyword := (input?_keyword hi).symm.trans (hown id i hi hk)
    rw [← hkeyword]
    exact ⟨fun he => he ▸ rfl, congrArg InputId.entity⟩
  | target ht => exact (hnone ht).elim
  | further ht => exact (hnone ht).elim

theorem standard_hasList : Palette.standard.HasList "Server" l := by
  cases l with
  | attributes => exact ⟨_, rfl, rfl, rfl, rfl⟩
  | customOutputs => exact ⟨_, rfl, rfl, rfl, rfl⟩

theorem speedServer_definesAtHome : speedServer.DefinesAtHome ⟨0⟩ .customOutputs := by
  have hone : oneServer.DefinesAtHome ⟨0⟩ .customOutputs := by
    have hkinds : (oneServer.entities.flatMap (·.inputs)).map (fun i => (i.keyword, i.kind)) =
        [("Description", .text), ("AttributeDefinitionList", .attributes),
          ("CustomOutputList", .customOutputs), ("ServiceTime", .number .time { least := 0.0 }),
          ("TravelDistance", .number .distance {}), ("NextComponent", .entity (.named "Entity")),
          ("RelativeEntity", .relativeEntity (.named "Entity"))] := rfl
    refine definesAtHome_of_direct ?_ ?_ _
    · exact inputsAll_of_map (P := fun a => a.2.target? = none) hkinds (by simp [InputKind.target?])
    · exact inputsAll_of_map (P := fun a => a.2 = .customOutputs → a.1 = "CustomOutputList") hkinds
        (by simp)
  rw [← applyItems_speedServer]
  exact (hone.of_changesOnly (applyItems_keywordsChange ..)).of_changesOnly
    (applyItems_keywordsChange ..)

theorem defined_speedServer :
    speedServer.defined ⟨0⟩ .customOutputs = [.custom speedOutput] := rfl

/-- The server gets an output, and its list says so. -/
theorem definitions_inStep_speedServer :
    FreelyReached .standard { palette := .standard } ∧
      Relation.ReflTransGen (SparingStep ⟨0⟩ .customOutputs) { palette := .standard } speedServer ∧
      Palette.standard.HasList "Server" .customOutputs ∧
      speedServer.DefinesAtHome ⟨0⟩ .customOutputs ∧
      speedServer.defined ⟨0⟩ .customOutputs = [.custom speedOutput] ∧
      speedServer.InStep ⟨0⟩ .customOutputs := by
  have hempty : FreelyReached .standard { palette := .standard } := ⟨{}, false, .refl⟩
  have hcreate : FreeStep { palette := .standard } oneServer :=
    @FreeStep.perform _ (.create "Server" "S" false)
  have hdefine : FreeStep serving speedServer := applyItems_speedServer ▸ .apply
  have hrun : Relation.ReflTransGen (SparingStep ⟨0⟩ .customOutputs) { palette := .standard }
      speedServer :=
    .tail (.tail (.tail .refl ⟨hcreate, fun h => (h rfl).elim⟩) ⟨.apply, fun h => (h rfl).elim⟩)
      ⟨hdefine, fun h => (h rfl).elim⟩
  obtain ⟨x, hx, hclass⟩ : ∃ x, speedServer.entity? ⟨0⟩ = some x ∧ x.className = "Server" :=
    ⟨_, rfl, rfl⟩
  exact ⟨hempty, hrun, standard_hasList, speedServer_definesAtHome, defined_speedServer,
    (definitions_inStep hempty hrun hx (hclass ▸ standard_hasList) speedServer_definesAtHome).2
      fun _ => rfl⟩

/-- The server, once the list is reset. -/
def resetServer : World :=
  speedServer.updateInput ⟨⟨0⟩, DefinitionList.customOutputs.keyword⟩ Input.reset

/-- **A list that is reset no longer says what the server has.** -/
theorem not_forall_inStep :
    ¬ ∀ (p : Palette) (w : World) (e : EntityId) (l : DefinitionList) (x : Entity),
      FreelyReached p w → w.entity? e = some x → p.HasList x.className l →
        w.DefinesAtHome e l → w.InStep e l := by
  intro h
  have hreset : FreeStep speedServer resetServer := .reset
  have hreached : FreelyReached .standard resetServer := by
    obtain ⟨settings, recordsEdits, hrun⟩ := speedServer_reached
    exact ⟨settings, recordsEdits, .tail hrun hreset⟩
  have hchanges : speedServer.ChangesOnly (fun _ => True) (fun _ => False) (fun _ => False)
      resetServer := updateInput_changesOnly trivial fun _ => rfl
  have hlist : speedServer.HasList ⟨0⟩ .customOutputs := ⟨_, rfl, rfl, rfl⟩
  obtain ⟨x, hx, hclass⟩ : ∃ x, resetServer.entity? ⟨0⟩ = some x ∧ x.className = "Server" :=
    ⟨_, rfl, rfl⟩
  have hstep := h .standard resetServer ⟨0⟩ .customOutputs x hreached hx
    (hclass ▸ standard_hasList) (speedServer_definesAtHome.of_changesOnly hchanges)
  -- the list is empty, but the output is still there
  obtain ⟨hsetting, hdefined⟩ := hlist.reset
  rw [InStep, (hlist.of_staysDeclared hreset.staysDeclared).valueOf_eq, resetServer, hsetting,
    hdefined, defined_speedServer] at hstep
  cases hstep

end World

end ModelInputs
