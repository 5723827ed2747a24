import ModelInputs.Proofs.Chains
import ModelInputs.Proofs.Units
import ModelInputs.Proofs.Reference.Providing
import ModelInputs.Proofs.Repeat.Definitions
import ModelInputs.Proofs.Repeat.Settled

/-!
# Keywords that are repeated

A keyword that has been accepted is accepted again, and then leaves the world as it is, if what it
has set still has the unit types that are asked for. Arguments are read again in the world that they
have changed, but names, choices and numbers mean what they meant. Only unit types may have changed:
those of expressions of an entity whose own attributes or custom outputs have been defined anew, and
those of outputs that are inputs themselves.

* `World.Repeats`: a keyword is accepted again, and leaves the same world;
* `World.applyArguments_gives_iff`: what it takes to accept a keyword;
* **`World.repeats_iff`**: a keyword repeats exactly if what it has set passes the checks of unit
  types;
* `World.not_forall_repeats`: definitions that are accepted only once.
-/

namespace ModelInputs

open Logged

namespace World

/-- A keyword is accepted, whatever was reported before, and leaves the same world. -/
def Repeats (w : World) (e : EntityId) (a : Arguments) (id : InputId) : Prop :=
  ∀ log, ∃ w' log', (w.applyArguments e a).run log = (.ok (w', id), log') ∧ w.Same w'

variable {w w' w'' : World} {e : EntityId} {a : Arguments} {id : InputId} {i i' : Input}

theorem repeats_iff_gives :
    w.Repeats e a id ↔ ∃ w', (w.applyArguments e a).Gives (w', id) ∧ w.Same w' := by
  constructor
  · intro h
    obtain ⟨w', log', hrun, hsame⟩ := h []
    exact ⟨w', ⟨[], log', hrun⟩, hsame⟩
  · rintro ⟨w', hgives, hsame⟩ log
    obtain ⟨log', hrun⟩ := (w.applyArguments_steady a e).run_of_gives hgives log
    exact ⟨w', log', hrun, hsame⟩

/-! ## Accepting a keyword -/

/-- The world once a keyword of an entity has made an assignment. -/
def applied (w : World) (e : EntityId) (a : Arguments) (assignment : Assignment) : World :=
  (w.store (w.target ⟨e, a.keyword⟩) assignment).updateInput (w.receiver ⟨e, a.keyword⟩)
    (w.markReceiver e a)

theorem applyArguments_gives_of_readAssignment {assignment : Assignment}
    (hfound : (w.input? ⟨e, a.keyword⟩).isSome = true)
    (h : (w.readAssignment (some e) ⟨e, a.keyword⟩ a).Gives (w.target ⟨e, a.keyword⟩, assignment)) :
    (w.applyArguments e a).Gives (w.applied e a assignment, w.receiver ⟨e, a.keyword⟩) := by
  have hparse : (w.parseInput (some e) ⟨e, a.keyword⟩ a).Gives
      (w.store (w.target ⟨e, a.keyword⟩) assignment) :=
    (Steady.gives_bind fun _ => steady_pure _).2 ⟨_, h, gives_pure.2 rfl⟩
  have hsome : ¬ (w.input? ⟨e, a.keyword⟩).isNone = true := by
    rw [Option.isNone_iff_eq_none]
    exact Option.isSome_iff_ne_none.1 hfound
  unfold applyArguments
  dsimp only
  rw [if_neg hsome]
  exact (Steady.gives_bind fun _ => steady_pure _).2
    ⟨_, Steady.gives_adapt.2 hparse, gives_pure.2 rfl⟩

/-- **A keyword is accepted exactly if the arguments of its target are.** -/
theorem applyArguments_gives_iff (hfound : (w.input? ⟨e, a.keyword⟩).isSome = true)
    (hi : w.input? (w.target ⟨e, a.keyword⟩) = some i) :
    (w.applyArguments e a).Gives (w', id) ↔
      id = w.receiver ⟨e, a.keyword⟩ ∧ ∃ assignment,
        (w.readKind (some e) i a).Gives assignment ∧ w' = w.applied e a assignment := by
  constructor
  · intro h
    obtain ⟨-, rfl, changed, hparse, rfl⟩ := applyArguments_eq_of_gives h
    obtain ⟨hnone, -⟩ | ⟨j, assignment, hj, hread, rfl⟩ := parseInput_gives hparse
    · rw [hi] at hnone
      cases hnone
    · cases hi.symm.trans hj
      exact ⟨rfl, assignment, hread, rfl⟩
  · rintro ⟨rfl, assignment, hread, rfl⟩
    refine applyArguments_gives_of_readAssignment hfound ?_
    unfold readAssignment
    dsimp only
    rw [hi]
    exact (Steady.gives_bind fun _ => steady_pure _).2 ⟨assignment, hread, gives_pure.2 rfl⟩

/-! ## Accepting it again -/

section

variable {assignment : Assignment}

/-- What applying a keyword changes does not show in what receives it. -/
theorem ChangesOnly.receiver_eq {inputs : InputId → Prop} {attributesOf outputsOf : EntityId → Prop}
    (h : w.ChangesOnly inputs attributesOf outputsOf w') (id : InputId) :
    w'.receiver id = w.receiver id := by
  rw [receiver, receiver, h.target?_eq]

theorem ChangesOnly.markReceiver_eq {inputs : InputId → Prop}
    {attributesOf outputsOf : EntityId → Prop} (h : w.ChangesOnly inputs attributesOf outputsOf w')
    (e : EntityId) (a : Arguments) : w'.markReceiver e a = w.markReceiver e a := by
  funext i
  unfold World.markReceiver
  rw [h.settings_eq, h.recordsEdits_eq, h.hasNamespace_eq]

/-- A keyword that is applied again sets and marks the same inputs. -/
theorem ChangesOnly.applied_eq {inputs : InputId → Prop} {attributesOf outputsOf : EntityId → Prop}
    (h : w.ChangesOnly inputs attributesOf outputsOf w') (e : EntityId) (a : Arguments)
    (assignment : Assignment) :
    w'.applied e a assignment = (w'.store (w.target ⟨e, a.keyword⟩) assignment).updateInput
      (w.receiver ⟨e, a.keyword⟩) (w.markReceiver e a) := by
  rw [applied, h.target_eq, h.receiver_eq, h.markReceiver_eq]

/-- **A keyword repeats exactly if its arguments are read again into an assignment that leaves the
same world.** -/
theorem repeats_applied_iff (hfound : (w.input? ⟨e, a.keyword⟩).isSome = true)
    (hchanges : w.KeywordChanges e a.keyword w')
    (hi' : w'.input? (w.target ⟨e, a.keyword⟩) = some i') :
    w'.Repeats e a (w.receiver ⟨e, a.keyword⟩) ↔
      ∃ again, (w'.readKind (some e) i' a).Gives again ∧ w'.Same (w'.applied e a again) := by
  have hfound' := (hchanges.isSome_input?_eq ⟨e, a.keyword⟩).trans hfound
  rw [← hchanges.target_eq] at hi'
  rw [repeats_iff_gives]
  constructor
  · rintro ⟨w'', hgives, hsame⟩
    obtain ⟨-, again, hread, rfl⟩ := (applyArguments_gives_iff hfound' hi').1 hgives
    exact ⟨again, hread, hsame⟩
  · rintro ⟨again, hread, hsame⟩
    refine ⟨_, (applyArguments_gives_iff hfound' hi').2 ⟨?_, again, hread, rfl⟩, hsame⟩
    exact (hchanges.receiver_eq _).symm

/-- The target of a keyword is set as it was assigned. -/
theorem input?_applied (hi : w.input? (w.target ⟨e, a.keyword⟩) = some i)
    (assignment : Assignment) :
    ∃ i', (w.applied e a assignment).input? (w.target ⟨e, a.keyword⟩) = some i' ∧
      i'.kind = i.kind ∧ i'.value = (w.assigned assignment i).value ∧
      i'.stored = (w.assigned assignment i).stored :=
  w.input?_marked w _ _ assignment e a hi

/-- An assignment that is made again changes nothing, unless it makes new attributes. -/
theorem applied_again (hchanges : w.KeywordChanges e a.keyword (w.applied e a assignment))
    (hno : ∀ owner definitions, assignment ≠ .attributes owner definitions) :
    (w.applied e a assignment).applied e a assignment = w.applied e a assignment := by
  rw [hchanges.applied_eq]
  exact w.store_again w _ _ assignment hno e a

/-! ## By kind -/

theorem not_endsAt {kind : InputKind} (hi : w.input? (w.target id) = some i) (hk : i.kind ≠ kind) :
    ¬ w.EndsAt id kind := by
  rintro ⟨j, hj, rfl⟩
  cases hi.symm.trans hj
  exact hk rfl

section Values

variable {v : Value}

/-- Only inputs with values of their own are set to a value. -/
theorem kind_ne_of_readArguments (hv : (w.readArguments (some e) i a).Gives v) :
    i.kind ≠ .attributes ∧ i.kind ≠ .customOutputs := by
  unfold readArguments at hv
  constructor
  · intro hk
    rw [hk] at hv
    exact absurd hv not_gives_throw
  · intro hk
    rw [hk] at hv
    exact absurd hv not_gives_throw

theorem readKind_eq_of_readArguments (hv : (w.readArguments (some e) i a).Gives v)
    (hk : i'.kind = i.kind) :
    w'.readKind (some e) i' a = do return .value (← w'.readArguments (some e) i' a) := by
  refine readKind_value ?_
  unfold readArguments at hv
  rw [hk]
  generalize i.kind = kind at hv
  cases kind with
  | keyLists | attributes | customOutputs | deprecated => exact absurd hv not_gives_throw
  | _ => rfl

/-- A value is given again exactly if it has the unit types that are asked for. -/
theorem repeats_value_iff (hg : w.GroupsListGroups)
    (hfound : (w.input? ⟨e, a.keyword⟩).isSome = true)
    (hi : w.input? (w.target ⟨e, a.keyword⟩) = some i)
    (hchanges : w.KeywordChanges e a.keyword (w.applied e a (.value v)))
    (hv : (w.readArguments (some e) i a).Gives v) :
    (w.applied e a (.value v)).Repeats e a (w.receiver ⟨e, a.keyword⟩) ↔
      (w.applied e a (.value v)).PassesUnits i.kind v := by
  obtain ⟨hattributes, hcustom⟩ := kind_ne_of_readArguments hv
  have ha (e' : EntityId) : ¬ (e' = e ∧ w.EndsAt ⟨e, a.keyword⟩ .attributes) :=
    fun h => not_endsAt hi hattributes h.2
  have ho (e' : EntityId) : ¬ (e' = e ∧ w.EndsAt ⟨e, a.keyword⟩ .customOutputs) :=
    fun h => not_endsAt hi hcustom h.2
  obtain ⟨i', hi', hkind, -, hstored⟩ := input?_applied hi (.value v)
  have hagain (v' : Value) :
      ((w.applied e a (.value v)).readArguments (some e) i' a).Gives v' ↔
        v' = v ∧ (w.applied e a (.value v)).PassesUnits i.kind v :=
    readArguments_again_iff hg hchanges ha ho hi hi' (hstored.trans (i.stored_assign v))
      (fun id hne => w.stored_marked w (w.receiver ⟨e, a.keyword⟩) (.value v) e a hne) hv
  rw [repeats_applied_iff hfound hchanges hi', readKind_eq_of_readArguments hv hkind]
  constructor
  · rintro ⟨again, hread, -⟩
    obtain ⟨v', hv', -⟩ := hread.of_bind
    exact ((hagain v').1 hv').2
  · intro hpasses
    refine ⟨.value v, (Steady.gives_bind fun _ => steady_pure _).2
      ⟨v, (hagain v).2 ⟨rfl, hpasses⟩, gives_pure.2 rfl⟩, ?_⟩
    exact (applied_again hchanges nofun).symm ▸ .refl _

end Values

section Definitions

variable {ds : List Attribute} {os : List CustomOutput}

/-- The entity has the attributes that are defined. -/
theorem hasAttribute_applied (hfound : (w.input? ⟨e, a.keyword⟩).isSome = true)
    (hchanges : w.KeywordChanges e a.keyword (w.applied e a (.attributes e ds)))
    (hnodup : (ds.map (·.name)).Nodup) {d : Attribute} (hd : d ∈ ds) :
    (w.applied e a (.attributes e ds)).hasAttribute e d.name = true := by
  obtain ⟨i, hi⟩ := Option.isSome_iff_exists.1 ((hchanges.isSome_input?_eq _).trans hfound)
  obtain ⟨x, hx, -⟩ := Option.bind_eq_some_iff.1 hi
  have hx : (w.applied e a (.attributes e ds)).entity? e = some x := hx
  have hkeys := w.keys_definitionTable ds
  have htable := w.attributes_marked w (w.target ⟨e, a.keyword⟩) (w.receiver ⟨e, a.keyword⟩) e ds e a hx
  rw [distinctKeys_eq_self (hkeys.symm ▸ hnodup)] at htable
  have hname : d.name ∈ x.attributes.map (·.1) := by
    rw [htable, hkeys]
    exact List.mem_map_of_mem hd
  obtain ⟨entry, hentry, hname⟩ := List.mem_map.1 hname
  rw [hasAttribute, hx, Option.bind_some, List.lookup_isSome_iff]
  exact ⟨entry, hentry, beq_iff_eq.2 hname.symm⟩

/-- Definitions of attributes repeat exactly if their expressions have the same unit types. -/
theorem repeats_attributes_iff (hfound : (w.input? ⟨e, a.keyword⟩).isSome = true)
    (hi : w.input? (w.target ⟨e, a.keyword⟩) = some i) (hk : i.kind = .attributes)
    (hchanges : w.KeywordChanges e a.keyword (w.applied e a (.attributes e ds)))
    (hread : (w.readAttributes e a).Gives ds) :
    (w.applied e a (.attributes e ds)).Repeats e a (w.receiver ⟨e, a.keyword⟩) ↔
      ∀ d ∈ ds, (w.applied e a (.attributes e ds)).KeepsUnit d := by
  have hnodup := nodup_of_readAttributes hread
  have hagain (ds' : List Attribute) :
      ((w.applied e a (.attributes e ds)).readAttributes e a).Gives ds' ↔
        List.Forall₂ (w.applied e a (.attributes e ds)).Redefines ds ds' :=
    hchanges.readAttributes_again_iff (fun _ => hasAttribute_applied hfound hchanges hnodup) hread
  obtain ⟨i', hi', hkind, -⟩ := input?_applied hi (.attributes e ds)
  simp only [repeats_applied_iff hfound hchanges hi', gives_readKind_attributes (hkind.trans hk),
    hagain, hchanges.applied_eq, ← redefines_self_iff]
  constructor
  · rintro ⟨_, ⟨ds', hredefines, rfl⟩, hsame⟩
    obtain rfl := w.eq_of_same_store_again w _ _ e ds e a hi hsame
    exact List.forall₂_same.1 hredefines
  · intro hkeeps
    refine ⟨_, ⟨ds, List.forall₂_same.2 hkeeps, rfl⟩, ?_⟩
    exact w.same_store_again w _ _ e ds e a hnodup

/-- Definitions of custom outputs repeat exactly if they pass the checks of their unit types. -/
theorem repeats_customOutputs_iff (hfound : (w.input? ⟨e, a.keyword⟩).isSome = true)
    (hi : w.input? (w.target ⟨e, a.keyword⟩) = some i) (hk : i.kind = .customOutputs)
    (hchanges : w.KeywordChanges e a.keyword (w.applied e a (.customOutputs e os)))
    (hread : (w.readCustomOutputs e a).Gives os) :
    (w.applied e a (.customOutputs e os)).Repeats e a (w.receiver ⟨e, a.keyword⟩) ↔
      ∀ o ∈ os, (w.applied e a (.customOutputs e os)).PassesCheck o := by
  have ha (e' : EntityId) : ¬ (e' = e ∧ w.EndsAt ⟨e, a.keyword⟩ .attributes) :=
    fun h => not_endsAt hi (by rw [hk]; nofun) h.2
  have hagain (os' : List CustomOutput) :
      ((w.applied e a (.customOutputs e os)).readCustomOutputs e a).Gives os' ↔
        os' = os ∧ ∀ o ∈ os, (w.applied e a (.customOutputs e os)).PassesCheck o :=
    hchanges.readCustomOutputs_again_iff ha hread
  obtain ⟨i', hi', hkind, -⟩ := input?_applied hi (.customOutputs e os)
  simp only [repeats_applied_iff hfound hchanges hi', gives_readKind_customOutputs (hkind.trans hk),
    hagain]
  constructor
  · rintro ⟨_, ⟨os', ⟨-, hpasses⟩, rfl⟩, -⟩
    exact hpasses
  · intro hpasses
    refine ⟨_, ⟨os, ⟨rfl, hpasses⟩, rfl⟩, ?_⟩
    exact (applied_again hchanges nofun).symm ▸ .refl _

end Definitions

/-- Arguments that are ignored are ignored again. -/
theorem repeats_nothing (hfound : (w.input? ⟨e, a.keyword⟩).isSome = true)
    (hi : w.input? (w.target ⟨e, a.keyword⟩) = some i) {advice : String}
    (hk : i.kind = .deprecated advice false)
    (hchanges : w.KeywordChanges e a.keyword (w.applied e a .nothing)) :
    (w.applied e a .nothing).Repeats e a (w.receiver ⟨e, a.keyword⟩) := by
  obtain ⟨i', hi', hkind, -⟩ := input?_applied hi .nothing
  refine (repeats_applied_iff hfound hchanges hi').2 ⟨.nothing, ?_, ?_⟩
  · unfold readKind
    rw [hkind, hk]
    exact (Steady.gives_bind fun _ => steady_pure _).2 ⟨(), ⟨[], _, rfl⟩, gives_pure.2 rfl⟩
  · exact (applied_again hchanges nofun).symm ▸ .refl _

/-- A synonym of an input that does not exist is accepted again. -/
theorem repeats_of_target_eq_none (hfound : (w.input? ⟨e, a.keyword⟩).isSome = true)
    (hnone : w.input? (w.target ⟨e, a.keyword⟩) = none)
    (hchanges : w.KeywordChanges e a.keyword (w.applied e a .nothing)) :
    (w.applied e a .nothing).Repeats e a (w.receiver ⟨e, a.keyword⟩) := by
  have hnone' : (w.applied e a .nothing).input? (w.target ⟨e, a.keyword⟩) = none := by
    rw [← Option.not_isSome_iff_eq_none, hchanges.isSome_input?_eq, hnone]
    exact Bool.false_ne_true
  have hread : ((w.applied e a .nothing).readAssignment (some e) ⟨e, a.keyword⟩ a).Gives
      ((w.applied e a .nothing).target ⟨e, a.keyword⟩, .nothing) := by
    unfold readAssignment
    dsimp only
    rw [hchanges.target_eq, hnone']
    exact gives_pure.2 rfl
  have hgives := applyArguments_gives_of_readAssignment
    ((hchanges.isSome_input?_eq ⟨e, a.keyword⟩).trans hfound) hread
  rw [applied_again hchanges nofun, hchanges.receiver_eq] at hgives
  exact repeats_iff_gives.2 ⟨_, hgives, .refl _⟩

/-! ## What must pass -/

/-- Attributes that are listed pass if those of all definitions do. -/
theorem passesUnits_attributes_iff {w₀ : World} {ds : List Attribute}
    (hnew : ∀ k, w.attribute? ⟨w₀.attributes.length + k⟩ = ds[k]?) :
    w.PassesUnits .attributes (.ofAttributes (w₀.newAttributeIds ds.length)) ↔
      ∀ d ∈ ds, w.KeepsUnit d := by
  constructor
  · intro h d hd
    obtain ⟨k, hk⟩ := List.mem_iff_getElem?.1 hd
    refine h ⟨w₀.attributes.length + k⟩ d (List.mem_map_of_mem ?_) ((hnew k).trans hk)
    exact List.mem_map_of_mem (List.mem_range.2 (List.getElem?_eq_some_iff.1 hk).1)
  · intro h id d hid hd
    obtain ⟨_, hid, ⟨⟩⟩ := List.mem_map.1 hid
    obtain ⟨k, -, rfl⟩ := List.mem_map.1 hid
    rw [hnew] at hd
    exact h d (List.mem_of_getElem? hd)

theorem passesUnits_customOutputs_iff {os : List CustomOutput} :
    w.PassesUnits .customOutputs (.list (os.map fun o => .handle (.custom o))) ↔
      ∀ o ∈ os, w.PassesCheck o := by
  constructor
  · exact fun h o ho => h o (List.mem_map_of_mem ho)
  · intro h o ho
    obtain ⟨_, ho, ⟨⟩⟩ := List.mem_map.1 ho
    exact h o ho

end

/-- **A keyword that has been accepted repeats exactly if what it has set passes the checks of unit
types in the world that it leaves**, unless it edits a key list. Nothing is asked of the world but
that groups have lists, which is so wherever `Reached.groupsListGroups` says. -/
theorem repeats_iff (hg : w.GroupsListGroups) (h : (w.applyArguments e a).Gives (w', id))
    (hkind : ∀ i, w.input? (w.target ⟨e, a.keyword⟩) = some i → i.kind.isKeyList = false) :
    w'.Repeats e a id ↔
      ∀ i, w'.input? (w'.target ⟨e, a.keyword⟩) = some i → w'.PassesUnits i.kind i.value := by
  have hchanges := (applyArguments_gives h).2.1
  obtain ⟨hfound, rfl, changed, hparse, rfl⟩ := applyArguments_eq_of_gives h
  rw [hchanges.target_eq]
  obtain ⟨hnone, rfl⟩ | ⟨i, assignment, hi, hread, rfl⟩ := parseInput_gives hparse
  · have hchanges : changed.KeywordChanges e a.keyword (changed.applied e a .nothing) := hchanges
    refine iff_of_true (repeats_of_target_eq_none hfound hnone hchanges) fun i hi => ?_
    have hsome := hchanges.isSome_input?_eq (changed.target ⟨e, a.keyword⟩)
    rw [hnone, Option.isSome_none] at hsome
    have hi : (changed.applied e a .nothing).input? (changed.target ⟨e, a.keyword⟩) = some i := hi
    rw [hi] at hsome
    cases hsome
  have hchanges : w.KeywordChanges e a.keyword (w.applied e a assignment) := hchanges
  obtain ⟨i', hi', hkind', hvalue, -⟩ := input?_applied hi assignment
  have hpasses : (∀ j, (w.applied e a assignment).input? (w.target ⟨e, a.keyword⟩) = some j →
      (w.applied e a assignment).PassesUnits j.kind j.value) ↔
      (w.applied e a assignment).PassesUnits i.kind (w.assigned assignment i).value := by
    rw [← hkind', ← hvalue]
    constructor
    · exact fun h => h i' hi'
    · intro h j hj
      cases hi'.symm.trans hj
      exact h
  refine Iff.trans ?_ hpasses.symm
  cases assigns_of_gives hread with
  | value hv => exact repeats_value_iff hg hfound hi hchanges hv
  | keyLists hk =>
    have hkey := hkind i hi
    rw [hk] at hkey
    cases hkey
  | @attributes _ ds hk he hds =>
    cases he
    have hnew (k : Nat) : (w.applied e a (.attributes e ds)).attribute?
        ⟨w.attributes.length + k⟩ = ds[k]? := w.attribute?_addAttributes ds k
    refine (repeats_attributes_iff hfound hi hk hchanges hds).trans ?_
    rw [hk]
    exact (passesUnits_attributes_iff hnew).symm
  | customOutputs hk he hos =>
    cases he
    refine (repeats_customOutputs_iff hfound hi hk hchanges hos).trans ?_
    rw [hk]
    exact passesUnits_customOutputs_iff.symm
  | nothing hk =>
    rw [hk]
    exact iff_of_true (repeats_nothing hfound hi hk hchanges) trivial

/-! ## Attributes of a server -/

/-- The speed of the server as an attribute. -/
def speedArguments : Arguments where
  keyword := "AttributeDefinitionList"
  args := ["A", "this.Speed"]
  balanced := by decide

/-- The sum of that attribute and the time as another one. -/
def sumArguments : Arguments where
  keyword := "AttributeDefinitionList"
  args := ["B", "this.A + this.Elapsed"]
  balanced := by decide

/-- Both definitions. -/
def bothArguments : Arguments where
  keyword := "AttributeDefinitionList"
  args := ["\x7b", "A", "this.Speed", "\x7d", "\x7b", "B", "this.A + this.Elapsed", "\x7d"]
  balanced := by decide

/-- The speed of the server. -/
def ownSpeed : Expression :=
  ⟨"this.Speed", .output (.entity none 0) "Speed" 5⟩

/-- The sum of an attribute and the time. -/
def ownSum : Expression :=
  ⟨"this.A + this.Elapsed",
    .binary .add (.output (.entity none 0) "A" 5) (.output (.entity none 9) "Elapsed" 14) 7⟩

/-- The attribute that is the speed. -/
def speedDefinition : Attribute where
  entity := ⟨0⟩
  name := "A"
  unitType := .speed
  expression := some ownSpeed

/-- The attribute that is the sum: a time, as long as there is no attribute that it reads. -/
def sumDefinition : Attribute where
  entity := ⟨0⟩
  name := "B"
  unitType := .time
  expression := some ownSum

set_option maxRecDepth 20000 in
theorem parse?_ownSpeed : Expression.parse? "this.Speed" true = .ok ownSpeed := by
  cbv

set_option maxRecDepth 20000 in
theorem parse?_ownSum : Expression.parse? "this.A + this.Elapsed" true = .ok ownSum := by
  cbv

/-- The unit type of an output of the server, known before it is read. -/
theorem inferUnit_output {name : String} {unit : Option (Except Failure (Option UnitType))}
    {u : Option UnitType} {entPos pos : Nat}
    (h : (w.checkEnv (some ⟨0⟩)).unitOf ⟨0⟩ name = unit) (hu : unit.getD (.ok none) = .ok u) :
    (Expr.output (.entity none entPos) name pos).inferUnit (w.checkEnv (some ⟨0⟩)) false =
      .ok u := by
  refine bind_eq_ok.2 ⟨⟨0⟩, rfl, ?_⟩
  rw [Expr.inferOutput, h]
  cases unit with
  | none => exact hu
  | some unit => exact hu

theorem unitOf_speed (hw : w.handle? ⟨0⟩ "Speed" = some (.output ⟨0⟩ "Speed"))
    (hp : w.palette = .standard) (hc : w.classOf ⟨0⟩ = "Server") :
    (w.checkEnv (some ⟨0⟩)).unitOf ⟨0⟩ "Speed" = some (.ok (some .speed)) := by
  have hs := outputSpec?_server hp hc "Speed"
  refine Option.map_eq_some_iff.2 ⟨_, hw, ?_⟩
  rw [numericUnit, typeOfHandle, readings_unit, unitWith, hs]
  rfl

theorem inferUnit_ownSpeed (hw : w.handle? ⟨0⟩ "Speed" = some (.output ⟨0⟩ "Speed"))
    (hp : w.palette = .standard) (hc : w.classOf ⟨0⟩ = "Server") :
    w.inferUnit ownSpeed (some ⟨0⟩) = .ok (some .speed) :=
  anchored_eq_ok.2 (inferUnit_output (unitOf_speed hw hp hc) rfl)

/-- A name that is no output of the class or of an input is none of the server. -/
theorem serving_handle?_eq_none {name : String} (hname : (Palette.entityClass.outputs ++
    Palette.serverClass.outputs.reverse).find? (·.name == name) = none)
    (hinput : (serving.entity? ⟨0⟩).bind (inputOutput? · name) = none) :
    serving.handle? ⟨0⟩ name = none := by
  obtain ⟨x, hx, -, -, hattributes, houtputs, -⟩ := serving_servesItself.server
  rw [hx, Option.bind_some] at hinput
  rw [handle?, hx, Option.bind_some, hattributes, houtputs, serving_servesItself.outputSpec?_eq,
    hname, hinput]
  rfl

theorem serving_checkAttributeName {name : String} {seen : List String}
    (hvalid : isValidName name = true) (hseen : seen.contains name = false)
    (hname : (Palette.entityClass.outputs ++ Palette.serverClass.outputs.reverse).find?
      (·.name == name) = none)
    (hinput : (serving.entity? ⟨0⟩).bind (inputOutput? · name) = none) :
    serving.checkAttributeName ⟨0⟩ name seen = .ok () := by
  have hdeclared : serving.isDeclaredOutput ⟨0⟩ name = false := by
    rw [isDeclaredOutput, serving_servesItself.outputSpec?_eq, hname, hinput]
    rfl
  have houtput : serving.hasOutput ⟨0⟩ name = false := by
    obtain ⟨x, hx, -, -, hattributes, hcustom, -⟩ := serving_servesItself.server
    rw [hasOutput, hasAttribute, hasCustomOutput, hdeclared, hx, Option.bind_some,
      Option.bind_some, hattributes, hcustom]
    rfl
  rw [checkAttributeName, checkNewName, hvalid, hseen, hdeclared, houtput]
  rfl

theorem inferUnit_ownSum_serving : serving.inferUnit ownSum (some ⟨0⟩) = .ok (some .time) := by
  have hattribute : (serving.checkEnv (some ⟨0⟩)).unitOf ⟨0⟩ "A" = none :=
    Option.map_eq_none_iff.2 (serving_handle?_eq_none rfl rfl)
  have hs := serving_servesItself.outputSpec?_eq "Elapsed"
  have helapsed : (serving.checkEnv (some ⟨0⟩)).unitOf ⟨0⟩ "Elapsed" =
      some (.ok (some .time)) := by
    refine Option.map_eq_some_iff.2 ⟨_, serving_servesItself.handle?_output hs, ?_⟩
    rw [numericUnit, typeOfHandle, readings_unit, unitWith, hs]
    rfl
  refine anchored_eq_ok.2 (bind_eq_ok.2 ⟨none, inferUnit_output hattribute rfl, ?_⟩)
  exact bind_eq_ok.2 ⟨some .time, inferUnit_output helapsed rfl, rfl⟩

/-- A definition by an expression, of one argument that is not a number. -/
theorem readDefinition_expression {name text : String} {a : Arguments} (ha : a.args = [text])
    (htext : splitUnit text = (text, none)) (hnumber : isNumberText text = false) :
    w.readDefinition e name a = Logged.ofExcept (w.expressionAttribute e name text) := by
  unfold readDefinition
  rw [ha]
  dsimp only
  rw [htext]
  dsimp only
  rw [hnumber]
  rfl

theorem readAttribute_speed (found : List Attribute) (hfound : "A" ∉ found.map (·.name)) :
    (serving.readAttribute ⟨0⟩ found speedArguments).Gives speedDefinition := by
  refine readAttribute_gives.2 ⟨rfl, ?_, _, rfl, ?_⟩
  · exact serving_checkAttributeName (by decide)
      (Bool.eq_false_iff.2 fun h => hfound (List.contains_iff_mem.1 h)) rfl rfl
  · rw [readDefinition_expression rfl rfl rfl, gives_ofExcept, expressionAttribute_eq_ok]
    refine ⟨ownSpeed, some .speed, parse?_ownSpeed, ?_, rfl⟩
    exact inferUnit_ownSpeed serving_servesItself.handle?_speed rfl rfl

theorem readAttribute_sum :
    (serving.readAttribute ⟨0⟩ [speedDefinition] sumArguments).Gives sumDefinition := by
  refine readAttribute_gives.2 ⟨rfl, ?_, _, rfl, ?_⟩
  · exact serving_checkAttributeName (by decide) (by decide) rfl rfl
  · rw [readDefinition_expression rfl rfl rfl, gives_ofExcept, expressionAttribute_eq_ok]
    exact ⟨ownSum, some .time, parse?_ownSum, inferUnit_ownSum_serving, rfl⟩

theorem readAttributes_speed :
    (serving.readAttributes ⟨0⟩ speedArguments).Gives [speedDefinition] := by
  refine gives_ofInput_bind.2 ⟨[speedArguments], rfl, ?_⟩
  refine (Steady.gives_bind fun _ => steady_pure _).2 ⟨speedDefinition, ?_, gives_pure.2 rfl⟩
  exact Steady.gives_adapt.2 (readAttribute_speed [] nofun)

theorem readAttributes_both :
    (serving.readAttributes ⟨0⟩ bothArguments).Gives [speedDefinition, sumDefinition] := by
  have hsteady (x : Attribute) : (readGroupsFrom bothArguments (serving.readAttribute ⟨0⟩)
      ([] ++ [x]) [sumArguments]).Steady :=
    readGroupsFrom_steady (serving.readAttribute_steady ⟨0⟩) _ _
  refine gives_ofInput_bind.2 ⟨[speedArguments, sumArguments], rfl, ?_⟩
  refine (Steady.gives_bind hsteady).2 ⟨speedDefinition, ?_, ?_⟩
  · exact Steady.gives_adapt.2 (readAttribute_speed [] nofun)
  · refine (Steady.gives_bind fun _ => steady_pure _).2 ⟨sumDefinition, ?_, gives_pure.2 rfl⟩
    exact Steady.gives_adapt.2 readAttribute_sum

theorem serving_groupsListGroups : serving.GroupsListGroups := by
  intro g hg hgroup
  have hregistered : serving.registered = [⟨0⟩] := rfl
  rw [hregistered, List.mem_singleton] at hg
  subst hg
  cases hgroup

/-- The server with the attributes of some definitions. -/
def definedServer (a : Arguments) (ds : List Attribute) : World :=
  serving.applied ⟨0⟩ a (.attributes ⟨0⟩ ds)

section

variable {ds : List Attribute}

/-- The input that defines the attributes of the server. -/
theorem serving_definitions : ∃ i, serving.input? ⟨⟨0⟩, "AttributeDefinitionList"⟩ = some i ∧
    i.kind = .attributes :=
  ⟨_, rfl, rfl⟩

theorem serving_target :
    serving.target ⟨⟨0⟩, "AttributeDefinitionList"⟩ = ⟨⟨0⟩, "AttributeDefinitionList"⟩ :=
  rfl

theorem serving_receiver :
    serving.receiver ⟨⟨0⟩, "AttributeDefinitionList"⟩ = ⟨⟨0⟩, "AttributeDefinitionList"⟩ :=
  rfl

theorem applyArguments_defined (ha : a.keyword = "AttributeDefinitionList")
    (hread : (serving.readAttributes ⟨0⟩ a).Gives ds) :
    (serving.applyArguments ⟨0⟩ a).Gives
      (definedServer a ds, ⟨⟨0⟩, "AttributeDefinitionList"⟩) := by
  obtain ⟨i, hi, hk⟩ := serving_definitions
  have htarget : serving.input? (serving.target ⟨⟨0⟩, a.keyword⟩) = some i := by
    rw [ha, serving_target, hi]
  have hfound : (serving.input? ⟨⟨0⟩, a.keyword⟩).isSome = true := by
    rw [ha, hi]
    rfl
  refine (applyArguments_gives_iff hfound htarget).2 ⟨?_, .attributes ⟨0⟩ ds, ?_, rfl⟩
  · rw [ha, serving_receiver]
  · exact (gives_readKind_attributes hk).2 ⟨ds, hread, rfl⟩

theorem definedServer_passesUnits (ha : a.keyword = "AttributeDefinitionList")
    (hkeeps : ∀ d ∈ ds, (definedServer a ds).KeepsUnit d) (i : Input)
    (hi : (definedServer a ds).input? (serving.target ⟨⟨0⟩, a.keyword⟩) = some i) :
    (definedServer a ds).PassesUnits i.kind i.value := by
  obtain ⟨j, hj, hk⟩ := serving_definitions
  have htarget : serving.input? (serving.target ⟨⟨0⟩, a.keyword⟩) = some j := by
    rw [ha, serving_target, hj]
  obtain ⟨i', hi', hkind, hvalue, -⟩ := input?_applied htarget (.attributes ⟨0⟩ ds)
  obtain rfl : i' = i := Option.some.inj (hi'.symm.trans hi)
  have hnew (k : Nat) : (definedServer a ds).attribute? ⟨serving.attributes.length + k⟩ = ds[k]? :=
    serving.attribute?_addAttributes ds k
  rw [hkind, hk, hvalue]
  exact (passesUnits_attributes_iff hnew).2 hkeeps

theorem definedServer_speed_keepsUnit :
    (definedServer speedArguments [speedDefinition]).KeepsUnit speedDefinition := by
  have hspeed : (definedServer speedArguments [speedDefinition]).handle? ⟨0⟩ "Speed" =
      some (.output ⟨0⟩ "Speed") := by
    rw [handle?, outputSpec?_server rfl rfl]
    rfl
  rintro _ ⟨⟩
  exact ⟨some .speed, inferUnit_ownSpeed hspeed rfl rfl, rfl⟩

/-- A speed is not added to a time. -/
theorem definedServer_both_not_keepsUnit :
    ¬ (definedServer bothArguments [speedDefinition, sumDefinition]).KeepsUnit sumDefinition := by
  have hattribute : ((definedServer bothArguments [speedDefinition, sumDefinition]).checkEnv
      (some ⟨0⟩)).unitOf ⟨0⟩ "A" = some (.ok (some .speed)) := rfl
  have helapsed : ((definedServer bothArguments [speedDefinition, sumDefinition]).checkEnv
      (some ⟨0⟩)).unitOf ⟨0⟩ "Elapsed" = some (.ok (some .time)) := by
    have hs := outputSpec?_server
      (w := definedServer bothArguments [speedDefinition, sumDefinition]) rfl rfl "Elapsed"
    have hhandle : (definedServer bothArguments [speedDefinition, sumDefinition]).handle? ⟨0⟩
        "Elapsed" = some (.output ⟨0⟩ "Elapsed") := by
      rw [handle?, hs]
      rfl
    refine Option.map_eq_some_iff.2 ⟨_, hhandle, ?_⟩
    rw [numericUnit, typeOfHandle, readings_unit, unitWith, hs]
    rfl
  intro h
  obtain ⟨unit, hunit, -⟩ := h ownSum rfl
  obtain ⟨u, hu, h⟩ := bind_eq_ok.1 (anchored_eq_ok.1 hunit)
  obtain ⟨v, hv, h⟩ := bind_eq_ok.1 h
  cases (inferUnit_output hattribute rfl).symm.trans hu
  cases (inferUnit_output helapsed rfl).symm.trans hv
  cases h

end

/-- The server repeats the definition of an attribute by its speed. -/
theorem repeats_iff_speed :
    Reached .standard serving ∧ serving.GroupsListGroups ∧
      (serving.applyArguments ⟨0⟩ speedArguments).Gives
        (definedServer speedArguments [speedDefinition], ⟨⟨0⟩, "AttributeDefinitionList"⟩) ∧
      (definedServer speedArguments [speedDefinition]).Repeats ⟨0⟩ speedArguments
        ⟨⟨0⟩, "AttributeDefinitionList"⟩ := by
  have hgives := applyArguments_defined rfl readAttributes_speed
  refine ⟨serving_reached, serving_groupsListGroups, hgives, ?_⟩
  refine (repeats_iff serving_groupsListGroups hgives ?_).2 ?_
  · rintro i ⟨⟩
    rfl
  · refine definedServer_passesUnits rfl fun d hd => ?_
    obtain rfl := List.mem_singleton.1 hd
    exact definedServer_speed_keepsUnit

/-- Arguments that are accepted do not always repeat: definitions are checked before any of them is
made, so that a sum is refused the second time, when the unit type of what it adds is known. -/
theorem not_forall_repeats :
    ¬ ∀ (p : Palette) (w w' : World) (e : EntityId) (a : Arguments) (id : InputId),
      Reached p w → w.GroupsListGroups → (w.applyArguments e a).Gives (w', id) →
      (∀ i, w.input? (w.target ⟨e, a.keyword⟩) = some i → i.kind.isKeyList = false) →
      w'.Repeats e a id := by
  intro h
  have hgives := applyArguments_defined rfl readAttributes_both
  have hrepeats := h _ _ _ _ _ _ serving_reached serving_groupsListGroups hgives (by
    rintro i ⟨⟩
    rfl)
  obtain ⟨i, hi, hk⟩ := serving_definitions
  have hkeeps := (repeats_attributes_iff rfl hi hk (applyArguments_gives hgives).2.1
    readAttributes_both).1 hrepeats
  exact definedServer_both_not_keepsUnit (hkeeps sumDefinition (.tail _ (.head _)))

end World

end ModelInputs
