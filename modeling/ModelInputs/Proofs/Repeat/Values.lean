import ModelInputs.Proofs.Change.Reading
import ModelInputs.Proofs.Integrity
import ModelInputs.Proofs.Reading.Warnings

/-!
# Values that are read again

Once arguments have set an input, they are read again as they were read first: names are those of the
same entities, groups have the same members unless the input is itself the list of a group, and a
keyword that did not lead back to its entity still does not. What may have changed is the unit type
of an output that is itself an input, and so a single output whose unit type is asked for may be
refused.

* `World.GroupsListGroups`: names of groups stand for groups in the lists of groups themselves;
* `World.PassesUnits`: what is assigned has the unit types that are asked for;
* `World.ChangesOnly.readEntities_eq`: lists of entities;
* `World.leadsTo_again`: relative entities;
* **`World.readArguments_again_iff`**: arguments that have set an input give the same value again
  exactly if it has the unit types that are asked for.
-/

namespace ModelInputs

open Logged

theorem Input.current?_congr {i i' : Input} (hk : i'.kind = i.kind) (hs : i'.stored = i.stored) :
    i'.current? = i.current? := by
  unfold Input.stored at hs
  unfold Input.current? Input.stored
  rw [hk] at hs ⊢
  generalize i.kind = kind at hs
  cases kind with
  | keyLists =>
    have hs : i'.value = i.value := hs
    show (do return Value.map (← i'.value.asEntries)) = (do return Value.map (← i.value.asEntries))
    rw [hs]
  | _ => exact congrArg Except.ok hs

namespace World

/-- Registered groups have lists of entities, which may be groups. -/
def GroupsListGroups (w : World) : Prop :=
  ∀ g ∈ w.registered, w.isInstance g groupType = true →
    ∃ i, w.input? ⟨g, "List"⟩ = some i ∧ w.palette.ListsGroups i.kind

/-- So it is in every world that is reached. -/
theorem Reached.groupsListGroups {p : Palette} (hp : p.IsPlain) (hg : p.HasGroups) {w : World}
    (hw : Reached p w) : w.GroupsListGroups :=
  (hw.integral hp hg).groups

/-- The list of a group is a list of entities, which may be groups. -/
theorem GroupsListGroups.listsGroups {w : World} (hw : w.GroupsListGroups) {target : InputId}
    {i : Input} (hi : w.input? target = some i) {g : EntityId} (hmem : g ∈ w.registered)
    (hgroup : w.isInstance g groupType = true) (htarget : w.target ⟨g, "List"⟩ = target) :
    w.palette.ListsGroups i.kind := by
  obtain ⟨j, hj, type, unique, counts, hk, hsub⟩ := hw g hmem hgroup
  have hself : w.target ⟨g, "List"⟩ = ⟨g, "List"⟩ := target_eq_self hj (by rw [hk]; rfl)
  rw [← htarget, hself, hj] at hi
  rw [← Option.some.inj hi]
  exact ⟨type, unique, counts, hk, hsub⟩

/-- The expression of an attribute, if it has one, still has the unit type of the attribute. -/
def KeepsUnit (w : World) (d : Attribute) : Prop :=
  ∀ exp, d.expression = some exp →
    ∃ unit, w.inferUnit exp (some d.entity) = .ok unit ∧ unit.getD .dimensionless = d.unitType

/-- The expression of a custom output passes the check of its unit type. -/
def PassesCheck (w : World) (o : CustomOutput) : Prop :=
  w.checkExpression o.expression (some o.entity) (some o.unitType) = .ok ()

/-- What an input of a kind is set to has the unit types that are asked for, as far as these are
checked: those of single outputs, and of expressions in definitions. -/
def PassesUnits (w : World) : InputKind → Value → Prop
  | .output (some unit), .chain c =>
    c.remaining = [] → w.chainUnit w.readings c 0.0 = .ok unit
  | .sample unit _, .sampler (.chain c _) =>
    c.remaining = [] → ∃ actual, w.chainUnit w.readings c 0.0 = .ok actual ∧
      checkSampleUnit unit actual = .ok ()
  | .attributes, .list vs =>
    ∀ a d, .handle (.attribute a) ∈ vs → w.attribute? a = some d → w.KeepsUnit d
  | .customOutputs, .list vs => ∀ o, .handle (.custom o) ∈ vs → w.PassesCheck o
  | _, _ => True

variable {inputs : InputId → Prop} {attributesOf outputsOf : EntityId → Prop} {w w' : World}
  {this : Option EntityId} {target : InputId} {type : TypeRef} {unique : Bool}

/-! ## Lists of entities -/

namespace ChangesOnly

variable (h : w.ChangesOnly inputs attributesOf outputsOf w')

include h

theorem nameIn_eq (ha : ∀ e, ¬ attributesOf e) (v : Value) : w'.nameIn v = w.nameIn v := by
  unfold nameIn handleName
  simp only [h.nameOf_eq, h.attribute?_eq ha]

theorem addMember_eq (ha : ∀ e, ¬ attributesOf e) (found : List EntityId) (v : Value) :
    w'.addMember type unique found v = w.addMember type unique found v := by
  unfold addMember addEntity? refuseClass
  simp only [h.isInstance_eq, h.nameOf_eq, h.nameIn_eq ha, funext h.classOf_eq]

theorem readInterfaces?_eq (a : Arguments) :
    w'.readInterfaces? this type unique a = w.readInterfaces? this type unique a := by
  unfold readInterfaces?
  simp only [h.readInterface?_eq, h.nameOf_eq]

variable (hother : ∀ id, id ≠ target →
  (w'.input? id).map (·.stored) = (w.input? id).map (·.stored))

include hother

/-- A value that applies is read as before, unless it is the one that changes. -/
theorem valueOf_eq {id : InputId} (hne : w.target id ≠ target) : w'.valueOf id = w.valueOf id := by
  have hkind := h.kind_eq (w.target id)
  have hstored := hother _ hne
  rw [valueOf, valueOf, h.target_eq]
  cases hi : w.input? (w.target id) with
  | none =>
    rw [hi] at hkind
    rw [Option.map_eq_none_iff.1 hkind]
  | some i =>
    rw [hi] at hkind hstored
    obtain ⟨i', hi', hkind⟩ := Option.map_eq_some_iff.1 hkind
    rw [hi'] at hstored ⊢
    exact Input.current?_congr hkind (Option.some.inj hstored)

theorem relativeValue_eq {keyword : String} {z : EntityId} (hne : ⟨z, keyword⟩ ≠ target) :
    w'.relativeValue keyword z = w.relativeValue keyword z := by
  have hkind := h.kind_eq ⟨z, keyword⟩
  have hstored := hother _ hne
  rw [relativeValue, relativeValue]
  cases hi : w.input? ⟨z, keyword⟩ with
  | none =>
    rw [hi] at hkind
    rw [Option.map_eq_none_iff.1 hkind]
  | some i =>
    rw [hi] at hkind hstored
    obtain ⟨i', hi', hkind⟩ := Option.map_eq_some_iff.1 hkind
    have hkind : i'.kind = i.kind := hkind
    rw [hi'] at hstored ⊢
    have hstored : i'.stored = i.stored := Option.some.inj hstored
    dsimp only
    rw [hkind, hstored]

variable (hgroups : ∀ g ∈ w.registered, w.isInstance g groupType = true →
  w.target ⟨g, "List"⟩ = target → groupType.isSubtype w.palette.ancestors type = true)

include hgroups

/-- What a name stands for does not change, where groups stand for themselves in the list of a
group. -/
theorem expand_eq {e : EntityId} (he : e ∈ w.registered) : w'.expand type e = w.expand type e := by
  rw [expand, expand, h.isInstance_eq, h.palette_eq]
  split
  · next hgroup =>
    obtain ⟨hgroup, hsub⟩ := Bool.and_eq_true_iff.1 hgroup
    have hne : w.target ⟨e, "List"⟩ ≠ target := by
      intro htarget
      rw [hgroups e he hgroup htarget] at hsub
      cases hsub
    rw [members, members, h.valueOf_eq hother hne]
  · rfl

theorem addNamed_eq (ha : ∀ e, ¬ attributesOf e) (found : List EntityId) (name : String) :
    w'.addNamed this type unique found name = w.addNamed this type unique found name := by
  have hnamed : w'.readNamed? this name = w.readNamed? this name := by
    rw [readNamed?, readNamed?, h.hasNamespace_eq, h.named?_eq]
  rw [addNamed, addNamed, hnamed]
  cases he : w.readNamed? this name with
  | error f => rfl
  | ok e =>
    have hmember : w'.addMember type unique = w.addMember type unique :=
      funext fun found => funext fun v => h.addMember_eq ha found v
    have he := mem_registered_of_named? (readNamed?_eq_ok.1 he).2
    show (w'.expand type e >>= _) = (w.expand type e >>= _)
    rw [h.expand_eq hother hgroups he, hmember]

/-- **Names of entities give the same list again.** -/
theorem readEntities_eq (ha : ∀ e, ¬ attributesOf e) (names : List String) :
    w'.readEntities this type unique names = w.readEntities this type unique names := by
  have hadd : w'.addNamed this type unique = w.addNamed this type unique :=
    funext fun found => funext fun name => h.addNamed_eq hother hgroups ha found name
  rw [readEntities, readEntities, h.hasNamespace_eq, hadd]

end ChangesOnly

/-! ## Relative entities -/

theorem ne_goal_of_leadsTo {keyword : String} {goal : Option EntityId} {n : Nat}
    {seen : List EntityId} {y : EntityId}
    (h : w.leadsTo keyword goal n seen y = .ok false) : some y ≠ goal := by
  rintro rfl
  cases n with
  | zero =>
    rw [leadsTo, beq_self_eq_true] at h
    cases h
  | succ n =>
    rw [leadsTo, beq_self_eq_true, if_pos rfl] at h
    cases h

theorem leadsTo_of_mem {keyword : String} {goal : Option EntityId} (n : Nat)
    {seen : List EntityId} {y : EntityId} (hy : some y ≠ goal) (hseen : y ∈ seen) :
    w.leadsTo keyword goal n seen y = .ok false := by
  have hgoal : (some y == goal) = false := beq_eq_false_iff_ne.2 hy
  cases n with
  | zero => rw [leadsTo, hgoal]
  | succ n =>
    rw [leadsTo, hgoal, if_neg Bool.false_ne_true, if_pos (List.contains_iff_mem.2 hseen)]

/-- A walk that does not reach its goal does not reach it either once something leads back to where
the walk began. -/
theorem leadsTo_again {keyword : String} {goal : Option EntityId} {y : EntityId}
    (hvalues : ∀ z, w'.relativeValue keyword z = .entity y ∨
      w'.relativeValue keyword z = w.relativeValue keyword z)
    (hy : some y ≠ goal) {n : Nat} {seen : List EntityId} {z : EntityId} (hz : y ∈ z :: seen)
    (h : w.leadsTo keyword goal n seen z = .ok false) :
    w'.leadsTo keyword goal n seen z = .ok false := by
  induction n generalizing seen z with
  | zero => exact h
  | succ n ih =>
    rw [leadsTo] at h ⊢
    split
    · next hgoal =>
      rw [if_pos hgoal] at h
      cases h
    next hgoal =>
    rw [if_neg hgoal] at h
    split
    · rfl
    next hseen =>
    rw [if_neg hseen] at h
    obtain hvalue | hvalue := hvalues z
    · rw [hvalue]
      exact leadsTo_of_mem n hy hz
    · rw [hvalue]
      split at h
      · exact ih (.tail _ hz) h
      · rfl
      · cases h

/-- An entity is accepted as the relative one again. -/
theorem ChangesOnly.readRelative_again (h : w.ChangesOnly inputs attributesOf outputsOf w')
    {keyword name : String} {y : EntityId}
    (hvalues : ∀ z, w'.relativeValue keyword z = .entity y ∨
      w'.relativeValue keyword z = w.relativeValue keyword z)
    (hread : w.readRelative this keyword type name = .ok y) :
    w'.readRelative this keyword type name = .ok y := by
  obtain ⟨hentity, hback⟩ := readRelative_eq_ok.1 hread
  refine readRelative_eq_ok.2 ⟨(h.readEntity?_eq this type name).trans hentity, ?_⟩
  rw [h.length_eq]
  exact leadsTo_again hvalues (ne_goal_of_leadsTo hback) (.head _) hback

/-! ## Samples -/

variable {a : Arguments} {v v' : Value} {unit : UnitType} {range : NumberRange}

/-- A chain is a sample if its unit type, where it is known, is the one that is asked for. -/
theorem chainSample_eq_ok_iff {c : OutputChain} :
    w.chainSample unit c = .ok v ↔
      v = .sampler (.chain c unit) ∧ w.PassesUnits (.sample unit range) (.sampler (.chain c unit)) := by
  unfold chainSample
  dsimp only
  split
  · next hempty =>
    constructor
    · intro h
      obtain ⟨actual, hactual, h⟩ := bind_eq_ok.1 h
      obtain ⟨_, hcheck, h⟩ := bind_eq_ok.1 h
      cases h
      exact ⟨rfl, fun _ => ⟨actual, hactual, mapError_eq_ok.1 hcheck⟩⟩
    · rintro ⟨rfl, hpasses⟩
      obtain ⟨actual, hactual, hcheck⟩ := hpasses (List.isEmpty_iff.1 hempty)
      exact bind_eq_ok.2 ⟨actual, hactual, bind_eq_ok.2 ⟨(), mapError_eq_ok.2 hcheck, rfl⟩⟩
  · next hlonger =>
    constructor
    · rintro ⟨⟩
      exact ⟨rfl, fun hnil => absurd (List.isEmpty_iff.2 hnil) hlonger⟩
    · rintro ⟨rfl, -⟩
      rfl

/-- One argument is an entity, a number or an expression. -/
theorem readSample_of_single {token : String} (hcount : a.checkCountRange 1 none = .ok ())
    (hargs : a.args = [token]) :
    w.readSample this unit range a = w.shortSample this unit range a token := by
  rw [readSample, hcount, hargs]
  rfl

/-- Several arguments are a chain, or a number and its unit. -/
theorem readSample_of_ne_single (hcount : a.checkCountRange 1 none = .ok ())
    (hargs : ∀ token, a.args ≠ [token]) :
    w.readSample this unit range a = w.longSample this unit range a := by
  rw [readSample, hcount]
  split
  · next token hsingle => exact absurd hsingle (hargs token)
  · rfl

/-- No unit type is asked for of a constant. -/
theorem passesUnits_of_constantSample (h : (w.constantSample unit range a).Gives v) :
    w'.PassesUnits (.sample unit range) v := by
  obtain ⟨x, rfl⟩ := constantSample_gives h
  trivial

theorem passesUnits_of_shortSample {token : String}
    (h : (w.shortSample this unit range a token).Gives v) :
    w'.PassesUnits (.sample unit range) v := by
  unfold shortSample at h
  split at h
  · obtain ⟨_, -, h⟩ := h.of_bind
    rw [h.of_pure]
    trivial
  split at h
  · exact passesUnits_of_constantSample h
  · obtain ⟨exp, -, h⟩ := h.of_bind
    rw [h.of_pure]
    trivial

namespace ChangesOnly

variable (h : w.ChangesOnly inputs attributesOf outputsOf w') (ha : ∀ e, ¬ attributesOf e)
  (ho : ∀ e, ¬ outputsOf e)

include h

theorem constantSample_eq (a : Arguments) :
    w'.constantSample unit range a = w.constantSample unit range a := by
  rw [constantSample, constantSample, h.settings_eq]

include ha ho

theorem shortSample_eq (a : Arguments) (token : String) :
    w'.shortSample this unit range a token = w.shortSample this unit range a token := by
  have hsampler : w'.isSampler = w.isSampler :=
    funext fun e => h.isInstance_eq e (.named "SampleProvider")
  unfold shortSample samplerUnit
  simp only [h.findNamed?_eq, hsampler, h.entitySampler?_eq, h.constantSample_eq,
    h.readExpression_eq ha ho]

theorem readProvider_eq (invalid : List TypeRef) (token : String) :
    w'.readProvider this type invalid token = w.readProvider this type invalid token := by
  have hinstance : w'.isInstance = w.isInstance :=
    funext fun e => funext fun type => h.isInstance_eq e type
  unfold readProvider refuseClass
  simp only [h.findNamed?_eq, hinstance, h.nameOf_eq, h.classOf_eq, h.readExpression_eq ha ho]

/-- **A sample is read again exactly if it has the unit type that is asked for.** -/
theorem readSample_again_iff (hread : (w.readSample this unit range a).Gives v) :
    (w'.readSample this unit range a).Gives v' ↔
      v' = v ∧ w'.PassesUnits (.sample unit range) v := by
  obtain ⟨_, hcount, -⟩ := gives_ofInput_bind.1 hread
  by_cases hsingle : ∃ token, a.args = [token]
  · obtain ⟨token, hargs⟩ := hsingle
    rw [readSample_of_single hcount hargs] at hread ⊢
    rw [h.shortSample_eq ha ho, and_iff_left (passesUnits_of_shortSample hread)]
    exact (w.shortSample_steady this a unit range token).gives_iff_eq hread
  rw [readSample_of_ne_single hcount (not_exists.1 hsingle)] at hread ⊢
  unfold longSample at hread ⊢
  rw [h.readChain?_eq ha ho]
  cases hc : w.readChain? this a with
  | ok c =>
    rw [hc] at hread
    rw [chainSample_eq_ok hread.of_ofExcept]
    exact gives_ofExcept.trans chainSample_eq_ok_iff
  | error f =>
    rw [hc] at hread
    dsimp only at hread ⊢
    split at hread
    · exact absurd hread not_gives_throw
    · next hfew =>
      rw [if_neg hfew, h.constantSample_eq, and_iff_left (passesUnits_of_constantSample hread)]
      exact (w.constantSample_steady a unit range).gives_iff_eq hread

end ChangesOnly

/-! ## By kind -/

/-- **Arguments that have set an input give the same value again**, exactly if it has the unit types
that are asked for. -/
theorem readArguments_again_iff (hg : w.GroupsListGroups)
    (h : w.ChangesOnly inputs attributesOf outputsOf w') (ha : ∀ e, ¬ attributesOf e)
    (ho : ∀ e, ¬ outputsOf e) {i i' : Input} (hi : w.input? target = some i)
    (hi' : w'.input? target = some i') (hstored : i'.stored = v)
    (hother : ∀ id, id ≠ target → (w'.input? id).map (·.stored) = (w.input? id).map (·.stored))
    (hread : (w.readArguments this i a).Gives v) :
    (w'.readArguments this i' a).Gives v' ↔ v' = v ∧ w'.PassesUnits i.kind v := by
  have hkind : i'.kind = i.kind := by
    have hkind := h.kind_eq target
    rw [hi, hi'] at hkind
    exact Option.some.inj hkind
  have hkeyword : i'.keyword = i.keyword := by rw [input?_keyword hi, input?_keyword hi']
  have hagain (hread : (w'.readArguments this i' a).Gives v) (hpasses : w'.PassesUnits i.kind v) :
      (w'.readArguments this i' a).Gives v' ↔ v' = v ∧ w'.PassesUnits i.kind v := by
    rw [and_iff_left hpasses]
    exact (w'.readArguments_steady this a i').gives_iff_eq hread
  have hsame (heq : w'.readArguments this i' a = w.readArguments this i a) :=
    hagain (heq ▸ hread)
  have hgroup (g : EntityId) (hmem : g ∈ w.registered) (hinstance : w.isInstance g groupType = true)
      (htarget : w.target ⟨g, "List"⟩ = target) : w.palette.ListsGroups i.kind :=
    hg.listsGroups hi hmem hinstance htarget
  unfold readArguments at hagain hsame hread ⊢
  rw [hkind, hkeyword, h.settings_eq] at hagain hsame ⊢
  generalize hk : i.kind = kind at hagain hsame hread hgroup ⊢
  cases kind with
  | boolean | integer | number | text | choice | member | date | colour | vector | integers
  | numbers | texts | colours | vectors => exact hsame rfl trivial
  | entity type =>
    refine hsame ?_ trivial
    simp only [h.readEntity?_eq]
  | interfaceEntity type =>
    refine hsame ?_ trivial
    simp only [h.readInterface?_eq]
  | relativeEntity type =>
    obtain ⟨name, hname, hread⟩ := gives_ofInput_bind.1 hread
    obtain ⟨y, hy, hread⟩ := gives_ofExcept_bind.1 hread
    rw [hread.of_pure] at hstored hagain ⊢
    have hvalues (z : EntityId) : w'.relativeValue i.keyword z = .entity y ∨
        w'.relativeValue i.keyword z = w.relativeValue i.keyword z := by
      by_cases hz : ⟨z, i.keyword⟩ = target
      · left
        rw [relativeValue, hz, hi']
        dsimp only
        rw [hkind, hk]
        exact hstored
      · exact .inr (h.relativeValue_eq hother hz)
    refine hagain (gives_ofInput_bind.2 ⟨name, hname, gives_ofExcept_bind.2 ⟨y, ?_, ?_⟩⟩) trivial
    · exact h.readRelative_again hvalues hy
    · exact gives_pure.2 rfl
  | entities type unique counts =>
    refine hsame ?_ trivial
    have hlists (g : EntityId) (hmem : g ∈ w.registered)
        (hinstance : w.isInstance g groupType = true) (htarget : w.target ⟨g, "List"⟩ = target) :
        groupType.isSubtype w.palette.ancestors type = true := by
      obtain ⟨_, _, _, ⟨⟩, hsub⟩ := hgroup g hmem hinstance htarget
      exact hsub
    simp only [h.readEntities_eq hother hlists ha]
  | interfaceEntities type unique counts =>
    refine hsame ?_ trivial
    simp only [h.readInterfaces?_eq]
  | entityLists type unique counts =>
    refine hsame ?_ trivial
    have hlists (g : EntityId) (hmem : g ∈ w.registered)
        (hinstance : w.isInstance g groupType = true) (htarget : w.target ⟨g, "List"⟩ = target) :
        groupType.isSubtype w.palette.ancestors type = true := by
      obtain ⟨_, _, _, ⟨⟩, -⟩ := hgroup g hmem hinstance htarget
    simp only [h.readEntities_eq hother hlists ha]
  | keyword =>
    refine hsame ?_ trivial
    unfold readKeyword?
    simp only [h.readEntity?_eq, h.isSome_input?_eq, h.nameOf_eq]
  | output unit =>
    obtain ⟨c, rfl, hc, -⟩ := readOutput?_eq_ok.1 hread.of_ofExcept
    constructor
    · intro hread
      obtain ⟨c', rfl, hc', hunit⟩ := readOutput?_eq_ok.1 hread.of_ofExcept
      rw [h.readChain?_eq ha ho, hc] at hc'
      cases hc'
      refine ⟨rfl, ?_⟩
      cases unit with
      | none => trivial
      | some u => exact fun hsingle => hunit hsingle u rfl
    · rintro ⟨rfl, hpasses⟩
      refine gives_ofExcept.2 (readOutput?_eq_ok.2
        ⟨c, rfl, (h.readChain?_eq ha ho this a).trans hc, fun hsingle u hu => ?_⟩)
      obtain rfl : unit = some u := hu
      exact hpasses hsingle
  | sample unit range => exact h.readSample_again_iff ha ho hread
  | provider type invalid =>
    refine hsame ?_ trivial
    simp only [h.readProvider_eq ha ho]
  | plain | list | keyLists | attributes | customOutputs | synonym | deprecated =>
    exact absurd hread not_gives_throw

end World

end ModelInputs
