import ModelInputs.Proofs.Repeating
import ModelInputs.Proofs.Run.Outputs

/-!
# Outputs by their names

The outputs of an entity stand in four tables: those that its class declares, its inputs that are
outputs, its attributes and its custom outputs. A name is looked up in one table after the other,
while a listing shows them all. Both agree as long as no name stands in two tables, which no
definition that is accepted can change.

* `World.declaredNames`: the names that the class and the inputs declare;
* `World.DefinesApart.nodup_names`: no name stands in two tables;
* `World.DefinesApart.handle?_eq_some_iff`: a name is looked up as the handle that is listed;
* **`World.outputs_unambiguous`**: names of outputs are unambiguous, after any run.
-/

namespace ModelInputs

/-! ## Keys -/

/-- Where keys are distinct, a list has at most one item of a key. -/
theorem filter_key_eq_toList {α : Type} {key : α → String} {items : List α}
    (h : (items.map key).Nodup) {name : String} {found : Option α}
    (hfound : ∀ item, found = some item ↔ item ∈ items ∧ key item = name) :
    items.filter (key · == name) = found.toList := by
  cases hf : found with
  | none =>
    refine List.filter_eq_nil_iff.2 fun item hitem hkey => ?_
    have hsome := (hfound item).2 ⟨hitem, beq_iff_eq.1 hkey⟩
    rw [hf] at hsome
    cases hsome
  | some item =>
    obtain ⟨hitem, rfl⟩ := (hfound item).1 hf
    clear hfound hf
    induction items with
    | nil => cases hitem
    | cons first items ih =>
      obtain ⟨hfirst, hrest⟩ := List.nodup_cons.1 h
      obtain rfl | hitem := List.mem_cons.1 hitem
      · rw [List.filter_cons, if_pos (beq_self_eq_true _), List.filter_eq_nil_iff.2 ?_]
        · rfl
        · intro other hother hkey
          rw [← beq_iff_eq.1 hkey] at hfirst
          exact hfirst (List.mem_map_of_mem hother)
      · rw [List.filter_cons, if_neg, ih hrest hitem]
        intro hkey
        rw [beq_iff_eq.1 hkey] at hfirst
        exact hfirst (List.mem_map_of_mem hitem)

namespace World

variable {w : World} {e : EntityId} {x : Entity} {name : String}

/-! ## Names -/

/-- The names of the outputs of the class and the keywords of the inputs that are outputs. -/
def declaredNames (w : World) (x : Entity) : List String :=
  (w.palette.outputs x.className).map (·.name) ++
    (x.inputs.filter (·.isOutput)).map (·.keyword)

theorem isSome_output?_iff {p : Palette} {className : String} :
    (p.output? className name).isSome = true ↔ name ∈ (p.outputs className).map (·.name) := by
  rw [Palette.output?, List.find?_isSome, List.mem_map]
  simp only [beq_iff_eq]

/-- An input that is an output is found by its keyword. -/
theorem inputOutput?_eq_some_iff (hkeywords : (x.inputs.map (·.keyword)).Nodup) {i : Input} :
    inputOutput? x name = some i ↔ i ∈ x.inputs.filter (·.isOutput) ∧ i.keyword = name := by
  rw [inputOutput?, Option.filter_eq_some_iff, List.mem_filter, Entity.input?]
  constructor
  · rintro ⟨hi, hout⟩
    have hkey := List.find?_some hi
    exact ⟨⟨List.mem_of_find?_eq_some hi, hout⟩, beq_iff_eq.1 hkey⟩
  · rintro ⟨⟨hi, hout⟩, rfl⟩
    refine ⟨?_, hout⟩
    have hfound : (x.inputs.find? (·.keyword == i.keyword)).isSome = true :=
      List.find?_isSome.2 ⟨i, hi, beq_iff_eq.2 rfl⟩
    obtain ⟨j, hj⟩ := Option.isSome_iff_exists.1 hfound
    have hkey := List.find?_some hj
    rw [hj, List.inj_on_of_nodup_map hkeywords (List.mem_of_find?_eq_some hj) hi
      (beq_iff_eq.1 hkey)]

namespace DefinesApart

variable (hapart : w.DefinesApart e x) (hx : w.entity? e = some x)

include hapart hx

/-- What is declared stands in one of the tables of the declared outputs. -/
theorem isDeclaredOutput_iff : w.isDeclaredOutput e name = true ↔ name ∈ w.declaredNames x := by
  rw [isDeclaredOutput_eq_of_entity? hx, Bool.or_eq_true, declaredNames, List.mem_append,
    isSome_output?_iff]
  refine or_congr_right ?_
  rw [Option.isSome_iff_exists, List.mem_map]
  simp only [inputOutput?_eq_some_iff hapart.keywords]

theorem not_mem_declaredNames (hname : name ∈ x.definedNames) : name ∉ w.declaredNames x := by
  rw [← hapart.isDeclaredOutput_iff hx, hapart.undeclared name hname]
  exact Bool.false_ne_true

/-- The listing shows the names of all four tables. -/
theorem names_handles :
    (w.handles e).map w.handleName = w.declaredNames x ++ x.definedNames := by
  have hattributes : x.attributes.map (fun entry => w.handleName (.attribute entry.2)) =
      x.attributes.map (·.1) := by
    refine List.map_congr_left fun entry hentry => ?_
    obtain ⟨d, hd, hname⟩ := hapart.attributes entry hentry
    rw [handleName, hd]
    exact hname
  have hcustom : x.customOutputs.map (fun entry => w.handleName (.custom entry.2)) =
      x.customOutputs.map (·.1) :=
    List.map_congr_left fun entry hentry => (hapart.customOutputs entry hentry).1
  rw [handles, hx, declaredNames, Entity.definedNames, ← hattributes, ← hcustom]
  simp only [List.map_append, List.map_map, Function.comp_def, handleName, List.append_assoc]

/-- No name stands in two tables. -/
theorem nodup_names (hdeclared : (w.declaredNames x).Nodup) :
    ((w.handles e).map w.handleName).Nodup := by
  rw [hapart.names_handles hx]
  refine List.nodup_append.2 ⟨hdeclared, hapart.names, ?_⟩
  rintro name hname _ hdefined rfl
  exact hapart.not_mem_declaredNames hx hdefined hname

omit hapart in
theorem hasOutput_eq_isSome_handle? : w.hasOutput e name = (w.handle? e name).isSome := by
  rw [hasOutput, hasAttribute, hasCustomOutput, isDeclaredOutput, handle?, hx]
  simp only [Option.bind_some, Option.isSome_or, Option.isSome_map, Bool.or_assoc]

theorem hasOutput_iff :
    w.hasOutput e name = true ↔ name ∈ (w.handles e).map w.handleName := by
  rw [hapart.names_handles hx, Entity.definedNames, List.mem_append, List.mem_append, hasOutput,
    Bool.or_eq_true, Bool.or_eq_true, hasAttribute_iff hx, hasCustomOutput_iff hx,
    hapart.isDeclaredOutput_iff hx]
  exact or_comm

/-- A name is looked up as a handle that is listed under it. -/
theorem mem_handles_of_handle? {h : Handle} (hh : w.handle? e name = some h) :
    h ∈ w.handles e ∧ w.handleName h = name := by
  have hmem : h ∈ w.handles e ↔ h ∈ (w.palette.outputs x.className).map (Handle.output e ·.name)
      ++ (x.inputs.filter (·.isOutput)).map (Handle.input ⟨e, ·.keyword⟩)
      ++ x.attributes.map (Handle.attribute ·.2) ++ x.customOutputs.map (Handle.custom ·.2) := by
    rw [handles, hx]
  rw [hmem, List.mem_append, List.mem_append, List.mem_append]
  rw [handle?, hx, Option.bind_some] at hh
  obtain hh | ⟨-, hh⟩ := Option.or_eq_some_iff.1 hh
  · obtain ⟨a, ha, rfl⟩ := Option.map_eq_some_iff.1 hh
    have hentry := mem_of_lookup_eq_some ha
    obtain ⟨d, hd, hname⟩ := hapart.attributes _ hentry
    refine ⟨.inl (.inr (List.mem_map_of_mem hentry)), ?_⟩
    rw [handleName, hd]
    exact hname
  obtain hh | ⟨-, hh⟩ := Option.or_eq_some_iff.1 hh
  · obtain ⟨o, ho, rfl⟩ := Option.map_eq_some_iff.1 hh
    have hentry := mem_of_lookup_eq_some ho
    exact ⟨.inr (List.mem_map_of_mem hentry), (hapart.customOutputs _ hentry).1⟩
  obtain hh | ⟨-, hh⟩ := Option.or_eq_some_iff.1 hh
  · obtain ⟨spec, hspec, rfl⟩ := Option.map_eq_some_iff.1 hh
    rw [outputSpec?, classOf, hx] at hspec
    obtain ⟨hdeclares, rfl⟩ := Palette.output?_eq_some_mem hspec
    exact ⟨.inl (.inl (.inl (List.mem_map.2 ⟨spec, hdeclares, rfl⟩))), rfl⟩
  · obtain ⟨i, hi, rfl⟩ := Option.map_eq_some_iff.1 hh
    obtain ⟨hout, rfl⟩ := (inputOutput?_eq_some_iff hapart.keywords).1 hi
    exact ⟨.inl (.inl (.inr (List.mem_map.2 ⟨i, hout, rfl⟩))), rfl⟩

/-- **A name is looked up as the one handle that is listed under it.** -/
theorem handle?_eq_some_iff (hdeclared : (w.declaredNames x).Nodup) {h : Handle} :
    w.handle? e name = some h ↔ h ∈ w.handles e ∧ w.handleName h = name := by
  refine ⟨hapart.mem_handles_of_handle? hx, ?_⟩
  rintro ⟨hmem, rfl⟩
  have hhas := (hapart.hasOutput_iff hx).2 (List.mem_map_of_mem hmem)
  rw [hasOutput_eq_isSome_handle? hx] at hhas
  obtain ⟨h', hh'⟩ := Option.isSome_iff_exists.1 hhas
  obtain ⟨hmem', hname⟩ := hapart.mem_handles_of_handle? hx hh'
  obtain rfl := List.inj_on_of_nodup_map (hapart.nodup_names hx hdeclared) hmem' hmem hname
  exact hh'

end DefinesApart

/-! ## After a run -/

/-- **Names of outputs are unambiguous.** Where the class and the inputs of an entity declare
outputs of distinct names, whatever has been defined, accepted or refused: no name is that of two
outputs, and an entity has an output of a name exactly if the name is looked up as a handle, which
then is the only one that is listed under the name. -/
theorem outputs_unambiguous {p : Palette} (hw : OrderlyReached p w) (hx : w.entity? e = some x)
    (hdeclared : (w.declaredNames x).Nodup) :
    (x.attributes.map (·.1)).Disjoint (x.customOutputs.map (·.1)) ∧
    (x.attributes.map (·.1)).Disjoint (w.declaredNames x) ∧
    (x.customOutputs.map (·.1)).Disjoint (w.declaredNames x) ∧
    ∀ name,
      (w.hasOutput e name = true ↔ w.handle? e name ≠ none) ∧
      (w.hasOutput e name = true ↔ ∃ h, (w.handles e).filter (w.handleName · == name) = [h]) ∧
      (w.handles e).filter (w.handleName · == name) = (w.handle? e name).toList := by
  have hapart := hw.outputsApart e x hx
  have hnames := hapart.nodup_names hx hdeclared
  obtain ⟨-, -, hdisjoint⟩ := List.nodup_append.1 hapart.names
  refine ⟨fun n ha hc => hdisjoint n ha n hc rfl, fun n ha hd => ?_, fun n hc hd => ?_, fun n => ?_⟩
  · exact hapart.not_mem_declaredNames hx (List.mem_append_left _ ha) hd
  · exact hapart.not_mem_declaredNames hx (List.mem_append_right _ hc) hd
  have hlisted : (w.handles e).filter (w.handleName · == n) = (w.handle? e n).toList :=
    filter_key_eq_toList hnames fun h => hapart.handle?_eq_some_iff hx hdeclared
  rw [hlisted, DefinesApart.hasOutput_eq_isSome_handle? hx]
  cases w.handle? e n with
  | none => exact ⟨⟨nofun, fun h => absurd rfl h⟩, ⟨nofun, nofun⟩, rfl⟩
  | some h => exact ⟨⟨fun _ => nofun, fun _ => rfl⟩, ⟨fun _ => ⟨h, rfl⟩, fun _ => rfl⟩, rfl⟩

/-- The server with both of its attributes. -/
def definingServer : World :=
  definedServer bothArguments [speedDefinition, sumDefinition]

theorem definingServer_reached : OrderlyReached .standard definingServer := by
  have hcreate : create? { palette := .standard } "Server" "S" = .ok (oneServer, ⟨0⟩) := rfl
  have hgives : (serving.applyArguments ⟨0⟩ bothArguments).Gives
      (definingServer, ⟨⟨0⟩, "AttributeDefinitionList"⟩) :=
    applyArguments_defined rfl readAttributes_both
  have hdefine : OrderlyStep serving definingServer := applyItems_of_gives _ _ hgives ▸ .apply
  exact ⟨{}, false, .tail (.tail (.tail .refl (.create (by decide) hcreate)) .apply) hdefine⟩

/-- The server has the attributes `A` and `B` besides what is declared, and `A` is one output. -/
theorem outputs_unambiguous_definingServer :
    OrderlyReached .standard definingServer ∧
      ∃ x, definingServer.entity? ⟨0⟩ = some x ∧ x.attributes.map (·.1) = ["A", "B"] ∧
        definingServer.declaredNames x =
          ["Name", "ObjectType", "Next", "Elapsed", "Speed", "Description", "ServiceTime"] ∧
        (definingServer.declaredNames x).Nodup ∧
        definingServer.hasOutput ⟨0⟩ "A" = true ∧
        (definingServer.handles ⟨0⟩).filter (definingServer.handleName · == "A") =
          [.attribute ⟨0⟩] := by
  have hnames (x : Entity) (hx : definingServer.entity? ⟨0⟩ = some x) :
      definingServer.declaredNames x =
        ["Name", "ObjectType", "Next", "Elapsed", "Speed", "Description", "ServiceTime"] := by
    cases hx
    rw [declaredNames]
    show (Palette.standard.outputs "Server").map (·.name) ++ _ = _
    rw [outputs_server]
    rfl
  obtain ⟨x, hx, hattributes⟩ : ∃ x, definingServer.entity? ⟨0⟩ = some x ∧
      x.attributes.map (·.1) = ["A", "B"] := ⟨_, rfl, rfl⟩
  have hdeclared : (definingServer.declaredNames x).Nodup := by
    rw [hnames x hx]
    decide
  obtain ⟨-, -, -, hname⟩ := outputs_unambiguous definingServer_reached hx hdeclared
  obtain ⟨hhas, -, hlisted⟩ := hname "A"
  have hhandle : definingServer.handle? ⟨0⟩ "A" = some (.attribute ⟨0⟩) := rfl
  refine ⟨definingServer_reached, x, hx, hattributes, hnames x hx, hdeclared, ?_, ?_⟩
  · rw [hhas, hhandle]
    exact nofun
  · rw [hlisted, hhandle]
    rfl

end World

end ModelInputs
