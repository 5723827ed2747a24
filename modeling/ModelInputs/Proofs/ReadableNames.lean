import ModelInputs.Proofs.DefinitionLists
import ModelInputs.Proofs.Parser.Folded
import ModelInputs.Proofs.Printing
import ModelInputs.Proofs.Printing.Results

/-!
# Names that expressions can read

An output that the user of an entity has defined is found under its name, and an expression of the
entity reads it behind `this` and a point. The name of an output may have any character but a few
that delimit names of entities, while an expression takes no more than one word for the name. So an
output can be defined that no expression reads.

* `Expr.IsOwnOutput`: the tree is an output of the entity itself;
* `Expr.parse?_ownOutput_iff`: a text is read as one with folding if it is without;
* **`Expression.exists_ownOutput_iff`**: the names that are read behind `this` and a point;
* **`World.findsDefined_of_applyArguments`**: what has been defined is found under its name;
* `World.evaluate_isOwnOutput`: and read as an output of the entity itself;
* **`World.definedOutput_isRead_iff`**: the outputs that can be read;
* **`World.not_forall_definedOutput_isRead`**: one that can not.
-/

namespace ModelInputs

open Token (IsWordText)

/-! ## Trees -/

namespace Expr

/-- The tree is the output of that name of the entity itself. -/
def IsOwnOutput (name : String) (e : Expr) : Prop :=
  ∃ p q, e = .output (.entity none p) name q

theorem isOwnOutput_of_withoutPositions {name : String} {e : Expr}
    (h : e.withoutPositions = .output (.entity none 0) name 0) : e.IsOwnOutput name := by
  cases e with
  | output target name' q =>
    rw [withoutPositions, output.injEq] at h
    obtain ⟨htarget, rfl, -⟩ := h
    cases target with
    | entity this p =>
      rw [withoutPositions, entity.injEq] at htarget
      rw [htarget.1]
      exact ⟨p, q, rfl⟩
    | _ => cases htarget
  | _ => cases h

/-! ### Folding -/

/-- What a node folds to is the node itself or a constant. -/
theorem eq_or_isLiteral_of_fold {node e : Expr} (h : node.fold true = .ok e) :
    e = node ∨ e.isLiteral = true := by
  unfold fold at h
  split at h
  · split at h
    · cases h
      exact .inr rfl
    · cases h
      exact .inl rfl
    · cases h
  · cases h
    exact .inl rfl

/-- Nothing but a reference is folded to the reference. -/
theorem isReference_of_folded {e e' : Expr} (h : e.folded = .ok e')
    (href : e'.isReference = true) : e.isReference = true := by
  have hnode {node : Expr} (hfold : node.fold true = .ok e') : node.isReference = true := by
    obtain rfl | hliteral := eq_or_isLiteral_of_fold hfold
    · exact href
    · cases e' with
      | literal => cases href
      | _ => cases hliteral
  cases e with
  | entity | output | index => rfl
  | literal =>
    cases h
    exact href
  | unary =>
    obtain ⟨_, -, h⟩ := bind_eq_ok.1 h
    exact nomatch hnode h
  | binary =>
    obtain ⟨_, -, h⟩ := bind_eq_ok.1 h
    obtain ⟨_, -, h⟩ := bind_eq_ok.1 h
    exact nomatch hnode h
  | cond =>
    obtain ⟨_, -, h⟩ := bind_eq_ok.1 h
    obtain ⟨_, -, h⟩ := bind_eq_ok.1 h
    obtain ⟨_, -, h⟩ := bind_eq_ok.1 h
    exact nomatch hnode h
  | call | array | map =>
    obtain ⟨_, -, h⟩ := bind_eq_ok.1 h
    exact nomatch hnode h

/-- A tree that folds to an output of the entity itself is this output. -/
theorem isOwnOutput_of_folded {name : String} {e e' : Expr} (h : e.folded = .ok e')
    (he' : e'.IsOwnOutput name) : e = e' := by
  obtain ⟨p, q, rfl⟩ := he'
  have href := isReference_of_folded h rfl
  cases e with
  | output target name' q' =>
    obtain ⟨target', htarget, heq⟩ := bind_eq_ok.1 h
    cases heq
    have href' := isReference_of_folded htarget rfl
    cases target with
    | entity =>
      cases htarget
      rfl
    | output =>
      obtain ⟨_, -, heq⟩ := bind_eq_ok.1 htarget
      cases heq
    | index =>
      obtain ⟨_, -, htarget⟩ := bind_eq_ok.1 htarget
      obtain ⟨_, -, heq⟩ := bind_eq_ok.1 htarget
      cases heq
    | _ => cases href'
  | entity => cases h
  | index =>
    obtain ⟨_, -, h⟩ := bind_eq_ok.1 h
    obtain ⟨_, -, heq⟩ := bind_eq_ok.1 h
    cases heq
  | _ => cases href

/-- **A text is read as an output of the entity itself with folding if it is without.** -/
theorem parse?_ownOutput_iff {name source : String} {e : Expr} (he : e.IsOwnOutput name)
    (fold : Bool) : Expr.parse? source fold = .ok e ↔ Expr.parse? source false = .ok e := by
  cases fold with
  | false => exact Iff.rfl
  | true =>
    rw [Expr.parse?, Expr.parse?, bind_eq_ok, bind_eq_ok]
    refine exists_congr fun tokens => and_congr_right fun _ => ?_
    rw [anchored_eq_ok, anchored_eq_ok]
    obtain ⟨hok, herror⟩ := Parser.ofTokens?_folded tokens
    cases hread : Expr.ofTokens? false tokens with
    | ok e' =>
      rw [hok e' hread]
      constructor
      · intro hfolded
        rw [isOwnOutput_of_folded hfolded he]
      · rintro ⟨⟩
        obtain ⟨p, q, rfl⟩ := he
        rfl
    | error f =>
      constructor
      · intro hfolded
        obtain hf | hf := herror f hread
        · cases hf.symm.trans hfolded
        · cases hf.symm.trans hfolded
      · rintro ⟨⟩

/-! ### Words -/

theorem exists_ownOutput_iff_isWordText (name : String) (fold : Bool) :
    (∃ e, Expr.parse? ("this." ++ name) fold = .ok e ∧ e.IsOwnOutput name) ↔
      IsWordText name.toList := by
  constructor
  · rintro ⟨e, hparse, he⟩
    rw [parse?_ownOutput_iff he] at hparse
    obtain ⟨p, q, rfl⟩ := he
    have hwritten := isWritten_of_parse? hparse (List.forall_mem_nil _)
    cases hwritten with
    | output _ _ hname => exact hname
  · intro hname
    have hwritten : (Expr.output (.entity none 0) name 0).IsWritten := .output .this rfl hname
    obtain ⟨e, hparse, hsame⟩ := hwritten.exists_parse?
    have he := isOwnOutput_of_withoutPositions hsame
    exact ⟨e, (parse?_ownOutput_iff he fold).2 hparse, he⟩

end Expr

/-- **What stands behind `this` and a point is read as the name of an output exactly if it is a
word**: if it starts with a letter or an underscore, and goes on with letters, digits and
underscores. -/
theorem Expression.exists_ownOutput_iff (name : String) (fold : Bool) :
    (∃ exp, Expression.parse? ("this." ++ name) fold = .ok exp ∧ exp.root.IsOwnOutput name) ↔
      IsWordText name.toList := by
  rw [← Expr.exists_ownOutput_iff_isWordText name fold]
  constructor
  · rintro ⟨exp, hparse, hown⟩
    obtain ⟨tree, htree, hexp⟩ := bind_eq_ok.1 hparse
    cases hexp
    exact ⟨tree, htree, hown⟩
  · rintro ⟨tree, htree, hown⟩
    exact ⟨⟨_, tree⟩, bind_eq_ok.2 ⟨tree, htree, rfl⟩, hown⟩

/-! ## Outputs that are defined -/

namespace World

variable {w w' : World} {e : EntityId} {a : Arguments} {id : InputId} {i : Input}
  {l : DefinitionList} {o : Handle} {name : String}

/-- An attribute is found under its name. -/
theorem handle?_of_mem_attributes {x : Entity} (hx : w.entity? e = some x)
    (hkeys : (x.attributes.map (·.1)).Nodup) {entry : String × AttributeId}
    (hentry : entry ∈ x.attributes) : w.handle? e entry.1 = some (.attribute entry.2) := by
  rw [handle?, hx, Option.bind_some, Result.lookup_of_mem hkeys hentry]
  rfl

/-- A custom output is found under its name, unless an attribute hides it. -/
theorem handle?_of_mem_customOutputs {x : Entity} (hx : w.entity? e = some x)
    (hkeys : (x.customOutputs.map (·.1)).Nodup)
    (hdisjoint : (x.attributes.map (·.1)).Disjoint (x.customOutputs.map (·.1)))
    {entry : String × CustomOutput} (hentry : entry ∈ x.customOutputs) :
    w.handle? e entry.1 = some (.custom entry.2) := by
  have hnone : x.attributes.lookup entry.1 = none := by
    rw [← Option.not_isSome_iff_eq_none, lookup_isSome_iff_mem]
    exact fun hmem => hdisjoint hmem (List.mem_map_of_mem hentry)
  rw [handle?, hx, Option.bind_some, hnone, Result.lookup_of_mem hkeys hentry]
  rfl

theorem ChangesOnly.handleName_eq {inputs : InputId → Prop} {outputsOf : EntityId → Prop}
    (h : w.ChangesOnly inputs (fun _ => False) outputsOf w') (o : Handle) :
    w'.handleName o = w.handleName o := by
  match o with
  | .attribute b => rw [handleName, handleName, h.attribute?_eq fun _ => id]
  | .output .. | .custom _ | .input _ => rfl

/-- What has been defined is found under its name. -/
def FindsDefined (w : World) (e : EntityId) (l : DefinitionList) : Prop :=
  ∀ o ∈ w.defined e l, w.handle? e (w.handleName o) = some o

theorem FindsDefined.of_changesOnly {inputs : InputId → Prop} (h : w.FindsDefined e l)
    (hchanges : w.ChangesOnly inputs (fun _ => False) (fun _ => False) w') :
    w'.FindsDefined e l := by
  intro o ho
  rw [hchanges.defined_eq (fun _ => id) fun _ => id] at ho
  rw [hchanges.handle?_eq (fun _ => id) fun _ => id, hchanges.handleName_eq]
  exact h o ho

theorem findsDefined_setAttributes {x : Entity} (hx : w.entity? e = some x) {ds : List Attribute}
    (hds : (w.readAttributes e a).Gives ds) :
    ((w.addAttributes ds).setAttributes e (w.definitionTable ds)).FindsDefined e .attributes := by
  have hkeys : ((w.definitionTable ds).map (·.1)).Nodup :=
    (w.keys_definitionTable ds).symm ▸ nodup_of_readAttributes hds
  have htable := entity?_defineAttributes hx hds
  intro o ho
  rw [defined, htable] at ho
  obtain ⟨entry, hentry, rfl⟩ := List.mem_map.1 ho
  obtain ⟨d, -, hd, hname⟩ := found_of_mem_definitionTable hentry
  have hfound : ((w.addAttributes ds).setAttributes e (w.definitionTable ds)).attribute? entry.2 =
      some d := hd
  rw [handleName, hfound, Option.map_some, Option.getD_some, hname]
  exact handle?_of_mem_attributes htable hkeys hentry

theorem findsDefined_setCustomOutputs {x : Entity} (hx : w.entity? e = some x)
    {os : List CustomOutput} (hos : (w.readCustomOutputs e a).Gives os) :
    (w.setCustomOutputs e os).FindsDefined e .customOutputs := by
  have hnames : (os.map fun o => (o.name, o)).map (·.1) = os.map (·.name) := List.map_map
  have hkeys : ((os.map fun o => (o.name, o)).map (·.1)).Nodup :=
    hnames.symm ▸ (names_of_readCustomOutputs hos).1
  have htable := entity?_defineCustomOutputs hx hos
  intro o ho
  rw [defined, htable] at ho
  obtain ⟨entry, hentry, rfl⟩ := List.mem_map.1 ho
  obtain ⟨o, ho, rfl⟩ := List.mem_map.1 hentry
  exact handle?_of_mem_customOutputs htable hkeys
    (hnames.symm ▸ disjoint_of_readCustomOutputs hx hos) hentry

/-- **What has been defined is found under its name**, whatever the entity had before. -/
theorem findsDefined_of_applyArguments (hi : w.input? ⟨e, a.keyword⟩ = some i)
    (hk : i.kind = l.kind) (h : (w.applyArguments e a).Gives (w', id)) : w'.FindsDefined e l := by
  obtain ⟨x, hx, -⟩ := Option.bind_eq_some_iff.1 hi
  have hself := target_eq_self hi (hk ▸ l.target?_kind)
  obtain ⟨-, assignment, hread, rfl⟩ :=
    (applyArguments_gives_iff (hi ▸ rfl) (hself.symm ▸ hi)).1 h
  have hchanges (w₀ : World) (v : Value) : w₀.ChangesOnly (fun _ => True) (fun _ => False)
      (fun _ => False) ((w₀.updateInput (w.target ⟨e, a.keyword⟩) (Input.assign v)).updateInput
        (w.receiver ⟨e, a.keyword⟩) (w.markReceiver e a)) :=
    (updateInput_changesOnly trivial (Input.assign_sameDeclaration v)).trans
      (updateInput_changesOnly trivial (w.markReceiver_sameDeclaration e a))
  cases l with
  | attributes =>
    obtain ⟨ds, hds, rfl⟩ := (gives_readKind_attributes hk).1 hread
    exact (findsDefined_setAttributes hx hds).of_changesOnly (hchanges _ _)
  | customOutputs =>
    obtain ⟨os, hos, rfl⟩ := (gives_readKind_customOutputs hk).1 hread
    exact (findsDefined_setCustomOutputs hx hos).of_changesOnly (hchanges _ _)

/-- An output of the entity itself tells what the handle that is found under its name tells. -/
theorem evaluate_isOwnOutput (ho : w.handle? e name = some o) {exp : Expression}
    (hexp : exp.root.IsOwnOutput name) (t : Float) :
    Comparison.told.Rel (w.evaluate exp (some e) t) (w.readings.result o t) := by
  obtain ⟨p, q, hroot⟩ := hexp
  refine evaluateWith_told.trans ?_
  rw [hroot, eval_own ho]
  exact relocated_told q

/-- **An output that has been defined can be read exactly if its name is a word.** Once a list of
attributes or of custom outputs has been accepted for an entity, the text of `this`, a point and the
name of one of its outputs is read as that output, with or without folding, if and only if the name
starts with a letter or an underscore and goes on with letters, digits and underscores. Then the text
yields for the entity what the output does at every time: the same result, or a failure that tells the
same. -/
theorem definedOutput_isRead_iff (hi : w.input? ⟨e, a.keyword⟩ = some i) (hk : i.kind = l.kind)
    (h : (w.applyArguments e a).Gives (w', id)) (ho : o ∈ w'.defined e l) (fold : Bool) :
    ((∃ exp, Expression.parse? ("this." ++ w'.handleName o) fold = .ok exp ∧
        exp.root.IsOwnOutput (w'.handleName o)) ↔ IsWordText (w'.handleName o).toList) ∧
    (IsWordText (w'.handleName o).toList →
      ∃ exp, Expression.parse? ("this." ++ w'.handleName o) fold = .ok exp ∧
        exp.root.IsOwnOutput (w'.handleName o) ∧
        ∀ t, Comparison.told.Rel (w'.evaluate exp (some e) t) (w'.readings.result o t)) := by
  have hfound := findsDefined_of_applyArguments hi hk h o ho
  have hread := Expression.exists_ownOutput_iff (w'.handleName o) fold
  refine ⟨hread, fun hname => ?_⟩
  obtain ⟨exp, hparse, hown⟩ := hread.2 hname
  exact ⟨exp, hparse, hown, evaluate_isOwnOutput hfound hown⟩

/-- The custom output `V` of the server is read. -/
theorem definedOutput_isRead_iff_speedServer :
    ∃ i, serving.input? ⟨⟨0⟩, outputArguments.keyword⟩ = some i ∧
      i.kind = DefinitionList.customOutputs.kind ∧
      (serving.applyArguments ⟨0⟩ outputArguments).Gives (speedServer, ⟨⟨0⟩, "CustomOutputList"⟩) ∧
      .custom speedOutput ∈ speedServer.defined ⟨0⟩ .customOutputs ∧
      IsWordText "V".toList ∧
      ∃ exp, Expression.parse? "this.V" true = .ok exp ∧ exp.root.IsOwnOutput "V" ∧
        ∀ t, Comparison.told.Rel (speedServer.evaluate exp (some ⟨0⟩) t)
          (speedServer.readings.result (.custom speedOutput) t) := by
  obtain ⟨i, hi, hk⟩ : ∃ i, serving.input? ⟨⟨0⟩, outputArguments.keyword⟩ = some i ∧
      i.kind = DefinitionList.customOutputs.kind := ⟨_, rfl, rfl⟩
  have hdefined : .custom speedOutput ∈ speedServer.defined ⟨0⟩ .customOutputs := by
    rw [defined_speedServer]
    exact .head _
  have hread := definedOutput_isRead_iff hi hk applyArguments_speedServer hdefined true
  have hname : speedServer.handleName (.custom speedOutput) = "V" := rfl
  have htext : "this." ++ "V" = "this.V" := by decide
  have hletter : Text.isWordStart 'V' = true := by decide
  have hword : IsWordText ['V'] :=
    ⟨⟨'V', [], rfl, hletter, by decide, by decide, by decide, by decide⟩,
      List.forall_mem_singleton.2 (Text.isWordChar_of_isWordStart hletter)⟩
  rw [hname, htext] at hread
  exact ⟨i, hi, hk, applyArguments_speedServer, hdefined, hword, hread.2 hword⟩

/-! ## A name that is no word -/

/-- The definition of an attribute whose name has a minus sign. -/
def differenceArguments : Arguments where
  keyword := "AttributeDefinitionList"
  args := ["a-b", "this.Speed"]
  balanced := by decide

/-- The attribute. -/
def differenceDefinition : Attribute :=
  { speedDefinition with name := "a-b" }

theorem readAttributes_difference :
    (serving.readAttributes ⟨0⟩ differenceArguments).Gives [differenceDefinition] := by
  have hread : (serving.readAttribute ⟨0⟩ [] differenceArguments).Gives differenceDefinition := by
    have hname : serving.checkAttributeName ⟨0⟩ "a-b" [] = .ok () :=
      serving_checkAttributeName (by decide) rfl rfl rfl
    refine readAttribute_gives.2 ⟨rfl, hname, _, rfl, ?_⟩
    rw [readDefinition_expression rfl rfl rfl, Logged.gives_ofExcept, expressionAttribute_eq_ok]
    exact ⟨ownSpeed, some .speed, parse?_ownSpeed,
      inferUnit_ownSpeed serving_servesItself.handle?_speed rfl rfl, rfl⟩
  refine Logged.gives_ofInput_bind.2 ⟨[differenceArguments], rfl, ?_⟩
  refine (Logged.Steady.gives_bind fun _ => Logged.steady_pure _).2
    ⟨differenceDefinition, ?_, Logged.gives_pure.2 rfl⟩
  exact Logged.Steady.gives_adapt.2 hread

/-- An attribute is accepted under the name `a-b`, but `this.a-b` is no output. -/
theorem not_forall_definedOutput_isRead :
    ¬ ∀ (w w' : World) (e : EntityId) (a : Arguments) (id : InputId) (i : Input)
        (l : DefinitionList) (o : Handle), Reached .standard w →
      w.input? ⟨e, a.keyword⟩ = some i → i.kind = l.kind →
      (w.applyArguments e a).Gives (w', id) → o ∈ w'.defined e l →
      ∃ exp, Expression.parse? ("this." ++ w'.handleName o) true = .ok exp ∧
        exp.root.IsOwnOutput (w'.handleName o) := by
  intro h
  obtain ⟨i, hi, hk⟩ := serving_definitions
  have hread := h serving _ ⟨0⟩ differenceArguments _ i .attributes (.attribute ⟨0⟩)
    serving_reached hi hk (applyArguments_defined rfl readAttributes_difference) (.head _)
  have hname : (definedServer differenceArguments [differenceDefinition]).handleName
      (.attribute ⟨0⟩) = "a-b" := rfl
  rw [hname, Expression.exists_ownOutput_iff] at hread
  have hminus := hread.all '-' (by decide)
  rw [Token.isWordChar_of_isMark (by decide)] at hminus
  cases hminus

end World

end ModelInputs
