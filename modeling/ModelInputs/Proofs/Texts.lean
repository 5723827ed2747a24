import ModelInputs.Input.Text
import ModelInputs.Proofs.Change.Reading
import ModelInputs.Proofs.Integrity
import ModelInputs.Proofs.Relative.Walk
import ModelInputs.Proofs.Run.Current
import ModelInputs.Proofs.Unit.Chains

/-!
# The text of references

An input is shown by the tokens that it was set by, whatever becomes of the entities that they name.
So its text is refused, or gives another value, once an entity has a new name or is gone, or a group
has other members. The text of an input that refers to entities reads back to its value exactly as
long as its tokens denote that value, as they do when a keyword has set it.

* `World.ReadsBack`: a text is accepted by an input, and leaves its value;
* `World.readsBack_iff`: it does so exactly if its tokens denote the value;
* `World.Denotes.of_changesOnly`: what arguments denote is not changed by setting the input;
* `World.readsBack_applied`: a keyword that is applied reads back;
* **`World.readsBack_of_tokensCurrent`**: so does the text of a single entity, without new names;
* **`World.valueText_readsBack`**: the text of an input at any time, and once it is set;
* **`World.valueText_renamed`**: a text that is refused.
-/

namespace ModelInputs

open Record (tokenize formatTokens)

namespace World

/-- No unit type is asked for of the value, or the output that has it is no input, whose unit type
might change as inputs are set. -/
def UnitIsDeclared (kind : InputKind) (v : Value) : Prop :=
  ∀ unit c id, kind = .output (some unit) → v = .chain c → c.firstHandle ≠ .input id

/-- The tokens of the text are accepted by the input, and leave the value that applies. -/
def ReadsBack (w : World) (id : InputId) (text : String) : Prop :=
  ∃ a w', a.keyword = id.keyword ∧ a.args = tokenize text ∧
    (w.parseInput (some id.entity) id a).Gives w' ∧
    (w'.input? id).map (·.stored) = (w.input? id).map (·.stored)

variable {w w' : World} {id : InputId} {i : Input} {a : Arguments} {v : Value}

/-! ## Texts that read back -/

/-- **A text reads back exactly if its tokens denote the value.** -/
theorem readsBack_iff (hw : w.Integral) (hid : id.entity ∈ w.registered)
    (hi : w.input? id = some i) (hk : i.kind.isReference = true) {s : String} :
    w.ReadsBack id s ↔
      ∃ a, a.keyword = id.keyword ∧ a.args = tokenize s ∧ w.Denotes id a i.kind i.stored := by
  have hdenoted : (⟨id.entity, i.keyword⟩ : InputId) = id := by rw [input?_keyword hi]
  have hparse (a : Arguments) : w.parseInput (some id.entity) id a = _ :=
    parseInput_eq hi (InputKind.target?_of_isReference hk)
  have hstored (v : Value) : ((w.store id (.value v)).input? id).map (·.stored) = some v := by
    rw [input?_store, if_pos rfl, hi]
    exact congrArg some (i.stored_assign v)
  constructor
  · rintro ⟨a, w', hkeyword, hargs, h, hsame⟩
    rw [hparse] at h
    obtain ⟨assignment, hread, h⟩ := h.of_bind
    obtain ⟨v, hv, rfl⟩ := (gives_readKind_iff hk).1 hread
    rw [h.of_pure, hstored, hi, Option.map_some] at hsame
    cases hsame
    exact ⟨a, hkeyword, hargs, hdenoted ▸ denotes_of_gives hk hv⟩
  · rintro ⟨a, hkeyword, hargs, hdenotes⟩
    rw [← hdenoted] at hdenotes
    have hgives := gives_of_denotes (hw.wellFormed.hasNamespace hid) (hw.holds id i hid hi).value
      hdenotes
    obtain ⟨log, log', hread⟩ := (gives_readKind_iff hk).2 ⟨i.stored, hgives, rfl⟩
    refine ⟨a, w.store id (.value i.stored), hkeyword, hargs, ⟨log, log', ?_⟩, ?_⟩
    · rw [hparse]
      exact Logged.run_bind hread
    · rw [hstored, hi]
      rfl

/-! ## Texts of values -/

theorem namesText_ofEntities (w : World) (es : List EntityId) :
    w.namesText (.ofEntities es) = .ok (" ".intercalate (es.map w.nameOf)) := by
  have hnames : (es.map Value.entity).mapM w.nameIn = .ok (es.map w.nameOf) :=
    mapM_map_eq_ok (f := w.nameIn) (r := w.nameOf) (fun _ => rfl) es
  rw [namesText, Value.ofEntities, Value.members_list, ok_bind, hnames]
  rfl

/-- A value that arguments give can be shown. -/
theorem exists_textOf (hfits : i.kind.Fits v) (hk : i.kind.isReference = true) :
    ∃ s, w.textOf i v = .ok s := by
  unfold textOf
  generalize i.kind = kind at hfits hk
  cases hfits with
  | @entities _ _ _ es | @interfaceEntities _ _ _ es => exact ⟨_, w.namesText_ofEntities es⟩
  | @entityLists _ _ _ lists =>
    have htexts := mapM_map_eq_ok w.namesText_ofEntities lists
    refine ⟨bracedAll (lists.map fun es => " ".intercalate (es.map w.nameOf)), ?_⟩
    show (do return bracedAll (← (← (Value.ofEntityLists lists).members).mapM w.namesText)) = _
    rw [Value.ofEntityLists, Value.members_list, ok_bind, htexts]
    rfl
  | entity | interfaceEntity | relativeEntity | keyword | chain => exact ⟨_, rfl⟩
  | _ => cases hk

/-- The text of an input that is set is that of its tokens, or of its value. -/
theorem valueText_eq (hk : i.kind.isReference = true) (hset : i.isDefault = false) :
    w.valueText i = match i.tokens with
      | some ts => .ok (formatTokens ts)
      | none => w.textOf i i.value := by
  unfold valueText
  rw [hset, if_neg Bool.false_ne_true]
  split
  · next hkind =>
    rw [hkind] at hk
    cases hk
  · next hnone _ => rw [hnone]
  · next hsome _ => rw [hsome]

/-! ## Setting an input -/

/-- A walk reads no value of its goal. -/
theorem leadsTo_congr {keyword : String} {goal : Option EntityId}
    (h : ∀ e, some e ≠ goal → w'.relativeValue keyword e = w.relativeValue keyword e) (n : Nat)
    (seen : List EntityId) (e : EntityId) :
    w'.leadsTo keyword goal n seen e = w.leadsTo keyword goal n seen e := by
  induction n generalizing seen e with
  | zero => rfl
  | succ n ih =>
    rw [leadsTo, leadsTo]
    by_cases he : some e = goal
    · rw [if_pos (beq_iff_eq.2 he), if_pos (beq_iff_eq.2 he)]
    · rw [h e he]
      simp only [ih]

section

variable (hchanges : w.ChangesOnly (· = id) (fun _ => False) (fun _ => False) w')

include hchanges

variable (hw : w.Integral)

include hw

/-- A name stands for what it stood for before an input was set, unless that is the list of the
group of that name, in which names stand for groups themselves. -/
theorem StandsFor.of_changesOnly {type : TypeRef}
    (hlist : ∀ g, id = ⟨g, "List"⟩ → g ∈ w.registered → w.isInstance g groupType = true →
      groupType.isSubtype w.palette.ancestors type = true)
    {name : String} {es : List EntityId} (h : w.StandsFor type name es) :
    w'.StandsFor type name es := by
  obtain ⟨g, hname, hexpand⟩ := h
  refine ⟨g, (hchanges.named?_eq _).trans hname, ?_⟩
  have hg := mem_registered_of_named? hname
  rw [← hexpand, expand, expand, hchanges.isInstance_eq, hchanges.palette_eq]
  split
  · next hgroup =>
    obtain ⟨hgroup, hsub⟩ := Bool.and_eq_true_iff.1 hgroup
    have hne : ⟨g, "List"⟩ ≠ id := by
      rintro rfl
      rw [hlist g rfl hg hgroup] at hsub
      cases hsub
    obtain ⟨i, hi, type', unique, counts, hk, -⟩ := hw.groups g hg hgroup
    have hi' : w'.input? ⟨g, "List"⟩ = some i := (hchanges.input?_eq hne).trans hi
    have hk' : i.kind.target? = none := by
      rw [hk]
      rfl
    rw [members, members, valueOf, valueOf, target_eq_self hi hk', target_eq_self hi' hk', hi, hi']
  · rfl

/-- **What arguments denote stays when the input is set.** -/
theorem Denotes.of_changesOnly (hi : w.input? id = some i) (hunit : UnitIsDeclared i.kind v)
    (h : w.Denotes id a i.kind v) :
    w'.Denotes id a i.kind v := by
  have hnamed := hchanges.named?_eq
  have hgroup {g : EntityId} (hid : id = ⟨g, "List"⟩) (hg : g ∈ w.registered)
      (hinstance : w.isInstance g groupType = true) : w.palette.ListsGroups i.kind := by
    obtain ⟨j, hj, hlists⟩ := hw.groups g hg hinstance
    rw [← hid, hi] at hj
    rwa [Option.some.inj hj]
  generalize i.kind = kind at hunit h hgroup
  cases h with
  | entity hargs hname => exact .entity hargs ((hnamed _).trans hname)
  | interfaceEntity hargs hname => exact .interfaceEntity hargs ((hnamed _).trans hname)
  | relativeEntity hargs hname hback =>
    refine .relativeEntity hargs ((hnamed _).trans hname) ?_
    rw [hchanges.length_eq, leadsTo_congr _ _ _ _]
    · exact hback
    · intro e he
      have hne : (⟨e, id.keyword⟩ : InputId) ≠ id := fun heq => he (by rw [← heq])
      rw [relativeValue, relativeValue, hchanges.input?_eq hne]
  | @entities type unique counts parts hparts hleast hmost =>
    refine .entities (hparts.imp fun _ _ => StandsFor.of_changesOnly hchanges hw ?_) hleast hmost
    intro g hid hg hinstance
    obtain ⟨_, _, _, ⟨⟩, hsub⟩ := hgroup hid hg hinstance
    exact hsub
  | interfaceEntities hcounts hes =>
    exact .interfaceEntities hcounts (hes.imp fun _ _ hname => (hnamed _).trans hname)
  | entityLists hgroups hlists hleast hmost =>
    refine .entityLists hgroups (hlists.imp fun group es hes => ?_) hleast hmost
    obtain ⟨parts, hparts, rfl⟩ := hes
    refine ⟨parts, hparts.imp fun _ _ => StandsFor.of_changesOnly hchanges hw ?_, rfl⟩
    intro g hid hg hinstance
    obtain ⟨_, _, _, ⟨⟩, -⟩ := hgroup hid hg hinstance
  | keyword hargs hname hinput =>
    exact .keyword hargs ((hnamed _).trans hname) ((hchanges.isSome_input?_eq _).trans hinput)
  | @output unit rootName c hnames hempty hname hhandle hfollowed hdeclared =>
    refine .output hnames hempty ((hnamed _).trans hname) ?_ ?_ fun hsingle u hu => ?_
    · exact (hchanges.handle?_eq (fun _ => not_false) (fun _ => not_false) ..).trans hhandle
    · exact (hchanges.checkFollowed_eq (fun _ => not_false) ..).trans hfollowed
    · have hsame := hdeclared hsingle u hu
      rw [chainUnit_of_single hsingle] at hsame ⊢
      rw [hchanges.unit_eq (fun _ => not_false) fun id' hinput => ?_]
      · exact hsame
      · exact absurd hinput (hunit u c id' (by rw [hu]) rfl)

end

/-- **A keyword that sets its own input reads back**, if its tokens come back from their text. -/
theorem readsBack_applied (hw : w.Integral) (hnames : w.TokensNamed)
    (hid : id.entity ∈ w.registered) (hi : w.input? id = some i) (hk : i.kind.isReference = true)
    (htokens : i.kind.namesEntities = true ∨ tokenize (formatTokens a.args) = a.args)
    (hkeyword : a.keyword = id.keyword)
    (hkept : (a.args.length : Int) ≤ w.settings.maxStoredTokens)
    (h : (w.applyArguments id.entity a).Gives (w', id)) :
    ∃ i', w'.input? id = some i' ∧ w'.valueText i' = .ok (formatTokens a.args) ∧
      (UnitIsDeclared i.kind i'.stored → w'.ReadsBack id (formatTokens a.args)) := by
  have hw' := hw.applyArguments h
  have hkinds := (applyArguments_gives h).2.1
  have hid' : id.entity ∈ w'.registered := by rwa [registered, hkinds.registry_eq]
  obtain ⟨i', hi', hkind⟩ : ∃ i', w'.input? id = some i' ∧ i'.kind = i.kind := by
    have hkind := hkinds.kind_eq id
    rw [hi, Option.map_some] at hkind
    exact Option.map_eq_some_iff.1 hkind
  have hk' := hkind ▸ hk
  obtain ⟨j, v, hj, -, hdenotes, rfl, hset, hremembered, hchanges⟩ :=
    applyArguments_receiver h hi' hk'
  cases hi.symm.trans hj
  rw [input?_keyword hi] at hdenotes
  have hback : tokenize (formatTokens a.args) = a.args := by
    refine htokens.elim (fun hk => ?_) fun h => h
    refine tokenize_formatTokens_of_names fun t ht => (hdenotes.names hk ht).imp_right ?_
    rintro ⟨y, hy⟩
    exact hnames.names t (List.mem_map_of_mem (mem_registry_of_named? hy))
  refine ⟨i', hi', ?_, fun hunit => ?_⟩
  · rw [valueText_eq hk' hset, hremembered, if_neg (Int.not_lt.2 hkept)]
  · refine (readsBack_iff hw' hid' hi' hk').2 ⟨a, hkeyword, hback.symm, ?_⟩
    rw [hkind]
    exact hdenotes.of_changesOnly hchanges hw hi hunit

/-! ## Single entities -/

/-- Tokens by which the entity of an input is found read back. -/
theorem readsBack_of_finds (hw : w.Integral) (hid : id.entity ∈ w.registered)
    (hi : w.input? id = some i) (hk : i.kind.isSingle = true) (hset : i.isDefault = false)
    (hrelative : ∀ type, i.kind = .relativeEntity type → w.RelativesSound id.keyword)
    {s : String} (hbalanced : Record.isBalanced (tokenize s) = true)
    (h : w.Finds (tokenize s) i.stored) : w.ReadsBack id s := by
  refine (readsBack_iff hw hid hi (InputKind.isReference_of_isSingle hk)).2
    ⟨⟨id.keyword, tokenize s, none, hbalanced⟩, rfl, rfl, ?_⟩
  have hfits : i.kind.Fits i.stored := by
    rw [Input.stored_of_isSet hset]
    exact (hw.wellFormed.suited hi).fits (.inr hset)
  refine Finds.denotes hk hfits (fun type y hkind hstored => ?_) h
  exact (hrelative type hkind).leadsTo_eq_false (relativeTo_iff.2 ⟨i, type, hi, hkind, hstored⟩)

/-- A single entity is shown by its name. -/
theorem textOf_of_isSingle (hfits : i.kind.Fits v) (hk : i.kind.isSingle = true)
    (hne : i.kind ≠ .keyword) : ∃ y, v = .entity y ∧ w.textOf i v = .ok (w.nameOf y) := by
  unfold textOf
  generalize i.kind = kind at hfits hk hne
  cases hfits with
  | entity | interfaceEntity | relativeEntity => exact ⟨_, rfl, rfl⟩
  | keyword => exact absurd rfl hne
  | _ => cases hk

/-- The name of the entity, under which it is registered, reads back. -/
theorem readsBack_nameOf (hw : w.Integral) (hnames : w.TokensNamed) (hid : id.entity ∈ w.registered)
    (hi : w.input? id = some i) (hk : i.kind.isSingle = true) (hset : i.isDefault = false)
    (hrelative : ∀ type, i.kind = .relativeEntity type → w.RelativesSound id.keyword)
    {y : EntityId} (hstored : i.stored = .entity y) : w.ReadsBack id (w.nameOf y) := by
  have hmention : y ∈ i.stored.mentions := by
    rw [hstored]
    exact .head _
  obtain ⟨name, hmem⟩ := mem_registered.1 (hw.mem_registered hid hi hmention)
  rw [hw.wellFormed.name_eq hmem]
  have hvalid := hnames.names name (List.mem_map_of_mem hmem)
  have hback := tokenize_of_isValidName hvalid
  refine readsBack_of_finds hw hid hi hk hset hrelative ?_ ?_
  · rw [hback]
    exact isBalanced_of_isValidName hvalid
  · rw [hback, hstored]
    exact .entity (hw.wellFormed.named?_eq_some.2 hmem)

/-- **Without new names the text of an input that refers to one entity reads back.** -/
theorem readsBack_of_tokensCurrent (hw : w.Integral) (hnames : w.TokensNamed)
    (hcurrent : w.TokensCurrent) (hid : id.entity ∈ w.registered) (hi : w.input? id = some i)
    (hk : i.kind.isSingle = true) (hset : i.isDefault = false)
    (hrelative : ∀ type, i.kind = .relativeEntity type → w.RelativesSound id.keyword)
    {s : String} (hs : w.valueText i = .ok s)
    (hkeyword : i.kind = .keyword → ∃ ts, i.tokens = some ts ∧ tokenize s = ts) :
    w.ReadsBack id s := by
  rw [valueText_eq (InputKind.isReference_of_isSingle hk) hset] at hs
  cases htokens : i.tokens with
  | some ts =>
    rw [htokens] at hs
    cases hs
    obtain ⟨hbalanced, hfinds⟩ := hcurrent id i hid hi hk ts htokens
    have hback : tokenize (formatTokens ts) = ts := by
      by_cases hkind : i.kind = .keyword
      · obtain ⟨_, hsome, hback⟩ := hkeyword hkind
        rw [htokens] at hsome
        cases hsome
        exact hback
      · refine tokenize_formatTokens_of_names (hnames.tokens id i hi ?_ ts htokens)
        exact InputKind.namesEntities_of_isSingle hk hkind
    exact readsBack_of_finds hw hid hi hk hset hrelative (by rwa [hback]) (by rwa [hback])
  | none =>
    have hne : i.kind ≠ .keyword := by
      intro hkind
      obtain ⟨_, hsome, -⟩ := hkeyword hkind
      rw [htokens] at hsome
      cases hsome
    rw [htokens] at hs
    obtain ⟨y, hy, htext⟩ :=
      textOf_of_isSingle ((hw.wellFormed.suited hi).fits (.inr hset)) hk hne (w := w)
    cases htext.symm.trans hs
    exact readsBack_nameOf hw hnames hid hi hk hset hrelative
      ((Input.stored_of_isSet hset).trans hy)

/-! ## The texts of inputs -/

/-- **The text of an input reads back exactly as long as it denotes the value.** In every world that
is reached, an input that refers to entities and is not at its default has a text, which is that of
the tokens that it was last set by, if it keeps them; these come back from the text, if they are
names alone. The text is accepted by the input and leaves its value if and only if its tokens denote
the value as names are now. They do as long as no entity was given another name, if the input refers
to one entity, or to an input of one; and they do once a keyword has set the input that it names, if
its tokens come back from their text and any unit type that is asked for was declared. -/
theorem valueText_readsBack {p : Palette} (hp : p.IsPlain) (hg : p.HasGroups) {w : World}
    (hw : Reached p w) {id : InputId} (hid : id.entity ∈ w.registered) {i : Input}
    (hi : w.input? id = some i) (hk : i.kind.isReference = true) :
    (i.isDefault = false → ∃ s, w.valueText i = .ok s ∧
      (∀ ts, i.tokens = some ts →
        s = formatTokens ts ∧ (i.kind.namesEntities = true → tokenize s = ts)) ∧
      (w.ReadsBack id s ↔
        ∃ a, a.keyword = id.keyword ∧ a.args = tokenize s ∧ w.Denotes id a i.kind i.stored) ∧
      (SteadyReached p w → i.kind.isSingle = true →
        (∀ type, i.kind = .relativeEntity type → w.RelativesSound id.keyword) →
        (i.kind = .keyword → ∃ ts, i.tokens = some ts ∧ tokenize s = ts) → w.ReadsBack id s)) ∧
    ∀ a w', a.keyword = id.keyword →
      (i.kind.namesEntities = true ∨ tokenize (formatTokens a.args) = a.args) →
      (a.args.length : Int) ≤ w.settings.maxStoredTokens →
      (w.applyArguments id.entity a).Gives (w', id) →
      ∃ i', w'.input? id = some i' ∧ w'.valueText i' = .ok (formatTokens a.args) ∧
        (UnitIsDeclared i.kind i'.stored → w'.ReadsBack id (formatTokens a.args)) := by
  have hintegral := hw.integral hp hg
  have hnames := hw.tokensNamed hp
  refine ⟨fun hset => ?_, fun a w' hkeyword htokens hkept h =>
    readsBack_applied hintegral hnames hid hi hk htokens hkeyword hkept h⟩
  have htext : ∃ s, w.valueText i = .ok s := by
    rw [valueText_eq hk hset]
    split
    · exact ⟨_, rfl⟩
    · exact exists_textOf ((hintegral.wellFormed.suited hi).fits (.inr hset)) hk
  obtain ⟨s, hs⟩ := htext
  refine ⟨s, hs, fun ts hts => ?_, readsBack_iff hintegral hid hi hk,
    fun hsteady hsingle hrelative hkeyword => readsBack_of_tokensCurrent hintegral hnames
      (hsteady.tokensCurrent hp) hid hi hsingle hset hrelative hs hkeyword⟩
  rw [valueText_eq hk hset, hts] at hs
  cases hs
  exact ⟨rfl, fun hk => tokenize_formatTokens_of_names (hnames.tokens id i hi hk ts hts)⟩

/-- The keyword that makes the node the next one. -/
def nextA : Arguments :=
  { listA with keyword := "Next" }

/-- A node with an input for the next one. -/
def nodeWithNext : World :=
  loneNode.updateEntity ⟨0⟩ fun x =>
    { x with inputs := x.inputs ++ [.make "Next" "Options" (.entity (.named "Node"))] }

/-- A node that is the next one itself. -/
def ownNext : World :=
  (nodeWithNext.applyItems ⟨0⟩ [] [] [nextA]).world

theorem ownNext_steadyReached : SteadyReached groupsAndNodes ownNext := by
  have hcreate : SteadyStep { palette := groupsAndNodes } loneNode := by
    have h : create? { palette := groupsAndNodes } "Node" "A" = .ok (loneNode, ⟨0⟩) := rfl
    exact .create h
  have hadd : SteadyStep loneNode nodeWithNext := by
    have h : loneNode.addInput? ⟨0⟩ (.make "Next" "Options" (.entity (.named "Node"))) =
        .ok nodeWithNext := rfl
    exact .addInput (Input.isNew_make _ _ rfl rfl) h
  have happly : SteadyStep nodeWithNext ownNext := by
    refine .apply fun a ha => ?_
    rw [List.mem_singleton.1 ha]
    rfl
  exact ⟨{}, false, .tail (.tail (.tail .refl hcreate) hadd) happly⟩

/-- The node whose neighbours are set to the members of the group, and the one that is the next one
itself. -/
theorem valueText_readsBack_nodes :
    (∃ i, neighbourOfGroup.input? ⟨⟨0⟩, "Neighbours"⟩ = some i ∧
      i.isDefault = false ∧ i.stored = .ofEntities [⟨0⟩] ∧
      neighbourOfGroup.valueText i = .ok "G" ∧
      neighbourOfGroup.ReadsBack ⟨⟨0⟩, "Neighbours"⟩ "G" ∧
      ∃ a, a.keyword = "Neighbours" ∧ a.args = tokenize "G" ∧
        neighbourOfGroup.Denotes ⟨⟨0⟩, "Neighbours"⟩ a i.kind i.stored) ∧
    ∃ i, ownNext.input? ⟨⟨0⟩, "Next"⟩ = some i ∧ ownNext.valueText i = .ok "A" ∧
      ownNext.ReadsBack ⟨⟨0⟩, "Next"⟩ "A" := by
  have hplain := groupsAndNodes_isPlain
  have hgroups := groupsAndNodes_hasGroups
  have hbefore : (InputId.mk ⟨0⟩ "Neighbours").entity ∈ groupedNode.registered := by
    have hregistered : groupedNode.registered = [⟨0⟩, ⟨1⟩] := rfl
    exact hregistered ▸ .head _
  have hafter : (InputId.mk ⟨0⟩ "Neighbours").entity ∈ neighbourOfGroup.registered := by
    have hregistered : neighbourOfGroup.registered = [⟨0⟩, ⟨1⟩] := rfl
    exact hregistered ▸ .head _
  have hnext : (InputId.mk ⟨0⟩ "Next").entity ∈ ownNext.registered := by
    have hregistered : ownNext.registered = [⟨0⟩] := rfl
    exact hregistered ▸ .head _
  have hset : (groupedNode.applyArguments ⟨0⟩ neighboursG).Gives
      (neighbourOfGroup, ⟨⟨0⟩, "Neighbours"⟩) := ⟨[], [], rfl⟩
  obtain ⟨_, -, -, hback⟩ := (valueText_readsBack hplain hgroups groupedNode_reached hbefore
    rfl rfl).2 neighboursG neighbourOfGroup rfl (.inl rfl) (by decide) hset
  obtain ⟨s, hs, -, hiff, -⟩ := (valueText_readsBack hplain hgroups neighbourOfGroup_reached hafter
    rfl rfl).1 rfl
  obtain ⟨s', hs', -, -, hsteady⟩ := (valueText_readsBack hplain hgroups
    ownNext_steadyReached.reached hnext rfl rfl).1 rfl
  obtain rfl := Except.ok.inj hs
  obtain rfl := Except.ok.inj hs'
  have hback' := hback fun _ _ _ => nofun
  refine ⟨⟨_, rfl, rfl, rfl, rfl, hback', hiff.1 hback'⟩, _, rfl, rfl, ?_⟩
  exact hsteady ownNext_steadyReached rfl (fun _ => nofun) nofun

/-- The keyword that makes the node its own neighbour. -/
def neighboursA : Arguments :=
  { listA with keyword := "Neighbours" }

/-- A node that is its own neighbour. -/
def ownNeighbour : World :=
  (loneNode.applyItems ⟨0⟩ [] [] [neighboursA]).world

/-- The node with a new name. -/
def renamedNeighbour : World :=
  ({ ownNeighbour with registry := [("B", ⟨0⟩)] } : World).updateEntity ⟨0⟩ fun x =>
    { x with name := "B" }

/-- A node that is its own neighbour gets a new name: its neighbours are shown by the old one, which
is refused. -/
theorem valueText_renamed :
    ownNeighbour.rename? ⟨0⟩ "B" = .ok renamedNeighbour ∧
      Reached groupsAndNodes renamedNeighbour ∧ ⟨0⟩ ∈ renamedNeighbour.registered ∧
      ∃ i, renamedNeighbour.input? ⟨⟨0⟩, "Neighbours"⟩ = some i ∧
        i.kind = .entities (.named "Node") true {} ∧ i.isDefault = false ∧
        renamedNeighbour.valueText i = .ok "A" ∧
        ¬ renamedNeighbour.ReadsBack ⟨⟨0⟩, "Neighbours"⟩ "A" := by
  have hcreate : create? { palette := groupsAndNodes } "Node" "A" = .ok (loneNode, ⟨0⟩) := rfl
  have hrename : ownNeighbour.rename? ⟨0⟩ "B" = .ok renamedNeighbour := rfl
  have hbefore : ownNeighbour.registered = [⟨0⟩] := rfl
  have hafter : renamedNeighbour.registered = [⟨0⟩] := rfl
  have hreached : Reached groupsAndNodes renamedNeighbour :=
    ⟨{}, false, .tail (.tail (.tail .refl (.create hcreate)) .apply)
      (.rename (hbefore ▸ .head _) hrename)⟩
  have hid : (InputId.mk ⟨0⟩ "Neighbours").entity ∈ renamedNeighbour.registered := hafter ▸ .head _
  refine ⟨hrename, hreached, hid, _, rfl, rfl, rfl, rfl, fun hback => ?_⟩
  obtain ⟨a, -, hargs, hdenotes⟩ := (readsBack_iff
    (hreached.integral groupsAndNodes_isPlain groupsAndNodes_hasGroups) hid rfl rfl).1 hback
  have hbrace : ¬ Record.isBrace "A" = true := by decide
  have hname : "A" ∈ a.args := by
    rw [hargs]
    decide
  obtain ⟨y, hy⟩ := (hdenotes.names rfl hname).resolve_left hbrace
  cases hy

end World

end ModelInputs
