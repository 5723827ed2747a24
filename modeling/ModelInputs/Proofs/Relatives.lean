import ModelInputs.Proofs.Relative.Loosening

/-!
# Relative entities at any time

A keyword whose value is a relative entity is refused if the entity would come to be placed
relative to itself. So however a model has come about from keywords that set inputs of their own
entities, the relative entities of a keyword lead from no entity back to it, also those of entities
that are not registered, and following them always ends.

* `World.RelativesOrdered`: the relative entities of all keywords lead nowhere back;
* `World.OwnStep`, `World.OwnReached`: runs whose keywords set inputs of their own entities;
* **`World.RelativesOrdered.applyArguments`**: what a keyword keeps;
* **`World.relatives_ordered`**: in every world that is reached there are no ways back, and exactly
  the keywords that would make one are refused.
-/

namespace ModelInputs

open Relation (TransGen ReflTransGen)

/-- The classes declare relative inputs without defaults. -/
def Palette.RelativesUnset (p : Palette) : Prop :=
  ∀ className, ∀ i ∈ p.inputs className, i.RelativeUnset

theorem Palette.RelativesUnset.of_classes {p : Palette}
    (h : ∀ c ∈ p.classes, ∀ i ∈ p.inputs c.name, i.RelativeUnset) : p.RelativesUnset := by
  intro className
  cases hc : p.class? className with
  | none =>
    rw [Palette.inputs_eq_nil hc]
    exact fun _ hi => absurd hi List.not_mem_nil
  | some c =>
    obtain ⟨hmem, rfl⟩ := Palette.class?_eq_some_mem hc
    exact h c hmem

namespace World

variable {w w' : World} {e x y : EntityId} {keyword : String}

/-! ## Setting a relative entity -/

/-- The only new way is from the entity that is set to the one that it is set to. -/
theorem relativeTo_assign {k : String} {a b : EntityId}
    (h : (w.updateInput ⟨x, keyword⟩ (Input.assign (.entity y))).RelativeTo k a b) :
    w.RelativeTo k a b ∨ (k = keyword ∧ a = x ∧ b = y) := by
  obtain ⟨i', type, hi', hk, hv⟩ := relativeTo_iff.1 h
  rw [input?_updateInput (f := Input.assign (.entity y)) fun _ => rfl] at hi'
  split at hi'
  · next hid =>
    obtain ⟨rfl, rfl⟩ := InputId.mk.inj hid
    obtain ⟨i, -, rfl⟩ := Option.map_eq_some_iff.1 hi'
    rw [Input.stored_of_relative hk] at hv
    cases hv
    exact .inr ⟨rfl, rfl, rfl⟩
  · exact .inl (relativeTo_iff.2 ⟨i', type, hi', hk, hv⟩)

/-- An entity that is accepted as the relative one does not lead back. -/
theorem not_reflTransGen_of_readRelative (hw : w.RelativesSound keyword) {type : TypeRef}
    {name : String} (h : w.readRelative (some x) keyword type name = .ok y) :
    ¬ ReflTransGen (w.RelativeTo keyword) y x := by
  obtain ⟨-, hfound⟩ := readRelative_eq_ok.1 h
  obtain ⟨found, hsearch, hiff⟩ := hw.leadsTo x y
  rw [hsearch _ (Nat.le_refl _)] at hfound
  obtain rfl := Except.ok.inj hfound
  exact fun hback => Bool.false_ne_true (hiff.2 hback)

/-! ## Ordered relatives -/

/-- Relative inputs have no defaults, and their entities lead from no entity back to it. -/
structure RelativesOrdered (w : World) : Prop where
  palette : w.palette.RelativesUnset
  suited : ∀ id i, w.input? id = some i → i.RelativeSuited
  acyclic : ∀ keyword x, ¬ TransGen (w.RelativeTo keyword) x x

namespace RelativesOrdered

variable (hw : w.RelativesOrdered)
include hw

theorem sound (keyword : String) : w.RelativesSound keyword where
  value x := by
    unfold RelativeTo relativeValue
    split
    · next i hi =>
      split
      · next type hk => exact (hw.suited _ i hi).stored hk
      · exact .inl rfl
    · exact .inl rfl
  acyclic := hw.acyclic keyword

/-- Giving up relative entities makes no way back. -/
theorem loosen (h : w.Loosens w') : w'.RelativesOrdered where
  palette := by
    rw [h.palette_eq]
    exact hw.palette
  suited id i' hi' := by
    obtain hunset | ⟨i, hi, hloose⟩ := h.input id i' hi'
    · exact hunset.suited
    · exact (hw.suited id i hi).loosen hloose
  acyclic keyword x hx :=
    hw.acyclic keyword x (TransGen.mono (fun _ _ hyz => h.relativeTo hw.suited hyz) _ _ hx)

/-- An entity that does not lead back may be set. -/
theorem assign (hback : ¬ ReflTransGen (w.RelativeTo keyword) y x) :
    (w.updateInput ⟨x, keyword⟩ (Input.assign (.entity y))).RelativesOrdered where
  palette := hw.palette
  suited id i' hi' type hk := by
    rw [input?_updateInput (f := Input.assign (.entity y)) fun _ => rfl] at hi'
    split at hi'
    · obtain ⟨i, hi, rfl⟩ := Option.map_eq_some_iff.1 hi'
      exact ⟨(hw.suited id i hi type hk).1, .inr ⟨y, rfl⟩⟩
    · exact hw.suited id i' hi' type hk
  acyclic k := by
    by_cases hk : k = keyword
    · subst hk
      refine acyclic_of_added (hw.acyclic k) (fun a b hab => ?_) hback
      exact (relativeTo_assign hab).imp_right And.right
    · intro a ha
      refine hw.acyclic k a (TransGen.mono (fun b c hbc => ?_) _ _ ha)
      exact (relativeTo_assign hbc).resolve_right fun h => hk h.1

/-- An assignment to an input of an entity that asks for it makes no way back. -/
theorem store {i : Input} {a : Arguments} {assignment : Assignment} {id : InputId}
    (hi : w.input? id = some i) (hown : id.entity = x)
    (h : (w.readKind (some x) i a).Gives assignment) : (w.store id assignment).RelativesOrdered := by
  subst hown
  by_cases hk : ∃ type, i.kind = .relativeEntity type
  · obtain ⟨type, hk⟩ := hk
    simp only [readKind, hk, readArguments] at h
    obtain ⟨v, hv, h⟩ := h.of_bind
    rw [h.of_pure]
    obtain ⟨name, -, hv⟩ := hv.of_bind
    obtain ⟨y, hy, hv⟩ := hv.of_bind
    rw [hv.of_pure]
    have hread := hy.of_ofExcept
    rw [input?_keyword hi] at hread
    exact hw.assign (not_reflTransGen_of_readRelative (hw.sound id.keyword) hread)
  · have hchanges : w.ChangesOnly (· = id) (fun _ => True) (fun _ => True)
        (w.store id assignment) := by
      refine store_changesOnly ?_ (fun _ _ _ => trivial) fun _ _ _ => trivial
      exact rfl
    refine hw.loosen (.of_changesOnly hchanges fun j hj type hj' => hk ⟨type, ?_⟩)
    rwa [Option.some.inj (hi.symm.trans hj)]

/-- **A keyword that sets an input of its own entity makes no way back.** -/
theorem applyArguments {a : Arguments} {id : InputId}
    (hown : (w.target ⟨e, a.keyword⟩).entity = e) (h : (w.applyArguments e a).Gives (w', id)) :
    w'.RelativesOrdered := by
  obtain ⟨-, -, changed, hparse, rfl⟩ := applyArguments_eq_of_gives h
  have hordered : changed.RelativesOrdered := by
    obtain ⟨-, rfl⟩ | ⟨i, assignment, hi, hread, rfl⟩ := parseInput_gives hparse
    · exact hw
    · exact hw.store hi hown hread
  -- the tokens and the mark of an edit are no part of what an input is set to
  exact hordered.loosen (.updateInput fun i => ⟨w.markReceiver_sameDeclaration e a i,
    fun _ _ => .inr ⟨w.isDefault_markReceiver e a i, w.value_markReceiver e a i⟩⟩)

/-- Keywords that set inputs of their own entity make no way back, whether or not one of them is
refused. -/
theorem applyItems (log : List Warning) (done : List InputId) {items : List Arguments}
    (hown : ∀ a ∈ items, (w.target ⟨e, a.keyword⟩).entity = e) :
    (w.applyItems e log done items).world.RelativesOrdered := by
  have hkept : (w.applyItems e log done items).world.RelativesOrdered ∧
      ∀ a ∈ items, ((w.applyItems e log done items).world.target ⟨e, a.keyword⟩).entity = e := by
    refine applyItems_induction (P := fun w => w.RelativesOrdered ∧
      ∀ a ∈ items, (w.target ⟨e, a.keyword⟩).entity = e) ⟨hw, hown⟩ ?_
    rintro w a w' id ha ⟨hw, hown⟩ h
    refine ⟨hw.applyArguments (hown a ha) h, fun a' ha' => ?_⟩
    rw [(applyArguments_gives h).2.1.target_eq]
    exact hown a' ha'
  exact hkept.1

end RelativesOrdered

/-! ## Runs -/

/-- One thing that is done to a model whose keywords set inputs of their own entities: a synonym for
a relative input of another entity would set that one, but be checked for its own. Entities may be
killed and renamed whether or not they are registered. -/
inductive OwnStep : World → World → Prop where
  | create {w w' : World} {e : EntityId} {className name : String} {loose : Bool} :
    w.create? className name loose = .ok (w', e) → OwnStep w w'
  | addInput {w w' : World} {e : EntityId} {i : Input} :
    i.RelativeUnset → w.addInput? e i = .ok w' → OwnStep w w'
  | apply {w : World} {e : EntityId} {items : List Arguments} :
    (∀ a ∈ items, (w.target ⟨e, a.keyword⟩).entity = e) →
    OwnStep w (w.applyItems e [] [] items).world
  | reset {w : World} {id : InputId} : OwnStep w (w.updateInput id Input.reset)
  | kill {w : World} {e : EntityId} : OwnStep w (w.kill e).world
  | rename {w w' : World} {e : EntityId} {name : String} :
    w.rename? e name = .ok w' → OwnStep w w'

/-- The world is reached from an empty one of the classes, by keywords that set inputs of their own
entities. -/
def OwnReached (p : Palette) (w : World) : Prop :=
  ∃ settings recordsEdits,
    ReflTransGen OwnStep { palette := p, settings := settings, recordsEdits := recordsEdits } w

theorem OwnStep.relativesOrdered (h : OwnStep w w') (hw : w.RelativesOrdered) :
    w'.RelativesOrdered := by
  cases h with
  | create h => exact hw.loosen (.create (hw.palette _) h)
  | addInput hi h => exact hw.loosen (.addInput hi h)
  | apply hown => exact hw.applyItems [] [] hown
  | reset => exact hw.loosen (.reset w _)
  | kill => exact hw.loosen (.kill w _)
  | rename h => exact hw.loosen (.rename h)

theorem OwnReached.relativesOrdered {p : Palette} (hp : p.RelativesUnset) (h : OwnReached p w) :
    w.RelativesOrdered := by
  obtain ⟨settings, recordsEdits, h⟩ := h
  induction h with
  | refl =>
    refine ⟨hp, fun _ _ hi => (nomatch hi), fun keyword x hx => ?_⟩
    exact absurd (index_lt_of_transGen hx) (Nat.not_lt_zero _)
  | tail _ hstep ih => exact hstep.relativesOrdered ih

/-! ## What is refused -/

/-- An entity of the class is accepted as the relative one exactly if it does not lead back. -/
theorem RelativesHeld.readRelative (hw : w.RelativesHeld keyword) {type : TypeRef} {name : String}
    (hname : w.findNamed? (some x) name = some y) (hy : w.isInstance y type = true) :
    (ReflTransGen (w.RelativeTo keyword) y x →
      w.readRelative (some x) keyword type name =
        .error (.ofFault (.common .circular [w.nameOf x]))) ∧
    (¬ ReflTransGen (w.RelativeTo keyword) y x →
      w.readRelative (some x) keyword type name = .ok y) := by
  have hentity : w.readEntity? (some x) type name = .ok y := by
    unfold findNamed? at hname
    split at hname
    · next hns =>
      rw [readEntity?, readNamed?, if_pos hns, hname]
      exact if_pos hy
    · cases hname
  obtain ⟨found, hsearch, hiff⟩ := hw.leadsTo x y
  have hread : w.readRelative (some x) keyword type name =
      if found then .error (.ofFault (.common .circular [w.nameOf x])) else .ok y := by
    rw [World.readRelative, hentity]
    show (w.leadsTo keyword (some x) w.entities.length [] y >>= _) = _
    rw [hsearch _ (Nat.le_refl _)]
    cases found with
    | true => rfl
    | false => rfl
  rw [hread, ← hiff]
  exact ⟨fun hfound => if_pos hfound, fun hfound => if_neg hfound⟩

theorem RelativesSound.readRelative (hw : w.RelativesSound keyword) {type : TypeRef} {name : String}
    (hname : w.findNamed? (some x) name = some y) (hy : w.isInstance y type = true) :
    (ReflTransGen (w.RelativeTo keyword) y x →
      w.readRelative (some x) keyword type name =
        .error (.ofFault (.common .circular [w.nameOf x]))) ∧
    (¬ ReflTransGen (w.RelativeTo keyword) y x →
      w.readRelative (some x) keyword type name = .ok y) :=
  hw.held.readRelative hname hy

/-- The keyword of a relative entity is set to the entity that is read. -/
theorem run_applyArguments_relative {i : Input} {type : TypeRef} {a : Arguments} {name : String}
    (hargs : a.args = [name]) (hi : w.input? ⟨x, a.keyword⟩ = some i)
    (hk : i.kind = .relativeEntity type) (log : List Warning) :
    (w.applyArguments x a).run log =
      match w.readRelative (some x) a.keyword type name with
      | .ok y =>
        (.ok ((w.updateInput ⟨x, a.keyword⟩ (Input.assign (.entity y))).updateInput ⟨x, a.keyword⟩
          (w.markReceiver x a), ⟨x, a.keyword⟩), log)
      | .error failure => (.error (w.inKeyword x a failure), log) := by
  have hsingle : a.single? = .ok name := by
    rw [Arguments.single?, Arguments.checkCount, Arguments.count, hargs]
    rfl
  have hrun : (w.readKind (some x) i a).run log =
      ((w.readRelative (some x) a.keyword type name).map fun y => .value (.entity y), log) := by
    have hname : Logged.ofInput (.ok name) = pure name := rfl
    simp only [readKind, hk, readArguments, hsingle, input?_keyword hi, hname, pure_bind]
    cases w.readRelative (some x) a.keyword type name with
    | error failure => rfl
    | ok y => rfl
  rw [run_applyArguments hi (by rw [hk]; rfl), hrun]
  cases w.readRelative (some x) a.keyword type name with
  | error failure => rfl
  | ok y => rfl

/-- An input that is set to an entity, and shown to have received it, has it. -/
theorem relativeTo_of_assign {i : Input} {type : TypeRef} {a : Arguments}
    (hi : w.input? ⟨x, a.keyword⟩ = some i) (hk : i.kind = .relativeEntity type) :
    ((w.updateInput ⟨x, a.keyword⟩ (Input.assign (.entity y))).updateInput ⟨x, a.keyword⟩
      (w.markReceiver x a)).RelativeTo a.keyword x y := by
  have hkind : (w.markReceiver x a (i.assign (.entity y))).kind = .relativeEntity type :=
    ((w.markReceiver_sameDeclaration x a _).kind_eq).trans hk
  refine relativeTo_iff.2 ⟨w.markReceiver x a (i.assign (.entity y)), type, ?_, hkind, ?_⟩
  · rw [input?_updateInput fun j => (w.markReceiver_sameDeclaration x a j).keyword_eq, if_pos rfl,
      input?_updateInput (f := Input.assign (.entity y)) fun _ => rfl, if_pos rfl, hi]
    rfl
  · rw [Input.stored_of_relative hkind, isDefault_markReceiver, value_markReceiver]
    rfl

/-- **Relative entities never lead back, and exactly what would make them is refused**: in every
world that is reached by keywords that set inputs of their own entities, no entity is on any way
placed relative to itself, a walk has at most as many steps as there are entities, the search for a
goal ends with the same answer however many more steps it may take, and the name of an entity of the
class is refused as circular if a walk from that entity passes the one that it is given for, itself
included, and is otherwise what the input is set to. -/
theorem relatives_ordered {p : Palette} (hp : p.RelativesUnset) {w : World} (hw : OwnReached p w)
    (keyword : String) :
    (∀ x, ¬ TransGen (w.RelativeTo keyword) x x) ∧
    (∀ x ys, List.IsChain (w.RelativeTo keyword) (x :: ys) → ys.length ≤ w.entities.length) ∧
    (∀ goal x, ∃ found,
      (∀ n, w.entities.length ≤ n → w.leadsTo keyword (some goal) n [] x = .ok found) ∧
        (found = true ↔ ReflTransGen (w.RelativeTo keyword) x goal)) ∧
    ∀ x y i type name (a : Arguments), w.input? ⟨x, keyword⟩ = some i →
      i.kind = .relativeEntity type → w.findNamed? (some x) name = some y →
      w.isInstance y type = true → a.keyword = keyword → a.args = [name] → ∀ log,
      (ReflTransGen (w.RelativeTo keyword) y x →
        (w.applyArguments x a).run log =
          (.error (.input ⟨.inKeyword (w.nameOf x) keyword (.common .circular [w.nameOf x]),
            a.origin⟩), log)) ∧
      (¬ ReflTransGen (w.RelativeTo keyword) y x →
        ∃ w', (w.applyArguments x a).run log = (.ok (w', ⟨x, keyword⟩), log) ∧
          w'.RelativeTo keyword x y) := by
  have hsound := (hw.relativesOrdered hp).sound keyword
  refine ⟨hsound.acyclic, fun x ys => hsound.length_le, hsound.leadsTo, ?_⟩
  rintro x y i type name a hi hk hname hy rfl hargs log
  obtain ⟨hrefused, haccepted⟩ := hsound.readRelative hname hy
  rw [run_applyArguments_relative hargs hi hk]
  constructor
  · intro hback
    rw [hrefused hback]
    rfl
  · intro hback
    rw [haccepted hback]
    exact ⟨_, rfl, relativeTo_of_assign hi hk⟩

/-- A palette of one class, whose entities are placed relative to one another. -/
def places : Palette where
  classes := [{
    name := "Place"
    parents := ["Entity"]
    inputs := [.make "Beside" "Options" (.relativeEntity (.named "Place"))] }]

/-- A place. -/
def onePlace : World where
  palette := places
  entities := [
    { name := "A", className := "Place", inNamespace := true, inputs := places.inputs "Place" }]
  registry := [("A", ⟨0⟩)]

/-- Two places, of which none is beside the other. -/
def twoPlaces : World where
  palette := places
  entities := [
    { name := "A", className := "Place", inNamespace := true, inputs := places.inputs "Place" },
    { name := "B", className := "Place", inNamespace := true, inputs := places.inputs "Place" }]
  registry := [("A", ⟨0⟩), ("B", ⟨1⟩)]

theorem isBalanced_firstPlace : Record.isBalanced ["A"] = true := by
  decide

theorem isBalanced_secondPlace : Record.isBalanced ["B"] = true := by
  decide

/-- The keyword that puts a place beside the first one. -/
def besideA : Arguments where
  keyword := "Beside"
  args := ["A"]
  balanced := isBalanced_firstPlace

/-- The keyword that puts a place beside the second one. -/
def besideB : Arguments where
  keyword := "Beside"
  args := ["B"]
  balanced := isBalanced_secondPlace

/-- Two places, of which the first is beside the second. -/
def adjacentPlaces : World :=
  (twoPlaces.applyItems ⟨0⟩ [] [] [besideB]).world

theorem places_relativesUnset : places.RelativesUnset := by
  refine .of_classes fun c hc i hi type _ => ?_
  rw [List.mem_singleton.1 hc] at hi
  rw [List.mem_singleton.1 hi]
  exact ⟨rfl, rfl⟩

theorem adjacentPlaces_reached : OwnReached places adjacentPlaces := by
  have hfirst : OwnStep { palette := places } onePlace := by
    have h : create? { palette := places } "Place" "A" = .ok (onePlace, ⟨0⟩) := rfl
    exact .create h
  have hsecond : OwnStep onePlace twoPlaces := by
    have h : onePlace.create? "Place" "B" = .ok (twoPlaces, ⟨1⟩) := rfl
    exact .create h
  have hthird : OwnStep twoPlaces adjacentPlaces := by
    refine .apply fun a ha => ?_
    rw [List.mem_singleton.1 ha]
    rfl
  exact ⟨{}, false, .tail (.tail (.tail .refl hfirst) hsecond) hthird⟩

theorem relatives_ordered_adjacentPlaces :
    ¬ TransGen (adjacentPlaces.RelativeTo "Beside") ⟨0⟩ ⟨0⟩ ∧
      (adjacentPlaces.applyArguments ⟨1⟩ besideA).run [] =
        (.error (.input ⟨.inKeyword "B" "Beside" (.common .circular ["B"]), none⟩), []) := by
  obtain ⟨hacyclic, -, -, hexact⟩ :=
    relatives_ordered places_relativesUnset adjacentPlaces_reached "Beside"
  have hstep : adjacentPlaces.RelativeTo "Beside" ⟨0⟩ ⟨1⟩ := rfl
  refine ⟨hacyclic ⟨0⟩, ?_⟩
  exact (hexact ⟨1⟩ ⟨0⟩ _ _ "A" besideA rfl rfl rfl rfl rfl rfl []).1 (.single hstep)

end World

end ModelInputs
