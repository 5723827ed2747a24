import ModelInputs.Proofs.Change.Frame
import ModelInputs.Proofs.Outcome

/-!
# What applying a keyword changes

A keyword that is refused leaves the world as it was. One that is accepted changes the input that
receives it, or for a synonym the inputs along the chain of its targets; and definitions change the
table of attributes or custom outputs of the entity that they are applied to.

* `World.Receives`: the inputs that the arguments of a keyword reach;
* `World.EndsAt`: the kind of the input at the end of a chain of synonyms;
* `World.readKind_gives`: the assignment suits the kind of the input;
* `InputKind.holdsValue`, `World.readKind_value`: inputs that are set to a value;
* `World.KeywordChanges`, `World.KeywordReceived`: what a keyword may change, and what it sets;
* **`World.applyItems_atomic`**: a keyword changes nothing, or nothing but what receives it;
* **`World.applyItems_keywordsChange`**: a record changes nothing but what receives its keywords.
-/

namespace ModelInputs

/-- The assignments that arguments make to an input of a kind, for an entity: definitions are for
the entity that asks for them, and only a keyword that is no longer used assigns nothing. -/
inductive Assignment.Suits : Option EntityId → InputKind → Assignment → Prop where
  | value {this : Option EntityId} {kind : InputKind} {v : Value} : Suits this kind (.value v)
  | keyLists {this : Option EntityId} {keyType valueType : TypeRef} {keyless : List EntityId}
    {lists : KeyLists} : Suits this (.keyLists keyType valueType keyless) (.keyLists lists)
  | attributes {e : EntityId} {definitions : List Attribute} :
    Suits (some e) .attributes (.attributes e definitions)
  | customOutputs {e : EntityId} {outputs : List CustomOutput} :
    Suits (some e) .customOutputs (.customOutputs e outputs)
  | nothing {this : Option EntityId} {advice : String} :
    Suits this (.deprecated advice false) .nothing

/-- The kinds of inputs that are set to the value that their arguments give. -/
def InputKind.holdsValue : InputKind → Bool
  | keyLists .. | attributes | customOutputs | deprecated .. => false
  | _ => true

namespace World

/-! ## Receivers -/

/-- The inputs that the arguments of a keyword reach: its own input, or for a synonym the inputs
along the chain of its targets. -/
inductive Receives (w : World) : InputId → InputId → Prop where
  | self {id : InputId} : (w.input? id).bind (·.kind.target?) = none → Receives w id id
  | target {id target : InputId} :
    (w.input? id).bind (·.kind.target?) = some target → Receives w id target
  | further {id target id' : InputId} :
    (w.input? id).bind (·.kind.target?) = some target → Receives w target id' → Receives w id id'

/-- The keyword stands for an input of that kind: its own, or the last one of a chain of
synonyms. -/
def EndsAt (w : World) (id : InputId) (kind : InputKind) : Prop :=
  ∃ i, w.input? (w.target id) = some i ∧ i.kind = kind

variable {w : World}

theorem inputCount_pos {id : InputId} {i : Input} (h : w.input? id = some i) :
    0 < w.inputCount := by
  obtain ⟨x, hx, hi⟩ := Option.bind_eq_some_iff.1 h
  have hpos : 0 < x.inputs.length := List.length_pos_of_mem (List.mem_of_find?_eq_some hi)
  have hmem : x.inputs.length ∈ w.entities.map (·.inputs.length) :=
    List.mem_map_of_mem (List.mem_of_getElem? hx)
  rw [inputCount, List.length_flatMap]
  exact List.sum_pos_iff_exists_pos_nat.2 ⟨_, hmem, hpos⟩

theorem receives_targetWithin (n : Nat) {id target : InputId}
    (h : (w.input? id).bind (·.kind.target?) = some target) :
    w.Receives id (w.targetWithin n target) := by
  induction n generalizing id target with
  | zero => exact .target h
  | succ n ih =>
    cases ht : (w.input? target).bind (·.kind.target?) with
    | none =>
      rw [targetWithin, ht]
      exact .target h
    | some next =>
      rw [targetWithin, ht]
      exact .further h (ih ht)

theorem receives_target (id : InputId) : w.Receives id (w.target id) := by
  unfold World.target
  cases h : (w.input? id).bind (·.kind.target?) with
  | none =>
    cases w.inputCount with
    | zero => exact .self h
    | succ n =>
      rw [targetWithin, h]
      exact .self h
  | some target =>
    obtain ⟨i, hi, -⟩ := Option.bind_eq_some_iff.1 h
    obtain ⟨n, hn⟩ := Nat.exists_eq_succ_of_ne_zero (Nat.ne_of_gt (inputCount_pos hi))
    rw [hn, targetWithin, h]
    exact receives_targetWithin n h

theorem targetWithin_eq_self (n : Nat) {id : InputId}
    (h : (w.input? id).bind (·.kind.target?) = none) : w.targetWithin n id = id := by
  cases n with
  | zero => rfl
  | succ n => rw [targetWithin, h]

/-- An input that is no synonym is its own target. -/
theorem target_eq_self {id : InputId} {i : Input} (hi : w.input? id = some i)
    (hk : i.kind.target? = none) : w.target id = id :=
  targetWithin_eq_self _ (by rw [hi, Option.bind_some, hk])

/-- The input that is shown to receive a keyword is the one that is set, if it is no synonym. -/
theorem target_eq_receiver {id : InputId}
    (h : (w.input? (w.receiver id)).bind (·.kind.target?) = none) :
    w.target id = w.receiver id := by
  unfold receiver at *
  cases ht : (w.input? id).bind (·.kind.target?) with
  | none => exact targetWithin_eq_self _ ht
  | some target =>
    rw [ht, Option.getD_some] at h
    obtain ⟨i, hi, -⟩ := Option.bind_eq_some_iff.1 ht
    obtain ⟨n, hn⟩ := Nat.exists_eq_succ_of_ne_zero (Nat.ne_of_gt (inputCount_pos hi))
    rw [World.target, hn, targetWithin, ht]
    exact targetWithin_eq_self n h

theorem receives_receiver (id : InputId) : w.Receives id (w.receiver id) := by
  unfold receiver
  cases h : (w.input? id).bind (·.kind.target?) with
  | none => exact .self h
  | some target => exact .target h

/-! ## Reading assignments -/

variable {this : Option EntityId} {a : Arguments}

theorem requireEntity_gives {keyword : String} {e : EntityId}
    (h : (requireEntity this keyword).Gives e) : this = some e := by
  cases this with
  | none => exact absurd h Logged.not_gives_throw
  | some e' => rw [h.of_pure]

/-- Arguments make an assignment that suits the input. -/
theorem readKind_gives {i : Input} {assignment : Assignment}
    (h : (w.readKind this i a).Gives assignment) : assignment.Suits this i.kind := by
  unfold readKind at h
  split at h
  · next hk =>
    obtain ⟨lists, -, h₁⟩ := h.of_bind
    obtain ⟨edited, -, h₂⟩ := h₁.of_bind
    rw [h₂.of_pure, hk]
    exact .keyLists
  · next hk =>
    obtain ⟨e, he, h₁⟩ := h.of_bind
    obtain ⟨definitions, -, h₂⟩ := h₁.of_bind
    rw [h₂.of_pure, hk, requireEntity_gives he]
    exact .attributes
  · next hk =>
    obtain ⟨e, he, h₁⟩ := h.of_bind
    obtain ⟨outputs, -, h₂⟩ := h₁.of_bind
    rw [h₂.of_pure, hk, requireEntity_gives he]
    exact .customOutputs
  · next advice fatal hk =>
    cases fatal with
    | true => exact absurd h Logged.not_gives_throw
    | false =>
      obtain ⟨_, -, h₁⟩ := h.of_bind
      rw [h₁.of_pure, hk]
      exact .nothing
  · obtain ⟨v, -, h₁⟩ := h.of_bind
    rw [h₁.of_pure]
    exact .value

/-- Arguments that are accepted are read as the kind of the target says, and assigned to it. -/
theorem parseInput_gives {id : InputId} {w' : World} (h : (w.parseInput this id a).Gives w') :
    (w.input? (w.target id) = none ∧ w' = w) ∨
      ∃ i assignment, w.input? (w.target id) = some i ∧ (w.readKind this i a).Gives assignment ∧
        w' = w.store (w.target id) assignment := by
  obtain ⟨⟨target, assignment⟩, hread, h⟩ := h.of_bind
  rw [h.of_pure]
  unfold readAssignment at hread
  dsimp only at hread
  split at hread
  · next i hi =>
    obtain ⟨assignment', hread, h'⟩ := hread.of_bind
    obtain ⟨rfl, rfl⟩ := Prod.mk.inj h'.of_pure
    exact .inr ⟨i, assignment, hi, hread, rfl⟩
  · next hi =>
    obtain ⟨rfl, rfl⟩ := Prod.mk.inj hread.of_pure
    exact .inl ⟨hi, rfl⟩

/-! ## Applying keywords -/

/-- What a keyword of an entity may change. -/
def KeywordChanges (w : World) (e : EntityId) (keyword : String) : World → Prop :=
  w.ChangesOnly (w.Receives ⟨e, keyword⟩)
    (fun e' => e' = e ∧ w.EndsAt ⟨e, keyword⟩ .attributes)
    (fun e' => e' = e ∧ w.EndsAt ⟨e, keyword⟩ .customOutputs)

/-- What received a keyword shows it: the tokens are those of the input of the keyword, or of the
target of a synonym, and the input at the end of the chain is set, unless its keyword is no longer
used. -/
structure KeywordReceived (w : World) (e : EntityId) (a : Arguments) (w' : World) : Prop where
  tokens : ∀ i, w.input? (w.receiver ⟨e, a.keyword⟩) = some i →
    ∃ i', w'.input? (w.receiver ⟨e, a.keyword⟩) = some i' ∧
      i'.tokens = if (a.args.length : Int) > w.settings.maxStoredTokens then none else some a.args
  isSet : ∀ i, w.input? (w.target ⟨e, a.keyword⟩) = some i →
    (∃ advice, i.kind = .deprecated advice false) ∨
      ∃ i', w'.input? (w.target ⟨e, a.keyword⟩) = some i' ∧ i'.isDefault = false

theorem parseInput_changes {e : EntityId} {w' : World}
    (h : (w.parseInput (some e) ⟨e, a.keyword⟩ a).Gives w') : w.KeywordChanges e a.keyword w' := by
  obtain ⟨-, rfl⟩ | ⟨i, assignment, hi, hread, rfl⟩ := parseInput_gives h
  · exact .refl w'
  have hsuits := readKind_gives hread
  refine store_changesOnly (receives_target _) ?_ ?_
  · rintro e' definitions rfl
    generalize hk : i.kind = kind at hsuits
    cases hsuits
    exact ⟨rfl, i, hi, hk⟩
  · rintro e' outputs rfl
    generalize hk : i.kind = kind at hsuits
    cases hsuits
    exact ⟨rfl, i, hi, hk⟩

theorem parseInput_sets {id : InputId} {w' : World} {i : Input}
    (h : (w.parseInput this id a).Gives w') (hi : w.input? (w.target id) = some i) :
    (∃ advice, i.kind = .deprecated advice false) ∨
      ∃ i', w'.input? (w.target id) = some i' ∧ i'.isDefault = false := by
  obtain ⟨hnone, -⟩ | ⟨j, assignment, hj, hread, rfl⟩ := parseInput_gives h
  · rw [hi] at hnone
    cases hnone
  · obtain rfl : i = j := Option.some.inj (hi.symm.trans hj)
    have hsuits := readKind_gives hread
    generalize hk : i.kind = kind at hsuits
    cases hsuits with
    | nothing => exact .inl ⟨_, rfl⟩
    | _ => exact .inr (store_isDefault hi nofun)

/-- The tokens, and the mark of an edit, are all that changes of the input that receives them. -/
theorem markReceiver_eq (w : World) (e : EntityId) (a : Arguments) (i : Input) :
    ∃ edited, w.markReceiver e a i =
      { i.remember w.settings.maxStoredTokens a.args with edited := edited } := by
  unfold markReceiver
  dsimp only
  split
  · exact ⟨true, rfl⟩
  · exact ⟨i.edited, rfl⟩

theorem markReceiver_sameDeclaration (w : World) (e : EntityId) (a : Arguments) (i : Input) :
    i.SameDeclaration (w.markReceiver e a i) := by
  obtain ⟨edited, h⟩ := w.markReceiver_eq e a i
  rw [h]
  rfl

theorem tokens_markReceiver (w : World) (e : EntityId) (a : Arguments) (i : Input) :
    (w.markReceiver e a i).tokens =
      if (a.args.length : Int) > w.settings.maxStoredTokens then none else some a.args := by
  obtain ⟨edited, h⟩ := w.markReceiver_eq e a i
  rw [h]
  rfl

theorem isDefault_markReceiver (w : World) (e : EntityId) (a : Arguments) (i : Input) :
    (w.markReceiver e a i).isDefault = i.isDefault := by
  obtain ⟨edited, h⟩ := w.markReceiver_eq e a i
  rw [h]
  rfl

theorem value_markReceiver (w : World) (e : EntityId) (a : Arguments) (i : Input) :
    (w.markReceiver e a i).value = i.value := by
  obtain ⟨edited, h⟩ := w.markReceiver_eq e a i
  rw [h]
  rfl

/-- A keyword that is accepted is read, and then shown by what received it. -/
theorem applyArguments_eq_of_gives {e : EntityId} {w' : World} {id : InputId}
    (h : (w.applyArguments e a).Gives (w', id)) :
    (w.input? ⟨e, a.keyword⟩).isSome = true ∧ id = w.receiver ⟨e, a.keyword⟩ ∧
      ∃ changed, (w.parseInput (some e) ⟨e, a.keyword⟩ a).Gives changed ∧
        w' = changed.updateInput (w.receiver ⟨e, a.keyword⟩) (w.markReceiver e a) := by
  unfold applyArguments at h
  dsimp only at h
  split at h
  · obtain ⟨_, hthrow, -⟩ := h.of_bind
    exact absurd hthrow Logged.not_gives_throw
  next hfound =>
  obtain ⟨changed, hparse, h⟩ := h.of_bind
  obtain ⟨rfl, rfl⟩ := Prod.mk.inj h.of_pure
  exact ⟨Option.isSome_iff_ne_none.2 (mt Option.isNone_iff_eq_none.2 hfound), rfl, changed,
    hparse.of_adapt, rfl⟩

theorem applyArguments_gives {e : EntityId} {w' : World} {id : InputId}
    (h : (w.applyArguments e a).Gives (w', id)) :
    id = w.receiver ⟨e, a.keyword⟩ ∧ w.KeywordChanges e a.keyword w' ∧
      w.KeywordReceived e a w' := by
  obtain ⟨-, rfl, changed, hparse, rfl⟩ := applyArguments_eq_of_gives h
  have hchanged := parseInput_changes hparse
  have hmark : ∀ i, (w.markReceiver e a i).keyword = i.keyword := fun i =>
    (w.markReceiver_sameDeclaration e a i).keyword_eq
  refine ⟨rfl, hchanged.trans ?_, ?_, ?_⟩
  · exact updateInput_changesOnly (receives_receiver _) (w.markReceiver_sameDeclaration e a)
  · intro i hi
    have hreset := hchanged.input?_declaration (w.receiver ⟨e, a.keyword⟩)
    rw [hi] at hreset
    obtain ⟨j, hj, -⟩ := Option.map_eq_some_iff.1 hreset
    refine ⟨w.markReceiver e a j, ?_, w.tokens_markReceiver e a j⟩
    rw [input?_updateInput hmark, if_pos rfl, hj]
    rfl
  · intro i hi
    obtain hold | ⟨i', hi', hd⟩ := parseInput_sets hparse hi
    · exact .inl hold
    · right
      rw [input?_updateInput hmark, hi']
      split
      · exact ⟨w.markReceiver e a i', rfl, (w.isDefault_markReceiver e a i').trans hd⟩
      · exact ⟨i', rfl, hd⟩

/-- Arguments of an input that is no synonym are read as its kind says. -/
theorem parseInput_eq {id : InputId} {i : Input} (hi : w.input? id = some i)
    (hk : i.kind.target? = none) :
    w.parseInput this id a = do return w.store id (← w.readKind this i a) := by
  rw [parseInput, readAssignment, target_eq_self hi hk]
  simp only [hi, bind_assoc, pure_bind]

/-- Inputs that are set to a value are set to the one that their arguments give. -/
theorem readKind_value {i : Input} (hk : i.kind.holdsValue = true) :
    w.readKind this i a = do return .value (← w.readArguments this i a) := by
  unfold readKind
  generalize i.kind = kind at hk
  cases kind with
  | keyLists | attributes | customOutputs | deprecated => cases hk
  | _ => rfl

/-- Such an input accepts the arguments that give a value, and is set to it. -/
theorem parseInput_value_iff {id : InputId} {i : Input} {w' : World} (hi : w.input? id = some i)
    (htarget : i.kind.target? = none) (hvalue : i.kind.holdsValue = true) :
    (w.parseInput this id a).Gives w' ↔
      ∃ v, (w.readArguments this i a).Gives v ∧ w' = w.store id (.value v) := by
  rw [parseInput_eq hi htarget, readKind_value hvalue]
  constructor
  · intro h
    obtain ⟨_, hassigned, hstore⟩ := h.of_bind
    obtain ⟨v, hv, hvalue⟩ := hassigned.of_bind
    obtain rfl := hvalue.of_pure
    exact ⟨v, hv, hstore.of_pure⟩
  · rintro ⟨v, ⟨log, log', hrun⟩, rfl⟩
    have hassigned : (do return Assignment.value (← w.readArguments this i a)).run log =
        (.ok (.value v), log') := by
      rw [Logged.run_bind hrun]
      rfl
    refine ⟨log, log', ?_⟩
    rw [Logged.run_bind hassigned]
    rfl

/-- A keyword that is no synonym is applied as its own input reads the arguments: it is set to what
they assign, or they are refused as those of the keyword. -/
theorem run_applyArguments {e : EntityId} {i : Input} (hi : w.input? ⟨e, a.keyword⟩ = some i)
    (hk : i.kind.target? = none) (log : List Warning) :
    (w.applyArguments e a).run log =
      match (w.readKind (some e) i a).run log with
      | (.ok assignment, log') =>
        (.ok ((w.store ⟨e, a.keyword⟩ assignment).updateInput ⟨e, a.keyword⟩
          (w.markReceiver e a), ⟨e, a.keyword⟩), log')
      | (.error failure, log') => (.error (w.inKeyword e a failure), log') := by
  have hreceiver : w.receiver ⟨e, a.keyword⟩ = ⟨e, a.keyword⟩ := by
    rw [receiver, hi, Option.bind_some, hk]
    rfl
  have hparse : w.parseInput (some e) ⟨e, a.keyword⟩ a = _ := parseInput_eq hi hk
  rw [applyArguments]
  simp only [hi, hreceiver, hparse]
  cases hrun : (w.readKind (some e) i a).run log with
  | mk res log' =>
    refine (Logged.run_bind (Logged.run_adapt (Logged.run_bind hrun))).trans ?_
    cases res with
    | ok assignment => rfl
    | error failure => rfl

section

variable {e : EntityId} {log log' : List Warning} {done : List InputId} {items : List Arguments}

theorem applyItems_of_ok {w' : World} {id : InputId}
    (h : (w.applyArguments e a).run log = (.ok (w', id), log')) :
    w.applyItems e log done (a :: items) = w'.applyItems e log' (done ++ [id]) items := by
  rw [applyItems, h]

theorem applyItems_of_error {failure : Failure}
    (h : (w.applyArguments e a).run log = (.error failure, log')) :
    w.applyItems e log done (a :: items) = ⟨w, log', .error failure⟩ := by
  rw [applyItems, h]

/-- What holds of a world, and is kept by each keyword that is accepted, holds of the world that
keywords leave, whether or not one of them is refused. -/
theorem applyItems_induction {P : World → Prop} (hw : P w)
    (hstep : ∀ w a w' id, a ∈ items → P w → (w.applyArguments e a).Gives (w', id) → P w') :
    P (w.applyItems e log done items).world := by
  induction items generalizing w log done with
  | nil => exact hw
  | cons a items ih =>
    cases h : (w.applyArguments e a).run log with
    | mk res log' =>
      cases res with
      | error failure =>
        rw [applyItems_of_error h]
        exact hw
      | ok changed =>
        obtain ⟨w', id⟩ := changed
        rw [applyItems_of_ok h]
        exact ih (hstep w a w' id (.head _) hw ⟨log, log', h⟩) fun w a w' id ha =>
          hstep w a w' id (.tail _ ha)

end

section

variable {inputs : InputId → Prop} {attributesOf outputsOf : EntityId → Prop} {w' : World}

theorem ChangesOnly.target?_eq (h : w.ChangesOnly inputs attributesOf outputsOf w')
    (id : InputId) :
    (w'.input? id).bind (·.kind.target?) = (w.input? id).bind (·.kind.target?) := by
  have hk := congrArg (·.bind InputKind.target?) (h.kind_eq id)
  rw [Option.bind_map, Option.bind_map] at hk
  exact hk

theorem ChangesOnly.target_eq (h : w.ChangesOnly inputs attributesOf outputsOf w')
    (id : InputId) : w'.target id = w.target id := by
  unfold World.target
  rw [h.inputCount_eq]
  generalize w.inputCount = n
  induction n generalizing id with
  | zero => rfl
  | succ n ih =>
    rw [targetWithin, targetWithin, h.target?_eq]
    cases (w.input? id).bind (·.kind.target?) with
    | none => rfl
    | some target => exact ih target

theorem ChangesOnly.endsAt (h : w.ChangesOnly inputs attributesOf outputsOf w') {id : InputId}
    {kind : InputKind} (hend : w'.EndsAt id kind) : w.EndsAt id kind := by
  obtain ⟨i', hi', rfl⟩ := hend
  rw [h.target_eq] at hi'
  have hk := h.kind_eq (w.target id)
  rw [hi'] at hk
  obtain ⟨i, hi, hkind⟩ := Option.map_eq_some_iff.1 hk.symm
  exact ⟨i, hi, hkind⟩

theorem ChangesOnly.receives (h : w.ChangesOnly inputs attributesOf outputsOf w')
    {id id' : InputId} (hr : w'.Receives id id') : w.Receives id id' := by
  induction hr with
  | self ht =>
    rw [h.target?_eq] at ht
    exact .self ht
  | target ht =>
    rw [h.target?_eq] at ht
    exact .target ht
  | further ht _ ih =>
    rw [h.target?_eq] at ht
    exact .further ht ih

end

/-- What some keywords of an entity may change, one after another. -/
def KeywordsChange (w : World) (e : EntityId) (keywords : List String) : World → Prop :=
  w.ChangesOnly (fun id => ∃ keyword ∈ keywords, w.Receives ⟨e, keyword⟩ id)
    (fun e' => e' = e ∧ ∃ keyword ∈ keywords, w.EndsAt ⟨e, keyword⟩ .attributes)
    (fun e' => e' = e ∧ ∃ keyword ∈ keywords, w.EndsAt ⟨e, keyword⟩ .customOutputs)

/-- A keyword leads nowhere else than before once other keywords are applied. -/
theorem KeywordsChange.cons {w w' w'' : World} {e : EntityId} {keyword : String}
    {keywords : List String} (h : w.KeywordChanges e keyword w')
    (h' : w'.KeywordsChange e keywords w'') : w.KeywordsChange e (keyword :: keywords) w'' := by
  refine (h.mono ?_ ?_ ?_).trans (h'.mono ?_ ?_ ?_)
  · intro id hr
    exact ⟨keyword, .head _, hr⟩
  · rintro e' ⟨rfl, hend⟩
    exact ⟨rfl, keyword, .head _, hend⟩
  · rintro e' ⟨rfl, hend⟩
    exact ⟨rfl, keyword, .head _, hend⟩
  · rintro id ⟨k, hk, hr⟩
    exact ⟨k, .tail _ hk, h.receives hr⟩
  · rintro e' ⟨rfl, k, hk, hend⟩
    exact ⟨rfl, k, .tail _ hk, h.endsAt hend⟩
  · rintro e' ⟨rfl, k, hk, hend⟩
    exact ⟨rfl, k, .tail _ hk, h.endsAt hend⟩

/-- **A record changes nothing but what receives its keywords**, whether or not one of them is
refused. -/
theorem applyItems_keywordsChange (w : World) (e : EntityId) (log : List Warning)
    (done : List InputId) (items : List Arguments) :
    w.KeywordsChange e (items.map (·.keyword)) (w.applyItems e log done items).world := by
  induction items generalizing w log done with
  | nil => exact .refl w
  | cons a items ih =>
    cases h : (w.applyArguments e a).run log with
    | mk res log' =>
      cases res with
      | error failure =>
        rw [applyItems_of_error h]
        exact .refl w
      | ok changed =>
        obtain ⟨w', id⟩ := changed
        rw [applyItems_of_ok h]
        exact .cons (applyArguments_gives ⟨log, log', h⟩).2.1 (ih w' log' (done ++ [id]))

end World

end ModelInputs
