import ModelInputs.Proofs.Reading.Depth
import ModelInputs.Proofs.Reading.Entities
import ModelInputs.Proofs.Run.Outputs

/-!
# The entities that readings show

What an output shows are the entities of the result that it yields. Some entities are closed if an
entity among them shows only such: the outputs of its class yield no other ones, the values of its
attributes hold no other ones, its own expressions belong to them, and its inputs lead to no other
ones. Readings of closed entities then show closed entities, however deep they nest, along chains of
outputs and through expressions that are evaluated for them.

* `Value.shown`, `Value.ShowsOnly`: the entities of a value that is read as a result;
* `Value.LeadsOnlyTo`: those of a value that is computed, too;
* `World.ClosedUnder`: closed entities;
* `World.handle?_cases`: what is found under a name;
* `World.ClosedUnder.resultWith`, `World.ClosedUnder.valueWith`: one reading over others;
* **`World.ClosedUnder.readingsWithin`**, **`World.ClosedUnder.confined_evaluate`**: all readings of
  closed entities, and expressions that belong to them.
-/

namespace ModelInputs

/-! ## Values -/

theorem distinctKeys_subset {α : Type} (entries : List (String × α)) :
    distinctKeys entries ⊆ entries := by
  -- what is kept of the entries before stays, moves on or makes way for the next one
  have hfold (entries kept all : List (String × α)) (hkept : kept ⊆ all) (hall : entries ⊆ all) :
      entries.foldl (fun kept entry =>
        if kept.any (·.1 == entry.1) then kept.map fun e => if e.1 == entry.1 then entry else e
        else kept ++ [entry]) kept ⊆ all := by
    induction entries generalizing kept with
    | nil => exact hkept
    | cons entry entries ih =>
      obtain ⟨hentry, hentries⟩ := List.cons_subset.1 hall
      refine ih _ ?_ hentries
      dsimp only
      split
      · intro e he
        obtain ⟨e', he', rfl⟩ := List.mem_map.1 he
        split
        · exact hentry
        · exact hkept he'
      · exact List.append_subset.2 ⟨hkept, List.cons_subset.2 ⟨hentry, List.nil_subset _⟩⟩
  exact hfold entries [] entries (List.nil_subset _) (List.Subset.refl _)

namespace Value

mutual

/-- The entities of the result that a value is read as. -/
def shown : Value → List EntityId
  | entity e => [e]
  | result r => r.entities
  | list items => shownOfItems items
  | tuple items => shownOfItems items
  | map entries => shownOfEntries entries
  | _ => []

/-- The entities of the results that some values are read as. -/
def shownOfItems : List Value → List EntityId
  | [] => []
  | v :: vs => v.shown ++ shownOfItems vs

/-- The entities of the results that the values of some entries are read as; keys become texts. -/
def shownOfEntries : List (Value × Value) → List EntityId
  | [] => []
  | (_, v) :: entries => v.shown ++ shownOfEntries entries

end

/-- The result that the value is read as holds no other entities than those. -/
def ShowsOnly (S : EntityId → Prop) (v : Value) : Prop :=
  ∀ e ∈ v.shown, S e

variable {S : EntityId → Prop} {names : Names} {unit : UnitType}

mutual

theorem confined_toResult :
    ∀ v : Value, v.ShowsOnly S → Confined S (v.toResult names unit)
  | result r, h => confined_ok h
  | none, _ => confined_ok (.of_eq_nil rfl)
  | entity e, h => confined_ok h
  | bool b, _ => confined_ok (Result.holdsOnly_ofBool b)
  | int n, _ => confined_bind fun x _ => confined_ok (Result.holdsOnly_number x unit)
  | float x, _ => confined_ok (Result.holdsOnly_number x unit)
  | text _, _ => confined_ok (.of_eq_nil rfl)
  | date _, _ => confined_ok (.of_eq_nil rfl)
  | member _, _ => confined_ok (.of_eq_nil rfl)
  | colour _, _ => confined_ok (.of_eq_nil rfl)
  | vector v, _ => by
    refine confined_ok (Result.holdsOnly_array_iff.2 fun r hr => ?_)
    obtain ⟨x, -, rfl⟩ := List.mem_map.1 hr
    exact Result.holdsOnly_number x unit
  | keywordRef _ _, _ => confined_error
  | input _, _ => confined_error
  | list items, h => confined_bind fun rs hrs =>
    confined_ok (Result.holdsOnly_array_iff.2 (confined_toResults items h rs hrs))
  | tuple items, h => confined_bind fun rs hrs =>
    confined_ok (Result.holdsOnly_array_iff.2 (confined_toResults items h rs hrs))
  | map entries, h => confined_bind fun rs hrs =>
    confined_ok (Result.holdsOnly_map_iff.2 fun entry hentry =>
      confined_toEntries entries h rs hrs entry (distinctKeys_subset rs hentry))
  | chain _, _ => confined_error
  | sampler _, _ => confined_error
  | provider _, _ => confined_error
  | handle _, _ => confined_error
  | object, _ => confined_error

theorem confined_toResults :
    ∀ vs : List Value, (∀ e ∈ shownOfItems vs, S e) →
      ∀ rs, toResults names unit vs = .ok rs → ∀ r ∈ rs, r.HoldsOnly S
  | [], _ => by
    rintro _ ⟨⟩
    exact nofun
  | v :: vs, h => by
    obtain ⟨hv, hvs⟩ := List.forall_mem_append.1 h
    intro rs hrs
    obtain ⟨r, hr, hrs⟩ := bind_eq_ok.1 hrs
    obtain ⟨rest, hrest, heq⟩ := bind_eq_ok.1 hrs
    cases heq
    exact List.forall_mem_cons.2 ⟨confined_toResult v hv r hr, confined_toResults vs hvs rest hrest⟩

theorem confined_toEntries :
    ∀ entries : List (Value × Value), (∀ e ∈ shownOfEntries entries, S e) →
      ∀ rs, toEntries names unit entries = .ok rs → ∀ entry ∈ rs, entry.2.HoldsOnly S
  | [], _ => by
    rintro _ ⟨⟩
    exact nofun
  | (_, v) :: entries, h => by
    obtain ⟨hv, hentries⟩ := List.forall_mem_append.1 h
    intro rs hrs
    obtain ⟨r, hr, hrs⟩ := bind_eq_ok.1 hrs
    obtain ⟨rest, hrest, heq⟩ := bind_eq_ok.1 hrs
    cases heq
    exact List.forall_mem_cons.2
      ⟨confined_toResult v hv r hr, confined_toEntries entries hentries rest hrest⟩

end

end Value

namespace Result

mutual

/-- A result shows its entities as a plain value too. -/
theorem shown_toValue : ∀ r : Result, r.toValue.shown = r.entities
  | number _ _ => rfl
  | text _ => rfl
  | entity none => rfl
  | entity (some _) => rfl
  | array items => shown_toValues items
  | map entries => shown_toEntryValues entries

theorem shown_toValues :
    ∀ rs : List Result, Value.shownOfItems (toValues rs) = entitiesOfItems rs
  | [] => rfl
  | r :: rs => by
    rw [toValues, Value.shownOfItems, shown_toValue r, shown_toValues rs, entitiesOfItems]

theorem shown_toEntryValues : ∀ entries : List (String × Result),
    Value.shownOfEntries (toEntryValues entries) = entitiesOfEntries entries
  | [] => rfl
  | (_, r) :: entries => by
    rw [toEntryValues, Value.shownOfEntries, shown_toValue r, shown_toEntryValues entries,
      entitiesOfEntries]

end

end Result

/-- A value shows no other entities than those, and neither does what is computed by it: a chain
starts at one of them, and a provider has one of them or an expression of one of them. -/
structure Value.LeadsOnlyTo (S : EntityId → Prop) (v : Value) : Prop where
  shows : v.ShowsOnly S
  chain : ∀ c, v = .chain c → S c.root
  constant : ∀ e, v = .provider (.constant e) → S e
  expression : ∀ exp this type, v = .provider (.expression exp this type) →
    (∀ e, this = some e → S e) ∧ exp.root.AddsNone

namespace World

variable {w : World} {S : EntityId → Prop} {e : EntityId} {name : String} {t : Float}

/-! ## Closed entities -/

/-- Entities of which each shows only entities among them. -/
structure ClosedUnder (w : World) (S : EntityId → Prop) : Prop where
  named : ∀ name e, w.named? name = some e → S e
  outputs : ∀ e name t v, S e → w.outputValue e name t = .ok v → v.ShowsOnly S
  attributes : ∀ e name a x, S e → w.handle? e name = some (.attribute a) →
    w.attribute? a = some x → (∀ r, x.value = some r → r.HoldsOnly S) ∧
      ∀ exp, x.expression = some exp → S x.entity ∧ exp.root.AddsNone
  customOutputs : ∀ e name o, S e → w.handle? e name = some (.custom o) →
    S o.entity ∧ o.expression.root.AddsNone
  inputs : ∀ e name id v, S e → w.handle? e name = some (.input id) → w.valueOf id = .ok v →
    v.LeadsOnlyTo S

/-- The handle is that of an output of one of the entities. -/
def OutputOf (w : World) (S : EntityId → Prop) (h : Handle) : Prop :=
  ∃ e name, S e ∧ w.handle? e name = some h

/-- What is found under a name is an attribute of the entity, a custom output, an output of its
class or an input. -/
theorem handle?_cases {h : Handle} (hh : w.handle? e name = some h) :
    ∃ x, w.entity? e = some x ∧
      ((∃ a, h = .attribute a ∧ (name, a) ∈ x.attributes) ∨
        (∃ o, h = .custom o ∧ (name, o) ∈ x.customOutputs) ∨
        h = .output e name ∨ h = .input ⟨e, name⟩) := by
  obtain ⟨x, hx, hh⟩ := Option.bind_eq_some_iff.1 hh
  refine ⟨x, hx, ?_⟩
  obtain hh | ⟨-, hh⟩ := Option.or_eq_some_iff.1 hh
  · obtain ⟨a, ha, rfl⟩ := Option.map_eq_some_iff.1 hh
    exact .inl ⟨a, rfl, mem_of_lookup_eq_some ha⟩
  obtain hh | ⟨-, hh⟩ := Option.or_eq_some_iff.1 hh
  · obtain ⟨o, ho, rfl⟩ := Option.map_eq_some_iff.1 hh
    exact .inr (.inl ⟨o, rfl, mem_of_lookup_eq_some ho⟩)
  obtain hh | ⟨-, hh⟩ := Option.or_eq_some_iff.1 hh
  · obtain ⟨spec, -, rfl⟩ := Option.map_eq_some_iff.1 hh
    exact .inr (.inr (.inl rfl))
  · obtain ⟨i, -, rfl⟩ := Option.map_eq_some_iff.1 hh
    exact .inr (.inr (.inr rfl))

theorem mem_attributes_of_handle? {a : AttributeId}
    (h : w.handle? e name = some (.attribute a)) :
    ∃ x, w.entity? e = some x ∧ (name, a) ∈ x.attributes := by
  obtain ⟨x, hx, ⟨_, ha, hmem⟩ | ⟨_, ho, -⟩ | houtput | hinput⟩ := handle?_cases h
  · cases ha
    exact ⟨x, hx, hmem⟩
  · cases ho
  · cases houtput
  · cases hinput

theorem mem_customOutputs_of_handle? {o : CustomOutput}
    (h : w.handle? e name = some (.custom o)) :
    ∃ x, w.entity? e = some x ∧ (name, o) ∈ x.customOutputs := by
  obtain ⟨x, hx, ⟨_, ha, -⟩ | ⟨_, ho, hmem⟩ | houtput | hinput⟩ := handle?_cases h
  · cases ha
  · cases ho
    exact ⟨x, hx, hmem⟩
  · cases houtput
  · cases hinput

/-- An output of the class of an entity is found at that entity. -/
theorem eq_of_handle?_output {e' : EntityId} {name' : String}
    (h : w.handle? e name = some (.output e' name')) : e' = e ∧ name' = name := by
  obtain ⟨x, -, ⟨_, ha, -⟩ | ⟨_, ho, -⟩ | houtput | hinput⟩ := handle?_cases h
  · cases ha
  · cases ho
  · cases houtput
    exact ⟨rfl, rfl⟩
  · cases hinput

/-- Readings of outputs of closed entities show closed entities. -/
structure ShowsOnly (w : World) (S : EntityId → Prop) (r : Readings) : Prop where
  result : ∀ h t, w.OutputOf S h → Confined S (r.result h t)
  value : ∀ h t, w.OutputOf S h → ∀ v, r.value h t = .ok v → v.ShowsOnly S

namespace ClosedUnder

section

variable (hw : w.ClosedUnder S) {r : Readings} (hr : w.ShowsOnly S r)
include hw hr

/-! ## Expressions and chains -/

theorem envWith {this : Option EntityId} (hthis : ∀ e, this = some e → S e) (everywhere : Bool)
    (t : Float) : (w.envWith r this everywhere t).KnowsOnly S where
  this := hthis
  lookup name e he := by
    obtain ⟨-, he⟩ := Option.ite_none_right_eq_some.1 he
    exact hw.named name e he
  read e name x he hx := by
    obtain ⟨h, hh, rfl⟩ := Option.map_eq_some_iff.1 hx
    exact hr.result h t ⟨e, name, he, hh⟩

theorem evaluateWith {exp : Expression} (hexp : exp.root.AddsNone) {this : Option EntityId}
    (hthis : ∀ e, this = some e → S e) (everywhere : Bool) (t : Float) :
    Confined S (w.evaluateWith r exp this everywhere t) :=
  fun x hx => hexp S _ (hw.envWith hr hthis everywhere t) x (evaluateWith_eq_ok.1 hx)

omit hw in
theorem chainStep {h : Option Handle} (hh : ∀ k, h = some k → w.OutputOf S k) {name : String}
    {k : Handle} (hk : w.chainStep r t h name = .ok (some k)) : w.OutputOf S k := by
  cases h with
  | none => cases hk
  | some h =>
    obtain ⟨x, hx, hk⟩ := bind_eq_ok.1 hk
    split at hk
    · next e =>
      have he := hr.result h t (hh h rfl) _ hx
      exact ⟨e, name, Result.holdsOnly_entity_iff.1 he, Except.ok.inj hk⟩
    · cases hk

omit hw in
/-- **A chain goes from closed entities to closed entities.** -/
theorem chainEnd {c : OutputChain} (hc : S c.root) {k : Handle}
    (hk : w.chainEnd r c t = .ok (some k)) : w.OutputOf S k := by
  have hsteps (names : List String) (h : Option Handle) (hh : ∀ k, h = some k → w.OutputOf S k)
      (hk : names.foldlM (w.chainStep r t) h = .ok (some k)) : w.OutputOf S k := by
    induction names generalizing h with
    | nil => exact hh k (Except.ok.inj hk)
    | cons name names ih =>
      rw [List.foldlM_cons] at hk
      obtain ⟨h', hh', hk⟩ := bind_eq_ok.1 hk
      refine ih h' (fun k' hk' => ?_) hk
      subst hk'
      exact chainStep hr hh hh'
  exact hsteps c.remaining _ (fun k hk => ⟨c.root, c.firstName, hc, hk⟩) hk

omit hw in
theorem chainValue {c : OutputChain} (hc : S c.root) {v : Value}
    (hv : w.chainValue r c t = .ok v) : v.ShowsOnly S := by
  obtain ⟨h, hh, hv⟩ := bind_eq_ok.1 hv
  cases h with
  | none =>
    cases hv
    exact nofun
  | some h => exact hr.value h t (chainEnd hr hc hh) v hv

/-! ## Inputs -/

theorem provideWith {p : Provider} (hp : (Value.provider p).LeadsOnlyTo S) {v : Value}
    (hv : w.provideWith r t p = .ok v) : v.ShowsOnly S := by
  cases p with
  | constant e =>
    cases hv
    exact Result.holdsOnly_entity_iff.2 (hp.constant e rfl)
  | expression exp this type =>
    obtain ⟨hthis, hexp⟩ := hp.expression exp this type rfl
    obtain ⟨x, hx, hv⟩ := bind_eq_ok.1 hv
    split at hv
    · cases hv
      exact nofun
    · split at hv
      · cases hv
        exact hw.evaluateWith hr hexp hthis false t _ hx
      · cases hv
    · cases hv

theorem inputValue {id : InputId} {kind : InputKind}
    (hid : ∀ v, w.valueOf id = .ok v → v.LeadsOnlyTo S) {v : Value}
    (hv : w.inputValue r id kind t = .ok v) : v.ShowsOnly S := by
  obtain ⟨v', hv', hv⟩ := bind_eq_ok.1 hv
  have hleads := hid v' hv'
  split at hv
  · cases hv
    exact nofun
  · cases hv
    exact nofun
  · cases hv
    exact nofun
  · next c _ => exact chainValue hr (hleads.chain c rfl) hv
  · obtain ⟨x, -, hv⟩ := bind_eq_ok.1 hv
    cases hv
    exact nofun
  · exact hw.provideWith hr hleads hv
  · cases hv
  · cases hv
  · cases hv
    exact hleads.shows

theorem inputOutputWith {id : InputId} (hid : ∀ v, w.valueOf id = .ok v → v.LeadsOnlyTo S)
    {v : Value} (hv : w.inputOutputWith r id t = .ok v) : v.ShowsOnly S := by
  unfold World.inputOutputWith at hv
  split at hv
  · exact hw.inputValue hr hid hv
  · cases hv
    exact nofun

/-! ## One reading over others -/

theorem resultWith {h : Handle} (hh : w.OutputOf S h) : Confined S (w.resultWith r t h) := by
  obtain ⟨e, name, he, hh⟩ := hh
  match h with
  | .output e' name' =>
    obtain ⟨rfl, rfl⟩ := eq_of_handle?_output hh
    exact confined_bind fun v hv => confined_bind fun _ _ =>
      Value.confined_toResult v (hw.outputs _ _ t v he hv)
  | .attribute a =>
    rw [World.resultWith]
    split
    · next x hx =>
      obtain ⟨hvalue, hexp⟩ := hw.attributes e name a x he hh hx
      unfold attributeResult
      split
      · next x hx => exact confined_ok (hvalue x hx)
      · next exp _ hx =>
        obtain ⟨howner, hadds⟩ := hexp exp hx
        refine hw.evaluateWith hr hadds ?_ false t
        rintro _ ⟨⟩
        exact howner
      · exact confined_error
    · exact confined_error
  | .custom o =>
    obtain ⟨howner, hadds⟩ := hw.customOutputs e name o he hh
    refine confined_bind fun x hx => ?_
    have hx : x.HoldsOnly S := by
      refine hw.evaluateWith hr hadds ?_ false t x hx
      rintro _ ⟨⟩
      exact howner
    split
    · split
      · exact confined_ok hx
      · exact confined_error
    · exact confined_ok hx
  | .input id =>
    refine confined_bind fun v hv => confined_bind fun _ _ => Value.confined_toResult v ?_
    exact hw.inputOutputWith hr (fun v => hw.inputs e name id v he hh) hv

theorem valueWith {h : Handle} (hh : w.OutputOf S h) {v : Value}
    (hv : w.valueWith r t h = .ok v) : v.ShowsOnly S := by
  have hresult := hw.resultWith hr (t := t) hh
  -- attributes and custom outputs yield a value by way of their result
  have hplain {x : Except Failure Result} (hx : Confined S x)
      (hv : (do return (← x).toValue : Except Failure Value) = .ok v) : v.ShowsOnly S := by
    obtain ⟨y, hy, heq⟩ := bind_eq_ok.1 hv
    cases heq
    rw [Value.ShowsOnly, Result.shown_toValue]
    exact hx y hy
  match h with
  | .output e' name' =>
    obtain ⟨e, name, he, hh⟩ := hh
    obtain ⟨rfl, rfl⟩ := eq_of_handle?_output hh
    exact hw.outputs _ _ t v he hv
  | .attribute a => exact hplain hresult hv
  | .custom o => exact hplain hresult hv
  | .input id =>
    obtain ⟨e, name, he, hh⟩ := hh
    exact hw.inputOutputWith hr (fun v => hw.inputs e name id v he hh) hv

end

/-! ## All readings -/

/-- **Readings of closed entities show closed entities**, however deep they nest. -/
theorem readingsWithin (hw : w.ClosedUnder S) (n : Nat) : w.ShowsOnly S (w.readingsWithin n) := by
  induction n with
  | zero => exact ⟨fun _ _ _ => confined_error, fun _ _ _ _ => nofun⟩
  | succ n ih => exact ⟨fun _ _ hh => hw.resultWith ih hh, fun _ _ hh _ => hw.valueWith ih hh⟩

/-- **Expressions of closed entities yield closed entities.** -/
theorem confined_evaluate (hw : w.ClosedUnder S) {exp : Expression} (hexp : exp.root.AddsNone)
    (he : S e) (everywhere : Bool) (t : Float) :
    Confined S (w.evaluate exp (some e) t everywhere) := by
  refine hw.evaluateWith (hw.readingsWithin _) hexp ?_ everywhere t
  rintro _ ⟨⟩
  exact he

end ClosedUnder

end World

end ModelInputs
