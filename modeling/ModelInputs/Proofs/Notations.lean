import ModelInputs.Proofs.Reading.Depth
import ModelInputs.Proofs.Reading.Quantities
import ModelInputs.Proofs.Undefined

/-!
# Notations of a quantity

A number with a unit is written in several ways: as a literal of an expression, as one argument with
the unit in brackets behind the number, as two arguments, in a list whose last argument is the unit
of all numbers, and in the definition of an attribute. Each of them is read by a reader of its own,
and all of them give the same number of SI units and the same unit type.

* `WritesNumber.parse?_withSuffix`: the literal;
* `World.readArguments_number`, `World.readArguments_numbers`: the inputs;
* `World.readDefinition_single`, `World.readAttribute_of_args`: the attributes;
* `NotationsAgree`, **`WritesNumber.notationsAgree`**: all notations give one quantity.
-/

namespace ModelInputs

open Number Text Token

/-! ## Literals -/

section Literals

variable {n name : String} {x : Float} {u : PhysicalUnit}

/-- The number and the unit are the tokens of the literal. -/
theorem WritesNumber.tokensFrom_withSuffix (hn : WritesNumber n x)
    (hu : PhysicalUnit.find? name = some u) :
    ∃ t unit finish, tokensFrom 0 (withSuffix n name).toList = .ok [t, unit, finish] ∧
      t.kind = .number ∧ readFloat? t.value = some x ∧ unit.kind = .square ∧ unit.value = name ∧
      finish.kind = .finish := by
  obtain ⟨front, number, back, hsingle, hread⟩ := hn.exists_singleNumber
  obtain ⟨hname, -⟩ := isNameText_of_find? hu
  have hlex := hsingle.lexes_unit hname 0 [] _ trivial (by rw [tokensFrom])
  rw [List.append_nil, String.ofList_toList, ← toList_withSuffix] at hlex
  exact ⟨_, _, _, hlex, rfl, hread, rfl, rfl, rfl⟩

theorem WritesNumber.parse?_withSuffix (hn : WritesNumber n x)
    (hu : PhysicalUnit.find? name = some u) (fold : Bool) :
    ∃ p, Expression.parse? (withSuffix n name) fold =
      .ok ⟨withSuffix n name, .literal (Parser.quantity x u) p⟩ := by
  obtain ⟨t, unit, finish, htokens, ht, hread, hunit, hvalue, hfinish⟩ :=
    hn.tokensFrom_withSuffix hu
  have hderives : Derives [t, unit, finish] (.literal (Parser.quantity x u) t.pos) :=
    ⟨[t, unit], finish, rfl, hfinish,
      isExpr_of_isPrefixed (.primary (.quantity ht hread hunit (hvalue ▸ hu)))⟩
  have hparse := parse?_iff.2 ⟨_, htokens, hderives⟩
  refine ⟨t.pos, ?_⟩
  cases fold with
  | false =>
    rw [Expression.parse?, hparse]
    rfl
  | true =>
    rw [Expression.parse?, Expr.parse?_folded hparse]
    rfl

end Literals

/-! ## Inputs and attributes -/

theorem Value.toResults_floats (names : Names) (unit : UnitType) (ys : List Float) :
    Value.toResults names unit (ys.map .float) = .ok (ys.map (.number · unit)) := by
  induction ys with
  | nil => rfl
  | cons y ys ih =>
    rw [List.map_cons, Value.toResults, ih]
    rfl

namespace World

section Readers

variable {w : World} {this : Option EntityId} {i : Input} {a : Arguments} {unit : UnitType}
  {y : Float} {ys : List Float}

theorem readArguments_number (hk : i.kind = .number unit {})
    (hcount : 1 ≤ a.args.length ∧ a.args.length ≤ 2)
    (hread : readQuantities w.settings a unit {} = pure [y]) :
    w.readArguments this i a = pure (.float y) := by
  have hcount : a.checkCountRange 1 (some 2) = .ok () :=
    checkCountRange_eq_ok.2 (CountRange.contains_of_le hcount.1 hcount.2)
  rw [readArguments, hk]
  dsimp only
  rw [hcount, hread]
  rfl

theorem readArguments_numbers {counts : CountRange} (hk : i.kind = .numbers unit {} counts)
    (hcounts : counts.least ≤ ys.length ∧ ys.length ≤ counts.most)
    (hread : readQuantities w.settings a unit {} = pure ys) :
    w.readArguments this i a = pure (.list (ys.map .float)) := by
  rw [readArguments, hk]
  dsimp only
  rw [hread, pure_bind, sized_eq hcounts]
  rfl

theorem readQuantities_of_readArguments {counts : CountRange} {v : Value}
    (hk : i.kind = .numbers unit {} counts) (h : (w.readArguments this i a).Gives v) :
    ∃ ys, v = .list (ys.map .float) ∧ (readQuantities w.settings a unit {}).Gives ys := by
  rw [readArguments, hk] at h
  dsimp only at h
  obtain ⟨ys, hread, h⟩ := h.of_bind
  obtain ⟨sized, hsized, h⟩ := h.of_bind
  obtain ⟨heq, -⟩ := contains_of_sized hsized.of_ofInput
  exact ⟨ys, by rw [h.of_pure, heq], hread⟩

variable {e : EntityId} {found : List Attribute} {group : Arguments} {A : String}

/-- An attribute is what the arguments behind its name define. -/
theorem readAttribute_of_args {args : List String} {d : Attribute}
    (hargs : group.args = A :: args) (hcount : 1 ≤ args.length ∧ args.length ≤ 2)
    (hbraces : ∀ t ∈ args, Record.isBrace t = false)
    (hname : w.checkAttributeName e A (found.map (·.name)) = .ok ())
    (hread : ∀ a : Arguments, a.args = args → w.readDefinition e A a = pure d) :
    w.readAttribute e found group = pure d := by
  have hcount : group.checkCountRange 2 (some 3) = .ok () := by
    rw [checkCountRange_eq_ok, hargs, List.length_cons]
    exact CountRange.contains_of_le (Nat.succ_le_succ hcount.1) (Nat.succ_le_succ hcount.2)
  have hslice : group.slice? 1 =
      .ok ⟨group.keyword, args, group.origin, Record.isBalanced_words hbraces⟩ := by
    have hbalanced := Record.isBalanced_words hbraces
    simp [Arguments.slice?, Arguments.place, Arguments.count, Arguments.make?, hargs, hbalanced]
  rw [readAttribute, hcount, hargs, List.headD_cons]
  dsimp only
  rw [hname, hslice]
  exact hread _ rfl

/-- A number and a unit define an attribute, as two arguments or as one. -/
theorem readDefinition_single {n name : String} {x : Float} {u : PhysicalUnit}
    (hn : WritesNumber n x) (hu : PhysicalUnit.find? name = some u)
    (hargs : a.args = [n, name] ∨ a.args = [withSuffix n name]) :
    w.readDefinition e A a =
      pure (.literal e A u.unitType (.number (u.toSI x) u.unitType)) := by
  have hunit : anyUnit? name = .ok u := by
    rw [anyUnit?, hu]
  have hnumber : w.numberAttribute e A u.unitType a =
      pure (.literal e A u.unitType (.number (u.toSI x) u.unitType)) := by
    rw [numberAttribute, readQuantities_single w.settings hn hu hargs]
    rfl
  obtain hargs | hargs := hargs
  · rw [readDefinition, hargs]
    dsimp only
    rw [hunit]
    exact hnumber
  · rw [readDefinition, hargs]
    dsimp only
    rw [hn.splitUnit_withSuffix hu]
    dsimp only
    rw [if_pos hn.isNumberText, hunit]
    exact hnumber

end Readers

end World

/-! ## All notations -/

/-- In every notation the number and the unit stand for the same number in SI units. -/
structure NotationsAgree (n name : String) (y : Float) (unit : UnitType) : Prop where
  /-- as a literal of an expression -/
  literal (fold : Bool) : ∃ exp, Expression.parse? (withSuffix n name) fold = .ok exp ∧
    ∀ (w : World) (this : Option EntityId) (t : Float) (everywhere : Bool),
      w.evaluate exp this t everywhere = .ok (.number y unit)
  /-- as the arguments of an input without bounds -/
  arguments (w : World) (this : Option EntityId) (i : Input) (a : Arguments)
    (hkind : i.kind = .number unit {})
    (hargs : a.args = [n, name] ∨ a.args = [withSuffix n name]) :
    w.readArguments this i a = pure (.float y) ∧
      (Value.float y).toResult w.names i.kind.unitType = .ok (.number y unit)
  /-- among other quantities in the arguments of a list without bounds -/
  lists (w : World) (this : Option EntityId) (i : Input) (counts : CountRange) (a : Arguments)
    (hkind : i.kind = .numbers unit {} counts) (shared : Option String)
    (hshared : ∀ s ∈ shared, ∃ u, PhysicalUnit.find? s = some u ∧ u.unitType = unit)
    (token : String) (htoken : token = n ∧ shared = some name ∨ token = withSuffix n name)
    (before behind : List String) (xs zs : List Float)
    (hbefore : List.Forall₂ (IsQuantity unit (shared.bind PhysicalUnit.find?)) before xs)
    (hbehind : List.Forall₂ (IsQuantity unit (shared.bind PhysicalUnit.find?)) behind zs)
    (hcounts : counts.least ≤ (xs ++ y :: zs).length ∧ (xs ++ y :: zs).length ≤ counts.most)
    (hargs : a.args = before ++ token :: behind ++ shared.toList) :
    w.readArguments this i a = pure (.list ((xs ++ y :: zs).map .float)) ∧
      (Value.list ((xs ++ y :: zs).map .float)).toResult w.names i.kind.unitType =
        .ok (.array ((xs ++ y :: zs).map (.number · unit)))
  /-- at any place of any other list that is accepted -/
  places (w : World) (this : Option EntityId) (i : Input) (counts : CountRange) (a : Arguments)
    (hkind : i.kind = .numbers unit {} counts) (v : Value)
    (hread : (w.readArguments this i a).Gives v) :
    ∃ ys : List Float, v = .list (ys.map .float) ∧
      ∀ k : Nat, a.args[k]? = some (withSuffix n name) ∨
        a.args[k]? = some n ∧ a.args.getLast? = some name → ys[k]? = some y
  /-- in the definition of an attribute -/
  attributes (w : World) (e : EntityId) (found : List Attribute) (group : Arguments)
    (A : String) (hname : w.checkAttributeName e A (found.map (·.name)) = .ok ())
    (hargs : group.args = [A, n, name] ∨ group.args = [A, withSuffix n name]) :
    w.readAttribute e found group = pure (.literal e A unit (.number y unit))

/-- **All notations of a quantity agree.** -/
theorem WritesNumber.notationsAgree {n name : String} {x : Float} {u : PhysicalUnit}
    (hn : WritesNumber n x) (hu : PhysicalUnit.find? name = some u) :
    NotationsAgree n name (u.toSI x) u.unitType where
  literal fold := by
    obtain ⟨p, hparse⟩ := hn.parse?_withSuffix hu fold
    exact ⟨_, hparse, fun w this t everywhere => World.evaluateWith_eq_ok.2 rfl⟩
  arguments w this i a hkind hargs := by
    refine ⟨World.readArguments_number hkind ?_ ?_, by rw [hkind]; rfl⟩
    · obtain hargs | hargs := hargs
      all_goals
        rw [hargs]
        exact ⟨by simp, by simp⟩
    · exact readQuantities_single w.settings hn hu hargs
  lists w this i counts a hkind shared hshared token htoken before behind xs zs hbefore hbehind
      hcounts hargs := by
    have htoken : IsQuantity u.unitType (shared.bind PhysicalUnit.find?) token (u.toSI x) := by
      obtain ⟨rfl, rfl⟩ | rfl := htoken
      · exact .plain hn hu
      · exact .suffixed hn hu rfl
    have hread := readQuantities_isQuantity w.settings hargs hshared
      (List.rel_append hbefore (.cons htoken hbehind))
    refine ⟨World.readArguments_numbers hkind hcounts hread, ?_⟩
    rw [hkind, Value.toResult]
    exact bind_eq_ok.2 ⟨_, Value.toResults_floats w.names u.unitType _, rfl⟩
  places w this i counts a hkind v hread := by
    obtain ⟨ys, hv, hread⟩ := World.readQuantities_of_readArguments hkind hread
    refine ⟨ys, hv, fun k hk => ?_⟩
    obtain hk | ⟨hk, hlast⟩ := hk
    · exact getElem?_of_readQuantities w.settings hread hk (find?_withSuffix n name)
        fun _ _ _ => .suffixed hn hu rfl
    · refine getElem?_of_readQuantities w.settings hread hk hn.find?_unit fun _ _ hshared => ?_
      obtain ⟨args, hargs⟩ := List.getLast?_eq_some_iff.1 hlast
      rw [hargs, sharedUnit_concat hu] at hshared
      cases hshared
      exact .plain hn rfl
  attributes w e found group A hname hargs := by
    obtain hargs | hargs := hargs
    · refine World.readAttribute_of_args hargs ⟨by simp, by simp⟩ ?_ hname fun a ha =>
        World.readDefinition_single hn hu (.inl ha)
      simp only [List.forall_mem_cons]
      exact ⟨hn.not_isBrace, isBrace_of_find? hu, List.forall_mem_nil _⟩
    · refine World.readAttribute_of_args hargs ⟨by simp, by simp⟩ ?_ hname fun a ha =>
        World.readDefinition_single hn hu (.inr ha)
      simp only [List.forall_mem_cons]
      exact ⟨not_isBrace_withSuffix n name, List.forall_mem_nil _⟩

/-- One and a half thousand kilometres. -/
theorem notationsAgree_kilometres :
    WritesNumber "1.5e3" 1500.0 ∧
      PhysicalUnit.find? "km" = some ⟨"km", .distance, 1000.0⟩ ∧
      NotationsAgree "1.5e3" "km" 1500000.0 .distance := by
  have htokens : tokenize "1.5e3" =
      .ok [⟨.number, "1.5e3", 0⟩, ⟨.finish, "", 5⟩] := by
    cbv
  have hn : WritesNumber "1.5e3" 1500.0 :=
    ⟨⟨_, _, htokens, rfl⟩, by decide +kernel, by decide +kernel⟩
  have hu : PhysicalUnit.find? "km" = some ⟨"km", .distance, 1000.0⟩ := by rfl
  have hy : PhysicalUnit.toSI ⟨"km", .distance, 1000.0⟩ 1500.0 = 1500000.0 := by
    decide +kernel
  exact ⟨hn, hu, hy ▸ hn.notationsAgree hu⟩

end ModelInputs
