import ModelInputs.Proofs.Number.Surrounded
import ModelInputs.Proofs.Printing.SingleNumber
import ModelInputs.Proofs.Reading.Lists

/-!
# Quantities as arguments

A text that expressions read as one finite number is read as the same number where an argument is
one, since blanks around the number are all that can stand with it in the text. The unit behind it,
in brackets or as the unit of all numbers, is looked up and applied in the same way; a range without
bounds accepts the product.

* `find?_eq_none_of_head`, `isNameText_of_find?`: how the names of units start, and what is in them;
* `WritesNumber`: the texts that expressions read as one finite number;
* `withSuffix`, `WritesNumber.splitUnit_withSuffix`: the unit in brackets behind a number;
* `IsQuantity`, **`readQuantities_isQuantity`**: lists of quantities are read as their numbers;
* **`getElem?_of_readQuantities`**: in every list that is read a quantity gives its number.
-/

namespace ModelInputs

open Number Text Token

/-! ## Names of units -/

section Units

variable {name : String} {u : PhysicalUnit}

theorem name_of_find? (hu : PhysicalUnit.find? name = some u) :
    u ∈ PhysicalUnit.all ∧ u.name = name := by
  have hname := List.find?_some hu
  exact ⟨List.mem_of_find?_eq_some hu, beq_iff_eq.1 hname⟩

/-- No unit has a name that starts like a number or a gap. -/
theorem find?_eq_none_of_head {s : String} {c : Char} (hc : s.toList.head? = some c)
    (h : isBlank c = true ∨ c = '#' ∨ c = '.' ∨ isDigit c = true) : PhysicalUnit.find? s = none := by
  have hnone : ∀ u ∈ PhysicalUnit.all, (u.name.toList.head?.any fun c =>
      isBlank c || c == '#' || c == '.' || isDigit c) = false := by
    decide +kernel
  refine List.find?_eq_none.2 fun u hu hname => Bool.eq_false_iff.1 (hnone u hu) ?_
  rw [beq_iff_eq.1 hname, hc, Option.any_some]
  simpa only [Bool.or_eq_true, beq_iff_eq, or_assoc] using h

/-- The name of a unit can stand in brackets. -/
theorem isNameText_of_find? (hu : PhysicalUnit.find? name = some u) :
    IsNameText name.toList ∧ name.toList ≠ [] := by
  have hall : ∀ u ∈ PhysicalUnit.all, (u.name.toList.all fun c => c ≠ ']' ∧ c ≠ '[') = true ∧
      stripList u.name.toList = u.name.toList ∧ u.name.toList ≠ [] := by
    decide +kernel
  obtain ⟨hmem, rfl⟩ := name_of_find? hu
  obtain ⟨hplain, hstripped, hne⟩ := hall u hmem
  exact ⟨⟨List.all_iff_forall_prop.1 hplain, hstripped⟩, hne⟩

theorem isBrace_of_find? (hu : PhysicalUnit.find? name = some u) : Record.isBrace name = false := by
  have hall : ∀ u ∈ PhysicalUnit.all, Record.isBrace u.name = false := by
    decide +kernel
  obtain ⟨hmem, rfl⟩ := name_of_find? hu
  exact hall u hmem

end Units

/-! ## Numbers of expressions as arguments -/

/-- No number lies outside a range without bounds. -/
theorem NumberRange.unbounded_contains (x : Float) : NumberRange.Contains {} x := by
  have hoverflow : Number.infinity.toModel.unpack = .infinity .positive := rfl
  have hunderflow : (-Number.infinity).toModel.unpack = .infinity .negative := rfl
  show ¬ x < -Number.infinity ∧ ¬ Number.infinity < x
  rw [lt_iff_unpack, lt_iff_unpack, hoverflow, hunderflow]
  cases x.toModel.unpack with
  | notANumber => exact ⟨nofun, nofun⟩
  | zero s => exact ⟨nofun, nofun⟩
  | infinity s | finite s m e h => cases s <;> exact ⟨nofun, nofun⟩

/-- Expressions read the text as one number, and this is finite. -/
structure WritesNumber (n : String) (x : Float) : Prop where
  token : ∃ t finish, tokenize n = .ok [t, finish] ∧ t.kind = .number
  value : readFloat? n = some x
  isFinite : x.isFinite = true

namespace WritesNumber

variable {n : String} {x : Float} (h : WritesNumber n x)
include h

/-- A character of ASCII that is no part of numbers is not in the text. -/
theorem not_mem {c : Char} (hc : c.toNat < 128) (hblank : isAsciiBlank c = false)
    (hno : isNumberChar c = false) : c ∉ n.toList := by
  intro hmem
  rw [isNumberChar_of_readFloat? h.value hc hblank hmem] at hno
  cases hno

/-- The number stands in the text between gaps, and is read without them as the same number. -/
theorem exists_singleNumber : ∃ front number back,
    SingleNumber n.toList front number back ∧ readFloat? (String.ofList number) = some x := by
  obtain ⟨t, finish, htokens, ht⟩ := h.token
  obtain ⟨front, back, hsingle⟩ := singleNumber_of_tokensFrom (mapError_eq_ok.1 htokens) ht
  have hcomment : '#' ∉ n.toList := h.not_mem (by decide) (by decide) (by decide)
  have hread : readFloat? (String.ofList n.toList) = some x := by
    rw [String.ofList_toList]
    exact h.value
  rw [hsingle.eq] at hread hcomment
  simp only [List.mem_append, not_or] at hcomment
  exact ⟨front, _, back, hsingle, readFloat?_of_surrounded
    (isBlank_of_isGap hsingle.gap_front hcomment.1)
    (isBlank_of_isGap hsingle.gap_back hcomment.2.2) hread⟩

theorem head : ∃ c, n.toList.head? = some c ∧
    (isBlank c = true ∨ c = '#' ∨ c = '.' ∨ isDigit c = true) := by
  obtain ⟨front, number, back, hsingle, -⟩ := h.exists_singleNumber
  exact hsingle.head

theorem find?_unit : PhysicalUnit.find? n = none := by
  obtain ⟨c, hhead, hc⟩ := h.head
  exact find?_eq_none_of_head hhead hc

/-- The text is none of those that start with a letter, a sign or a brace. -/
theorem ne_of_head {s : String} {c : Char} (hs : s.toList.head? = some c)
    (hc : ¬ (isBlank c = true ∨ c = '#' ∨ c = '.' ∨ isDigit c = true)) : n ≠ s := by
  rintro rfl
  obtain ⟨d, hhead, hd⟩ := h.head
  cases hhead.symm.trans hs
  exact hc hd

theorem not_isBrace : Record.isBrace n = false := by
  rw [Record.isBrace, Bool.or_eq_false_iff, beq_eq_false_iff_ne, beq_eq_false_iff_ne]
  exact ⟨h.ne_of_head (c := '\x7b') rfl (by decide +kernel),
    h.ne_of_head (c := '\x7d') rfl (by decide +kernel)⟩

theorem isNumberText : isNumberText n = true := by
  rw [ModelInputs.isNumberText, h.value]
  rfl

/-- Without bounds the number is read with any factor. -/
theorem readNumber?_unbounded (factor : Float) : readNumber? n {} factor = .ok (x * factor) := by
  have hplain : readPlainNumber? n = .ok x := by
    have hpositive : n ≠ "Infinity" := h.ne_of_head (c := 'I') rfl (by decide +kernel)
    have hnegative : n ≠ "-Infinity" := h.ne_of_head (c := '-') rfl (by decide +kernel)
    rw [readPlainNumber?, if_neg (by simpa using hpositive), if_neg (by simpa using hnegative),
      h.value]
    exact if_pos h.isFinite
  have hrange := NumberRange.check_eq_ok.2 (NumberRange.unbounded_contains (x * factor))
  rw [readNumber?, hplain, ok_bind, hrange]
  rfl

end WritesNumber

/-! ## Units behind numbers -/

/-- The number with the unit in brackets behind it. -/
def withSuffix (n name : String) : String :=
  n ++ "[" ++ name ++ "]"

theorem toList_withSuffix (n name : String) :
    (withSuffix n name).toList = n.toList ++ '[' :: (name.toList ++ [']']) := by
  simp [withSuffix]

/-- No unit has a bracket in its name. -/
theorem find?_withSuffix (n name : String) : PhysicalUnit.find? (withSuffix n name) = none := by
  cases hu : PhysicalUnit.find? (withSuffix n name) with
  | none => rfl
  | some u =>
    have hmem : '[' ∈ (withSuffix n name).toList := by
      rw [toList_withSuffix]
      exact List.mem_append_right _ List.mem_cons_self
    exact absurd rfl ((isNameText_of_find? hu).1.plain '[' hmem).2

theorem not_isBrace_withSuffix (n name : String) : Record.isBrace (withSuffix n name) = false := by
  have hlength : 1 < (withSuffix n name).toList.length := by
    rw [toList_withSuffix]
    simp only [List.length_append, List.length_cons, List.length_nil]
    omega
  rw [Record.isBrace, Bool.or_eq_false_iff, beq_eq_false_iff_ne, beq_eq_false_iff_ne]
  constructor
  all_goals
    intro heq
    rw [heq] at hlength
    exact absurd hlength (by decide)

section Quantities

variable {n name : String} {x : Float} {u : PhysicalUnit}

theorem WritesNumber.splitUnit_withSuffix (hn : WritesNumber n x)
    (hu : PhysicalUnit.find? name = some u) :
    splitUnit (withSuffix n name) = (n, some name) := by
  obtain ⟨hname, hne⟩ := isNameText_of_find? hu
  have hopen : '[' ∉ n.toList := hn.not_mem (by decide) (by decide) (by decide)
  have hclose : ']' ∉ n.toList := hn.not_mem (by decide) (by decide) (by decide)
  have hbody : dropLineBreak (withSuffix n name).toList =
      n.toList ++ '[' :: (name.toList ++ [']']) := by
    have hlast : (n.toList ++ '[' :: (name.toList ++ [']'])).getLast? = some ']' := by
      rw [← List.cons_append, ← List.append_assoc, List.getLast?_concat]
    rw [toList_withSuffix, dropLineBreak, hlast]
    exact if_neg (by decide)
  have hnumber : isUnbracketed n.toList = true := by
    obtain ⟨c, hhead, -⟩ := hn.head
    rw [isUnbracketed, Bool.and_eq_true, Bool.not_eq_true', List.isEmpty_eq_false_iff]
    refine ⟨fun hnil => ?_, List.all_eq_true.2 fun c hc => ?_⟩
    · rw [hnil] at hhead
      cases hhead
    · rw [Bool.and_eq_true, bne_iff_ne, bne_iff_ne]
      exact ⟨ne_of_mem_of_not_mem hc hopen, ne_of_mem_of_not_mem hc hclose⟩
  have hunit : isUnbracketed name.toList = true := by
    rw [isUnbracketed, Bool.and_eq_true, Bool.not_eq_true', List.isEmpty_eq_false_iff]
    refine ⟨hne, List.all_eq_true.2 fun c hc => ?_⟩
    rw [Bool.and_eq_true, bne_iff_ne, bne_iff_ne]
    exact (hname.plain c hc).symm
  unfold splitUnit
  dsimp only
  rw [hbody, cut?_append hopen]
  dsimp only
  rw [List.getLast?_concat, List.dropLast_concat, hnumber, hunit, String.ofList_toList,
    String.ofList_toList]
  rfl

variable (settings : Settings) (text : String)

/-- A number without a unit is counted in the unit of all numbers. -/
theorem WritesNumber.readQuantity_shared (hn : WritesNumber n x) (unit : UnitType) :
    readQuantity settings text unit {} (some u) n = pure (u.toSI x) := by
  have hopen : '[' ∉ n.toList := hn.not_mem (by decide) (by decide) (by decide)
  rw [readQuantity, splitUnit_plain hopen]
  dsimp only [factorOf]
  rw [pure_bind, hn.readNumber?_unbounded]
  rfl

/-- The unit behind a number counts it, whatever the unit of all numbers is. -/
theorem WritesNumber.readQuantity_withSuffix (hn : WritesNumber n x)
    (hu : PhysicalUnit.find? name = some u) (shared : Option PhysicalUnit) :
    readQuantity settings text u.unitType {} shared (withSuffix n name) = pure (u.toSI x) := by
  have hread : readUnit? name u.unitType = .ok u := by
    rw [readUnit?, hu]
    exact if_pos rfl
  rw [readQuantity, hn.splitUnit_withSuffix hu]
  dsimp only [factorOf]
  rw [hread]
  dsimp only [Except.map]
  show Logged.ofInput (readNumber? n {} u.factor) = _
  rw [hn.readNumber?_unbounded]
  rfl

/-- A token of a list and the number of SI units that it stands for: a number in the unit of all
numbers, or one with a unit of its own, which has the unit type of the list. -/
inductive IsQuantity (unit : UnitType) (shared : Option PhysicalUnit) : String → Float → Prop
  | plain {n : String} {x : Float} {u : PhysicalUnit} (hn : WritesNumber n x)
      (hshared : shared = some u) : IsQuantity unit shared n (u.toSI x)
  | suffixed {n name : String} {x : Float} {u : PhysicalUnit} (hn : WritesNumber n x)
      (hu : PhysicalUnit.find? name = some u) (hunit : u.unitType = unit) :
      IsQuantity unit shared (withSuffix n name) (u.toSI x)

section Lists

variable {unit : UnitType} {shared : Option PhysicalUnit} {token : String} {y : Float}
  {tokens args : List String} {ys : List Float} {a : Arguments}

theorem IsQuantity.readQuantity (h : IsQuantity unit shared token y) :
    readQuantity settings text unit {} shared token = pure y := by
  cases h with
  | plain hn hshared =>
    subst hshared
    exact hn.readQuantity_shared settings text unit
  | suffixed hn hu hunit =>
    subst hunit
    exact hn.readQuantity_withSuffix settings text hu shared

theorem IsQuantity.find?_unit (h : IsQuantity unit shared token y) :
    PhysicalUnit.find? token = none := by
  cases h with
  | plain hn _ => exact hn.find?_unit
  | suffixed _ _ _ => exact find?_withSuffix _ _

theorem sharedUnit_concat (hu : PhysicalUnit.find? name = some u) (tokens : List String) :
    sharedUnit (tokens ++ [name]) u.unitType = .ok (tokens, some u) := by
  have hread : readUnit? name u.unitType = .ok u := by
    rw [readUnit?, hu]
    exact if_pos rfl
  rw [sharedUnit, List.getLast?_concat]
  dsimp only
  rw [hu, hread, List.dropLast_concat]
  rfl

theorem sharedUnit_eq_none (h : ∀ t ∈ args.getLast?, PhysicalUnit.find? t = none) :
    sharedUnit args unit = .ok (args, none) := by
  unfold sharedUnit
  split
  · rfl
  · next last hlast =>
    rw [h last hlast]
    rfl

/-- A token that is no unit keeps its place when the unit of all numbers is taken off. -/
theorem getElem?_of_sharedUnit (h : sharedUnit args unit = .ok (tokens, shared))
    (htoken : PhysicalUnit.find? token = none) {k : Nat} (hk : args[k]? = some token) :
    tokens[k]? = some token := by
  unfold sharedUnit at h
  split at h
  · cases h
    exact hk
  · next last hlast =>
    split at h
    · next hunit =>
      obtain ⟨_, _, h⟩ := bind_eq_ok.1 h
      cases h
      have hne : k ≠ args.length - 1 := by
        rintro rfl
        rw [← List.getLast?_eq_getElem?, hlast] at hk
        cases hk
        rw [htoken] at hunit
        cases hunit
      have hlt := (List.getElem?_eq_some_iff.1 hk).1
      rw [List.getElem?_dropLast, if_pos (by omega)]
      exact hk
    · cases h
      exact hk

/-- **Lists of quantities are read**, with or without a unit of all numbers. -/
theorem readQuantities_isQuantity {name : Option String} (hargs : a.args = tokens ++ name.toList)
    (hname : ∀ s ∈ name, ∃ u, PhysicalUnit.find? s = some u ∧ u.unitType = unit)
    (h : List.Forall₂ (IsQuantity unit (name.bind PhysicalUnit.find?)) tokens ys) :
    readQuantities settings a unit {} = pure ys := by
  have hshared : sharedUnit a.args unit = .ok (tokens, name.bind PhysicalUnit.find?) := by
    cases name with
    | none =>
      rw [Option.toList_none, List.append_nil] at hargs
      rw [hargs]
      refine sharedUnit_eq_none fun t ht => ?_
      obtain ⟨y, -, hquantity⟩ := exists_mem_of_forall₂ h (List.mem_of_getLast? ht)
      exact hquantity.find?_unit
    | some s =>
      obtain ⟨u, hu, rfl⟩ := hname s rfl
      rw [hargs, Option.toList_some, sharedUnit_concat hu, Option.bind_some, hu]
  rw [readQuantities, hshared]
  exact mapM_eq_pure (h.imp fun _ _ hquantity => hquantity.readQuantity settings a.text)

/-- A number and a unit alone, as two arguments or as one. -/
theorem readQuantities_single (hn : WritesNumber n x) (hu : PhysicalUnit.find? name = some u)
    (hargs : a.args = [n, name] ∨ a.args = [withSuffix n name]) :
    readQuantities settings a u.unitType {} = pure [u.toSI x] := by
  obtain hargs | hargs := hargs
  · have hargs : a.args = [n] ++ (some name).toList := hargs
    refine readQuantities_isQuantity settings hargs ?_ (.cons (.plain hn hu) .nil)
    rintro _ ⟨⟩
    exact ⟨u, hu, rfl⟩
  · have hargs : a.args = [withSuffix n name] ++ (none : Option String).toList := hargs
    exact readQuantities_isQuantity settings hargs nofun (.cons (.suffixed hn hu rfl) .nil)

/-- **A quantity gives its number at its place** in every list that is read. -/
theorem getElem?_of_readQuantities (h : (readQuantities settings a unit {}).Gives ys) {k : Nat}
    (hk : a.args[k]? = some token) (htoken : PhysicalUnit.find? token = none)
    (hquantity : ∀ tokens shared, sharedUnit a.args unit = .ok (tokens, shared) →
      IsQuantity unit shared token y) : ys[k]? = some y := by
  obtain ⟨⟨tokens, shared⟩, hshared, h⟩ := h.of_bind
  obtain ⟨hlt, hplace⟩ :=
    List.getElem?_eq_some_iff.1 (getElem?_of_sharedUnit hshared.of_ofInput htoken hk)
  have hread := h.of_mapM
  have hlt' : k < ys.length := hread.length_eq ▸ hlt
  have hone := hread.get hlt hlt'
  simp only [List.get_eq_getElem] at hone
  rw [hplace, (hquantity tokens shared hshared.of_ofInput).readQuantity] at hone
  rw [List.getElem?_eq_some_iff]
  exact ⟨hlt', hone.of_pure⟩

end Lists

end Quantities

end ModelInputs
