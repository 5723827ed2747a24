import ModelInputs.Proofs.Reference.Providing

/-!
# Values within bounds

What arguments give an input lies within the bounds of its kind: integers and numbers in their
range, lists of a length that is accepted, texts and members among those that may be chosen, and
colours with components in theirs. Of a vector this is so for the components that are given.

* `IntRange.Contains`, `NumberRange.Contains`, `CountRange.Contains`: the bounds;
* `InputKind.Within`: the values within the bounds of a kind;
* **`World.readArguments_within`**: arguments give such a value.
-/

namespace ModelInputs

/-! ## Bounds -/

/-- The integer lies in the range. -/
def IntRange.Contains (r : IntRange) (n : Int) : Prop :=
  (∀ least ∈ r.least, least ≤ n) ∧ ∀ most ∈ r.most, n ≤ most

/-- The number does not lie outside the range. -/
def NumberRange.Contains (r : NumberRange) (x : Float) : Prop :=
  ¬ x < r.least ∧ ¬ x > r.most

/-- A list may have that many items. -/
def CountRange.Contains (c : CountRange) (n : Nat) : Prop :=
  c.least ≤ n ∧ (c.most < Arguments.maxCount → n ≤ c.most)

theorem IntRange.check_eq_ok {r : IntRange} {n : Int} : r.check n = .ok () ↔ r.Contains n := by
  unfold IntRange.check IntRange.Contains
  split
  · next h =>
    refine iff_of_false nofun fun hn => ?_
    rw [Bool.or_eq_true, Option.any_eq_true, Option.any_eq_true] at h
    obtain ⟨least, hleast, hlt⟩ | ⟨most, hmost, hlt⟩ := h
    · exact absurd (hn.1 least hleast) (Int.not_le.2 (of_decide_eq_true hlt))
    · exact absurd (hn.2 most hmost) (Int.not_le.2 (of_decide_eq_true hlt))
  · next h =>
    refine iff_of_true rfl ⟨fun least hleast => ?_, fun most hmost => ?_⟩
    · refine Int.not_lt.1 fun hlt => h ?_
      rw [Bool.or_eq_true, Option.any_eq_true]
      exact .inl ⟨least, hleast, decide_eq_true hlt⟩
    · refine Int.not_lt.1 fun hlt => h ?_
      rw [Bool.or_eq_true, Option.any_eq_true, Option.any_eq_true]
      exact .inr ⟨most, hmost, decide_eq_true hlt⟩

theorem NumberRange.check_eq_ok {r : NumberRange} {x : Float} :
    r.check x = .ok () ↔ r.Contains x := by
  unfold NumberRange.check NumberRange.Contains
  rw [← not_or]
  split
  · next h => exact iff_of_false nofun (not_not_intro (by simpa using h))
  · next h => exact iff_of_true rfl (by simpa using h)

theorem CountRange.contains_of_le {c : CountRange} {n : Nat} (hleast : c.least ≤ n)
    (hmost : n ≤ c.most) : c.Contains n :=
  ⟨hleast, fun _ => hmost⟩

theorem checkCountRange_eq_ok {a : Arguments} {least most : Nat} :
    a.checkCountRange least (some most) = .ok () ↔
      CountRange.Contains ⟨least, most⟩ a.args.length := by
  unfold Arguments.checkCountRange CountRange.Contains Arguments.count
  by_cases hbound : most < Arguments.maxCount
  · have hfilter : (some most).filter (· < Arguments.maxCount) = some most :=
      Option.filter_eq_some_iff.2 ⟨rfl, decide_eq_true hbound⟩
    rw [hfilter]
    dsimp only
    split
    · next heq =>
      rw [World.checkCount_eq_ok, List.contains_iff_mem, List.mem_singleton]
      omega
    split
    · next h => exact iff_of_true rfl ⟨h.1, fun _ => h.2⟩
    · next h => exact iff_of_false nofun fun h' => h ⟨h'.1, h'.2 hbound⟩
  · have hfilter : (some most).filter (· < Arguments.maxCount) = none :=
      Option.filter_eq_none_iff.2 fun _ h => by cases h; exact fun h => hbound (of_decide_eq_true h)
    rw [hfilter]
    dsimp only
    split
    · next h => exact iff_of_true rfl ⟨h, fun h' => absurd h' hbound⟩
    · next h => exact iff_of_false nofun fun h' => h h'.1

theorem contains_of_sized {α : Type} {a : Arguments} {counts : CountRange} {xs ys : List α}
    (h : a.sized counts xs = .ok ys) : ys = xs ∧ counts.Contains xs.length := by
  obtain ⟨heq, hleast, hmost⟩ := World.sized_eq_ok.1 h
  exact ⟨heq, CountRange.contains_of_le hleast hmost⟩

/-! ## Lists that are read item by item -/

theorem Logged.Gives.of_mapM {α β : Type} {f : α → Logged β} {as : List α} {bs : List β}
    (h : (as.mapM f).Gives bs) : List.Forall₂ (fun a b => (f a).Gives b) as bs := by
  induction as generalizing bs with
  | nil =>
    rw [h.of_pure]
    exact .nil
  | cons a as ih =>
    rw [List.mapM_cons] at h
    obtain ⟨b, hb, h⟩ := h.of_bind
    obtain ⟨bs', hbs', h⟩ := h.of_bind
    rw [h.of_pure]
    exact .cons hb (ih hbs')

theorem forall₂_of_mapM {ε α β : Type} {f : α → Except ε β} {as : List α} {bs : List β}
    (h : as.mapM f = .ok bs) : List.Forall₂ (fun a b => f a = .ok b) as bs := by
  induction as generalizing bs with
  | nil =>
    cases h
    exact .nil
  | cons a as ih =>
    rw [List.mapM_cons] at h
    obtain ⟨b, hb, h⟩ := bind_eq_ok.1 h
    obtain ⟨bs', hbs', h⟩ := bind_eq_ok.1 h
    cases h
    exact .cons hb (ih hbs')

theorem forall_mem_of_readGroupsFrom {α : Type} {a : Arguments}
    {readOne : List α → Arguments → Logged α} {P : α → Prop} {found xs : List α}
    {groups : List Arguments} (hfound : ∀ x ∈ found, P x)
    (hone : ∀ found group x, (readOne found group).Gives x → P x)
    (h : (readGroupsFrom a readOne found groups).Gives xs) : ∀ x ∈ xs, P x := by
  induction groups generalizing found with
  | nil =>
    rw [h.of_pure]
    exact hfound
  | cons group groups ih =>
    obtain ⟨x, hx, h⟩ := h.of_bind
    refine ih (fun y hy => ?_) h
    obtain hy | hy := List.mem_append.1 hy
    · exact hfound y hy
    · rw [List.mem_singleton.1 hy]
      exact hone found group x hx.of_adapt

/-- Every element is read from a group, knowing those before it. -/
theorem forall_mem_of_readGroups {α : Type} {a : Arguments}
    {readOne : List α → Arguments → Logged α} {P : α → Prop} {xs : List α}
    (hone : ∀ found group x, (readOne found group).Gives x → P x)
    (h : (readGroups a readOne).Gives xs) : ∀ x ∈ xs, P x := by
  obtain ⟨groups, -, h⟩ := h.of_bind
  exact forall_mem_of_readGroupsFrom (List.forall_mem_nil P) hone h

/-! ## Numbers -/

theorem contains_of_readInteger? {token : String} {range : IntRange} {n : Int}
    (h : readInteger? token range = .ok n) : range.Contains n := by
  unfold readInteger? at h
  split at h
  · obtain ⟨_, hcheck, rfl⟩ := map_eq_ok.1 h
    exact IntRange.check_eq_ok.1 hcheck
  · cases h

theorem contains_of_readNumber? {token : String} {range : NumberRange} {factor x : Float}
    (h : readNumber? token range factor = .ok x) : range.Contains x := by
  obtain ⟨y, -, h⟩ := bind_eq_ok.1 h
  obtain ⟨_, hcheck, h⟩ := bind_eq_ok.1 h
  cases h
  exact NumberRange.check_eq_ok.1 hcheck

/-- All numbers that are read lie in the range. -/
theorem contains_of_readQuantities {settings : Settings} {a : Arguments} {unit : UnitType}
    {range : NumberRange} {xs : List Float}
    (h : (readQuantities settings a unit range).Gives xs) : ∀ x ∈ xs, range.Contains x := by
  obtain ⟨⟨tokens, shared⟩, -, h⟩ := h.of_bind
  refine forall_mem_of_forall₂ h.of_mapM fun token x hx => ?_
  obtain ⟨factor, -, hx⟩ := hx.of_bind
  exact contains_of_readNumber? hx.of_ofInput

/-- The vector of some components; those that are missing are zero. -/
def Vector3.filled (xs : List Float) : Vector3 :=
  ⟨xs.getD 0 0.0, xs.getD 1 0.0, xs.getD 2 0.0⟩

theorem Vector3.take_filled {xs : List Float} (h : xs.length ≤ 3) :
    (filled xs).toList.take xs.length = xs := by
  match xs with
  | [] | [_] | [_, _] | [_, _, _] => rfl
  | _ :: _ :: _ :: _ :: _ =>
    simp only [List.length_cons] at h
    omega

/-- A vector is read from one, two or three components in the range. -/
theorem readVector_gives {settings : Settings} {a : Arguments} {unit : UnitType}
    {range : NumberRange} {v : Vector3} (h : (readVector settings a unit range).Gives v) :
    ∃ xs : List Float, (1 ≤ xs.length ∧ xs.length ≤ 3) ∧ v = .filled xs ∧
      ∀ x ∈ xs, range.Contains x := by
  obtain ⟨_, -, h⟩ := h.of_bind
  obtain ⟨xs, hxs, h⟩ := h.of_bind
  refine ⟨xs, ?_, ?_, contains_of_readQuantities hxs⟩
  · split at h
    · simp
    · simp
    · simp
    · exact absurd h.of_ofInput nofun
  · split at h
    · exact h.of_pure
    · exact h.of_pure
    · exact h.of_pure
    · exact absurd h.of_ofInput nofun

/-! ## Colours -/

/-- Every component is a number from zero to one as it was given, or one from zero to 255 as a
fraction. -/
def Colour.IsScaled (c : Colour) : Prop :=
  ∀ x ∈ [c.red, c.green, c.blue, c.alpha],
    ∃ y, 0.0 ≤ y ∧ y ≤ 255.0 ∧ (¬ y > 1.0 ∧ x = y ∨ x = y / 255.0)

namespace Colour

theorem isScaled_of_mem_named : ∀ entry ∈ named, entry.2.IsScaled := by
  have hall : ∀ entry ∈ named, ∀ x ∈ [entry.2.red, entry.2.green, entry.2.blue, entry.2.alpha],
      0.0 ≤ x ∧ x ≤ 255.0 ∧ ¬ x > 1.0 := by decide
  intro entry hentry x hx
  obtain ⟨hleast, hmost, hone⟩ := hall entry hentry x hx
  exact ⟨x, hleast, hmost, .inl ⟨hone, rfl⟩⟩

theorem isScaled_of_find? {name : String} {c : Colour} (h : find? name = some c) : c.IsScaled := by
  obtain ⟨before, behind, hnamed, -⟩ := List.lookup_eq_some_iff.1 h
  refine isScaled_of_mem_named (Text.lower name, c) ?_
  rw [hnamed]
  exact List.mem_append_right _ (.head _)

theorem readComponent?_eq_ok {a : Arguments} {token : String} {x : Float}
    (h : readComponent? a token = .ok x) : 0.0 ≤ x ∧ x ≤ 255.0 := by
  unfold readComponent? at h
  split at h
  · split at h
    · next hx =>
      cases h
      exact hx
    · cases h
  · cases h

theorem scaled_cases (x : Float) : ¬ x > 1.0 ∧ scaled x = x ∨ scaled x = x / 255.0 := by
  unfold scaled
  split
  · exact .inr rfl
  · next h => exact .inl ⟨h, rfl⟩

/-- **A colour that is read has components that are scaled.** -/
theorem isScaled_of_read? {a : Arguments} {c : Colour} (h : read? a = .ok c) : c.IsScaled := by
  have halpha {token : String} {x : Float} (h : readComponent? a token = .ok x) :
      ∃ y, 0.0 ≤ y ∧ y ≤ 255.0 ∧ (¬ y > 1.0 ∧ scaled x = y ∨ scaled x = y / 255.0) := by
    obtain ⟨hleast, hmost⟩ := readComponent?_eq_ok h
    exact ⟨x, hleast, hmost, scaled_cases x⟩
  obtain ⟨_, -, h⟩ := bind_eq_ok.1 h
  split at h
  · next c' hfound _ =>
    cases h
    obtain ⟨name, -, hname⟩ := Option.bind_eq_some_iff.1 hfound
    exact isScaled_of_find? hname
  · next c' hfound _ =>
    obtain ⟨x, hx, h⟩ := bind_eq_ok.1 h
    cases h
    obtain ⟨name, -, hname⟩ := Option.bind_eq_some_iff.1 hfound
    have hscaled := isScaled_of_find? hname
    intro y hy
    simp only [List.mem_cons, List.not_mem_nil, or_false] at hy
    obtain rfl | rfl | rfl | rfl := hy
    · exact hscaled _ (.head _)
    · exact hscaled _ (.tail _ (.head _))
    · exact hscaled _ (.tail _ (.tail _ (.head _)))
    · exact halpha hx
  · obtain ⟨r, hr, h⟩ := bind_eq_ok.1 h
    obtain ⟨g, hg, h⟩ := bind_eq_ok.1 h
    obtain ⟨b, hb, h⟩ := bind_eq_ok.1 h
    dsimp only at h
    -- the three components are scaled together
    have hcomponent {x : Float} (hx : 0.0 ≤ x ∧ x ≤ 255.0) (hmem : x = r ∨ x = g ∨ x = b) :
        ∃ y, 0.0 ≤ y ∧ y ≤ 255.0 ∧ (¬ y > 1.0 ∧
          (if r > 1.0 || g > 1.0 || b > 1.0 then x / 255.0 else x) = y ∨
          (if r > 1.0 || g > 1.0 || b > 1.0 then x / 255.0 else x) = y / 255.0) := by
      refine ⟨x, hx.1, hx.2, ?_⟩
      split
      · exact .inr rfl
      · next hone =>
        simp only [Bool.or_eq_true, decide_eq_true_eq, not_or] at hone
        refine .inl ⟨?_, rfl⟩
        obtain rfl | rfl | rfl := hmem
        · exact hone.1.1
        · exact hone.1.2
        · exact hone.2
    have hred := hcomponent (readComponent?_eq_ok hr) (.inl rfl)
    have hgreen := hcomponent (readComponent?_eq_ok hg) (.inr (.inl rfl))
    have hblue := hcomponent (readComponent?_eq_ok hb) (.inr (.inr rfl))
    split at h
    · cases h
      have hone : ∃ y : Float, 0.0 ≤ y ∧ y ≤ 255.0 ∧ (¬ y > 1.0 ∧ 1.0 = y ∨ 1.0 = y / 255.0) :=
        ⟨1.0, by decide, by decide, .inl ⟨by decide, rfl⟩⟩
      intro x hx
      simp only [List.mem_cons, List.not_mem_nil, or_false] at hx
      obtain rfl | rfl | rfl | rfl := hx
      · exact hred
      · exact hgreen
      · exact hblue
      · exact hone
    · obtain ⟨x, hx, h⟩ := bind_eq_ok.1 h
      cases h
      intro y hy
      simp only [List.mem_cons, List.not_mem_nil, or_false] at hy
      obtain rfl | rfl | rfl | rfl := hy
      · exact hred
      · exact hgreen
      · exact hblue
      · exact halpha hx
  · cases h

end Colour

/-! ## By kind -/

/-- The values of a kind that lie within its bounds. Which entities a value refers to is not asked
here. -/
inductive InputKind.Within : InputKind → Value → Prop where
  | bool {b : Bool} : Within .boolean (.bool b)
  | int {range : IntRange} {n : Int} : range.Contains n → Within (.integer range) (.int n)
  | float {unit : UnitType} {range : NumberRange} {x : Float} :
    range.Contains x → Within (.number unit range) (.float x)
  | text {s : String} : '\'' ∉ s.toList → Within .text (.text s)
  | choice {choices : List String} {caseSensitive : Bool} {s : String} :
    s ∈ choices → Within (.choice choices caseSensitive) (.text s)
  | member {enumeration : Enumeration} {m : EnumMember} :
    m ∈ enumeration.members → Within (.member enumeration) (.member m)
  | date {d : DateTime} : Within .date (.date d)
  | colour {c : Colour} : c.IsScaled → Within .colour (.colour c)
  /-- the components that are given lie in the range -/
  | vector {unit : UnitType} {range : NumberRange} {v : Vector3} {given : Nat} :
    (1 ≤ given ∧ given ≤ 3) → (∀ x ∈ v.toList.take given, range.Contains x) →
    Within (.vector unit range) (.vector v)
  | ints {range : IntRange} {counts : CountRange} {ns : List Int} :
    counts.Contains ns.length → (∀ n ∈ ns, range.Contains n) →
    Within (.integers range counts) (.list (ns.map .int))
  | floats {unit : UnitType} {range : NumberRange} {counts : CountRange} {xs : List Float} :
    counts.Contains xs.length → (∀ x ∈ xs, range.Contains x) →
    Within (.numbers unit range counts) (.list (xs.map .float))
  | texts {choices : Option (List String)} {counts : CountRange} {ss : List String} :
    counts.Contains ss.length → (∀ s ∈ ss, '\'' ∉ s.toList) →
    (∀ allowed ∈ choices, ∀ s ∈ ss, s ∈ allowed) →
    Within (.texts choices counts) (.list (ss.map .text))
  | colours {counts : CountRange} {cs : List Colour} :
    counts.Contains cs.length → (∀ c ∈ cs, c.IsScaled) →
    Within (.colours counts) (.list (cs.map .colour))
  | vectors {unit : UnitType} {counts : CountRange} {vs : List Vector3} :
    counts.Contains vs.length → Within (.vectors unit counts) (.list (vs.map .vector))
  | entity {type : TypeRef} {e : EntityId} : Within (.entity type) (.entity e)
  | interfaceEntity {type : TypeRef} {e : EntityId} : Within (.interfaceEntity type) (.entity e)
  | relativeEntity {type : TypeRef} {e : EntityId} : Within (.relativeEntity type) (.entity e)
  | entities {type : TypeRef} {unique : Bool} {counts : CountRange} {es : List EntityId} :
    counts.Contains es.length → Within (.entities type unique counts) (.ofEntities es)
  | interfaceEntities {type : TypeRef} {unique : Bool} {counts : CountRange} {es : List EntityId} :
    counts.Contains es.length → Within (.interfaceEntities type unique counts) (.ofEntities es)
  | entityLists {type : TypeRef} {unique : Bool} {counts : CountRange}
    {lists : List (List EntityId)} :
    counts.Contains lists.length → Within (.entityLists type unique counts) (.ofEntityLists lists)
  | keyLists {keyType valueType : TypeRef} {keyless : List EntityId}
    {lists : List (EntityId × List EntityId)} :
    Within (.keyLists keyType valueType keyless) (.map (Value.keyEntries lists))
  | keyword {e : EntityId} {id : InputId} : Within .keyword (.keywordRef e id)
  | chain {unit : Option UnitType} {c : OutputChain} : Within (.output unit) (.chain c)
  | sampleEntity {unit : UnitType} {range : NumberRange} {e : EntityId} :
    Within (.sample unit range) (.entity e)
  | sampler {unit : UnitType} {range : NumberRange} {s : Sampler} :
    s.unitType = unit → (∀ x u, s = .constant x u → range.Contains x) →
    Within (.sample unit range) (.sampler s)
  | provider {type : TypeRef} {invalid : List TypeRef} {p : Provider} :
    Within (.provider type invalid) (.provider p)
  | attributes {ids : List AttributeId} :
    Within .attributes (.list (ids.map fun a => .handle (.attribute a)))
  | customOutputs {outputs : List CustomOutput} :
    Within .customOutputs (.list (outputs.map fun o => .handle (.custom o)))

section

variable {a : Arguments} {v : Value}

theorem readText?_within (h : readText? a = .ok v) : InputKind.text.Within v := by
  obtain ⟨s, -, h⟩ := bind_eq_ok.1 h
  split at h
  · cases h
  · next hquote =>
    cases h
    exact .text fun hmem => hquote (List.contains_iff_mem.2 hmem)

theorem readChoice?_within {choices : List String} {caseSensitive : Bool}
    (h : readChoice? a choices caseSensitive = .ok v) :
    (InputKind.choice choices caseSensitive).Within v := by
  obtain ⟨token, -, h⟩ := bind_eq_ok.1 h
  dsimp only at h
  split at h
  · next hfound =>
    cases h
    exact .choice (List.mem_of_find?_eq_some hfound)
  · cases h

theorem readMember?_within {enumeration : Enumeration} (h : readMember? a enumeration = .ok v) :
    (InputKind.member enumeration).Within v := by
  obtain ⟨token, -, h⟩ := bind_eq_ok.1 h
  split at h
  · next hfound =>
    cases h
    exact .member (List.mem_of_find?_eq_some hfound)
  · cases h

theorem readTexts?_within {choices : Option (List String)} {counts : CountRange}
    (h : readTexts? a choices counts = .ok v) : (InputKind.texts choices counts).Within v := by
  obtain ⟨_, hcounts, h⟩ := bind_eq_ok.1 h
  have hlength := checkCountRange_eq_ok.1 hcounts
  split at h
  · cases h
  next hquote =>
  have hquotes : ∀ s ∈ a.args, '\'' ∉ s.toList := fun s hs hmem =>
    List.find?_eq_none.1 hquote s hs (List.contains_iff_mem.2 hmem)
  split at h
  · cases h
    exact .texts hlength hquotes nofun
  split at h
  · cases h
  · next allowed _ hall =>
    cases h
    refine .texts hlength hquotes ?_
    rintro _ ⟨⟩ s hs
    have hs := List.find?_eq_none.1 hall s hs
    simpa using hs

theorem readVectors_within {settings : Settings} {unit : UnitType} {counts : CountRange}
    (h : (readVectors settings a unit counts).Gives v) : (InputKind.vectors unit counts).Within v := by
  unfold readVectors at h
  dsimp only at h
  obtain ⟨_, -, h⟩ := h.of_bind
  obtain ⟨_, -, h⟩ := h.of_bind
  obtain ⟨vs, hsized, h⟩ := h.of_bind
  obtain ⟨heq, hlength⟩ := contains_of_sized hsized.of_ofInput
  rw [h.of_pure, heq]
  exact .vectors hlength

end

namespace World

variable {w : World} {this : Option EntityId} {a : Arguments} {v : Value}

theorem readSample_within {unit : UnitType} {range : NumberRange}
    (h : (w.readSample this unit range a).Gives v) : (InputKind.sample unit range).Within v := by
  have hconstant (h : (w.constantSample unit range a).Gives v) :
      (InputKind.sample unit range).Within v := by
    obtain ⟨xs, hxs, h⟩ := h.of_bind
    split at h
    · rw [h.of_pure]
      refine .sampler rfl ?_
      rintro _ _ ⟨⟩
      exact contains_of_readQuantities hxs _ (.head _)
    · exact absurd h.of_ofInput nofun
  obtain ⟨_, -, h⟩ := h.of_bind
  split at h
  · unfold shortSample at h
    split at h
    · obtain ⟨_, -, h⟩ := h.of_bind
      rw [h.of_pure]
      exact .sampleEntity
    split at h
    · exact hconstant h
    · obtain ⟨exp, -, h⟩ := h.of_bind
      rw [h.of_pure]
      exact .sampler rfl nofun
  · unfold longSample at h
    split at h
    · rw [chainSample_eq_ok h.of_ofExcept]
      exact .sampler rfl nofun
    split at h
    · exact absurd h Logged.not_gives_throw
    · exact hconstant h

/-- **Arguments give an input a value within the bounds of its kind.** -/
theorem readArguments_within {i : Input} (h : (w.readArguments this i a).Gives v) :
    i.kind.Within v := by
  have hfits := readArguments_fits h
  cases hk : i.kind with
  | boolean =>
    simp only [readArguments, hk] at h
    obtain ⟨token, -, h⟩ := bind_eq_ok.1 h.of_ofInput
    obtain ⟨b, -, h⟩ := bind_eq_ok.1 h
    cases h
    exact .bool
  | integer range =>
    simp only [readArguments, hk] at h
    obtain ⟨token, -, h⟩ := bind_eq_ok.1 h.of_ofInput
    obtain ⟨n, hn, h⟩ := bind_eq_ok.1 h
    cases h
    exact .int (contains_of_readInteger? hn)
  | number unit range =>
    simp only [readArguments, hk] at h
    obtain ⟨_, -, h⟩ := h.of_bind
    obtain ⟨xs, hxs, h⟩ := h.of_bind
    split at h
    · rw [h.of_pure]
      exact .float (contains_of_readQuantities hxs _ (.head _))
    · cases h.of_ofInput
  | text =>
    simp only [readArguments, hk] at h
    exact readText?_within h.of_ofInput
  | choice choices caseSensitive =>
    simp only [readArguments, hk] at h
    exact readChoice?_within h.of_ofInput
  | member enumeration =>
    simp only [readArguments, hk] at h
    exact readMember?_within h.of_ofInput
  | colour =>
    simp only [readArguments, hk] at h
    obtain ⟨c, hc, rfl⟩ := map_eq_ok.1 h.of_ofInput
    exact .colour (Colour.isScaled_of_read? hc)
  | vector unit range =>
    simp only [readArguments, hk] at h
    obtain ⟨x, hx, h⟩ := h.of_bind
    obtain ⟨xs, hlength, rfl, hxs⟩ := readVector_gives hx
    rw [h.of_pure]
    refine .vector hlength fun y hy => hxs y ?_
    rwa [Vector3.take_filled hlength.2] at hy
  | integers range counts =>
    simp only [readArguments, hk] at h
    obtain ⟨_, hcounts, h⟩ := bind_eq_ok.1 h.of_ofInput
    obtain ⟨ns, hns, h⟩ := bind_eq_ok.1 h
    cases h
    have hall := forall₂_of_mapM hns
    refine .ints (hall.length_eq ▸ checkCountRange_eq_ok.1 hcounts) ?_
    exact forall_mem_of_forall₂ hall fun _ _ => contains_of_readInteger?
  | numbers unit range counts =>
    simp only [readArguments, hk] at h
    obtain ⟨xs, hxs, h⟩ := h.of_bind
    obtain ⟨sized, hsized, h⟩ := h.of_bind
    obtain ⟨heq, hlength⟩ := contains_of_sized hsized.of_ofInput
    rw [h.of_pure, heq]
    exact .floats hlength (contains_of_readQuantities hxs)
  | texts choices counts =>
    simp only [readArguments, hk] at h
    exact readTexts?_within h.of_ofInput
  | colours counts =>
    simp only [readArguments, hk] at h
    obtain ⟨cs, hcs, h⟩ := h.of_bind
    obtain ⟨sized, hsized, h⟩ := h.of_bind
    obtain ⟨heq, hlength⟩ := contains_of_sized hsized.of_ofInput
    rw [h.of_pure, heq]
    refine .colours hlength (forall_mem_of_readGroups (fun _ _ c hc => ?_) hcs)
    exact Colour.isScaled_of_read? hc.of_ofInput
  | vectors unit counts =>
    simp only [readArguments, hk] at h
    exact readVectors_within h
  | entities type unique counts =>
    simp only [readArguments, hk] at h
    obtain ⟨es, -, h⟩ := h.of_bind
    obtain ⟨sized, hsized, h⟩ := h.of_bind
    obtain ⟨heq, hlength⟩ := contains_of_sized hsized.of_ofInput
    rw [h.of_pure, heq]
    exact .entities hlength
  | interfaceEntities type unique counts =>
    simp only [readArguments, hk] at h
    obtain ⟨_, hcounts, h⟩ := bind_eq_ok.1 h.of_ofInput
    obtain ⟨es, hes, h⟩ := bind_eq_ok.1 h
    cases h
    refine .interfaceEntities ?_
    rw [← (readInterfaces?_eq_ok.1 hes).1.length_eq]
    exact checkCountRange_eq_ok.1 hcounts
  | entityLists type unique counts =>
    simp only [readArguments, hk] at h
    obtain ⟨lists, -, h⟩ := h.of_bind
    obtain ⟨sized, hsized, h⟩ := h.of_bind
    obtain ⟨heq, hlength⟩ := contains_of_sized hsized.of_ofInput
    rw [h.of_pure, heq]
    exact .entityLists hlength
  | sample unit range =>
    simp only [readArguments, hk] at h
    exact readSample_within h
  | _ =>
    -- the kind has no bounds besides the form of its values
    rw [hk] at hfits
    cases hfits <;> constructor

end World

end ModelInputs
