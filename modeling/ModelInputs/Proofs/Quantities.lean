import ModelInputs.Proofs.Change.Frame
import ModelInputs.Proofs.Keywords
import ModelInputs.Proofs.Reading.Lists

/-!
# Numbers and colours come back

Inputs of numbers and colours show their values in the syntax that they read: integers and numbers
as they are, quantities in SI units with the unit behind them, colours by name or by their
components, and the elements of lists of vectors and colours in groups. So a value that arguments
have given comes back from its text. What the text leaves out does not change the value: the sign of
a zero, and an opacity of one.

* `InputKind.holdsNumbers`: the kinds of inputs;
* `World.Returns`: a value that comes back from its text;
* `World.returns_ints`, `World.returns_floats`, `World.returns_colours`, `World.returns_vectors`:
  values within the bounds of a kind come back;
* `World.returns_of_gives`: what arguments give comes back;
* **`World.textOf_comesBack`**: the text of an input that has accepted arguments is accepted.
-/

namespace ModelInputs

open Number Record

namespace InputKind

/-- The kind holds integers, quantities or colours, which it reads as it writes them. A single
vector is not among them: its components that were not given are written too, whatever the range. -/
def holdsNumbers : InputKind → Bool
  | integer .. | integers .. | number .. | numbers .. | vectors .. | colour | colours .. => true
  | _ => false

theorem holdsValue_of_holdsNumbers {kind : InputKind} (h : kind.holdsNumbers = true) :
    kind.holdsValue = true := by
  cases kind with
  | keyLists | attributes | customOutputs | deprecated => cases h
  | _ => rfl

end InputKind

namespace Value

/-- The floating point numbers of a value that is no list. -/
def leafNumbers : Value → List Float
  | float x => [x]
  | colour c => [c.red, c.green, c.blue, c.alpha]
  | vector v => v.toList
  | _ => []

/-- The floating point numbers of a value. -/
def numbers : Value → List Float
  | list vs => vs.flatMap leafNumbers
  | v => v.leafNumbers

theorem same_list_map {α : Type} {f : α → Value} {xs ys : List α}
    (h : List.Forall₂ (fun x y => (f y).same (f x) = true) xs ys) :
    (list (ys.map f)).same (list (xs.map f)) = true := by
  show sameItems (ys.map f) (xs.map f) = true
  induction h with
  | nil => rfl
  | cons hx _ ih =>
    rw [List.map_cons, List.map_cons, sameItems, hx, ih]
    rfl

theorem same_vector {v v' : Vector3} (hv : ∀ x ∈ v.toList, x.isNaN = false)
    (h : List.Forall₂ SameNumber v.toList v'.toList) : (vector v').same (vector v) = true := by
  simp only [Vector3.toList, List.forall_mem_cons] at hv
  simp only [Vector3.toList, List.forall₂_cons] at h
  show (v'.x == v.x && v'.y == v.y && v'.z == v.z) = true
  rw [h.1.beq hv.1, h.2.1.beq hv.2.1, h.2.2.1.beq hv.2.2.1]
  rfl

end Value

namespace World

/-- The value has a text, and arguments with the tokens of that text give the input an equal
value. -/
def Returns (w : World) (i : Input) (v : Value) : Prop :=
  ∃ text, w.textOf i v = .ok text ∧ isBalanced (tokenize text) = true ∧
    ∀ (this : Option EntityId) (a : Arguments), a.args = tokenize text →
      ∃ v', w.readArguments this i a = pure v' ∧ v'.same v = true

variable {w : World} {i : Input} {unit : UnitType} {counts : CountRange}

/-! ## Integers -/

theorem returns_int {range : IntRange} {n : Int} (hk : i.kind = .integer range)
    (hdigits : n.natAbs < 10 ^ maxIntDigits) (hrange : range.Contains n) :
    w.Returns i (.int n) := by
  have hword := (isWrittenNumber_toString n).isWord
  refine ⟨toString n, by rw [textOf, hk]; rfl, ?_, fun this a hargs => ⟨.int n, ?_, ?_⟩⟩
  · rw [hword.tokenize_eq]
    exact isBalanced_words (List.forall_mem_singleton.2 hword.not_isBrace)
  · rw [hword.tokenize_eq] at hargs
    have hsingle : a.single? = .ok (toString n) := by
      rw [Arguments.single?, Arguments.checkCount, Arguments.count, hargs]
      rfl
    have hread : readInteger? (toString n) range = .ok n := by
      rw [readInteger?, readInt?_toString hdigits]
      dsimp only
      rw [IntRange.check_eq_ok.2 hrange]
      rfl
    rw [readArguments, hk]
    dsimp only
    rw [hsingle, ok_bind, hread]
    rfl
  · exact beq_self_eq_true n

theorem returns_ints {range : IntRange} {ns : List Int} (hk : i.kind = .integers range counts)
    (hcounts : counts.Contains ns.length)
    (h : ∀ n ∈ ns, n.natAbs < 10 ^ maxIntDigits ∧ range.Contains n) :
    w.Returns i (.list (ns.map .int)) := by
  have hwords : ∀ s ∈ ns.map toString, IsWord s :=
    List.forall_mem_map.2 fun n _ => (isWrittenNumber_toString n).isWord
  refine ⟨" ".intercalate (ns.map toString), ?_, ?_,
    fun this a hargs => ⟨.list (ns.map .int), ?_, ?_⟩⟩
  · rw [textOf, hk]
    show Except.ok (" ".intercalate ((ns.map Value.int).map (·.display w.names))) = _
    rw [List.map_map]
    rfl
  · rw [tokenize_words hwords]
    exact isBalanced_words fun t ht => (hwords t ht).not_isBrace
  · rw [tokenize_words hwords] at hargs
    have hcount : a.checkCounts counts = .ok () := by
      rw [Arguments.checkCounts, checkCountRange_eq_ok, hargs, List.length_map]
      exact hcounts
    rw [readArguments, hk]
    dsimp only
    rw [hcount, ok_bind, hargs, readIntegers_texts h]
    rfl
  · exact Value.same_list_map (List.forall₂_same.2 fun n _ => beq_self_eq_true n)

/-! ## Quantities -/

theorem numbersText_list (xs : List Float) :
    numbersText (.list (xs.map .float)) = .ok (" ".intercalate (xs.map plainText)) := by
  have hmembers : (xs.map Value.float).mapM numberText = .ok (xs.map plainText) :=
    mapM_map_eq_ok (f := numberText) (g := .float) (r := plainText) (fun _ => rfl) xs
  show (do return " ".intercalate (← (xs.map Value.float).mapM numberText)) = _
  rw [hmembers]
  rfl

theorem returns_float {range : NumberRange} {x : Float} (hk : i.kind = .number unit range)
    (hx : ComesBack x) (hrange : range.Contains x) : w.Returns i (.float x) := by
  have hnumber : ∀ x' ∈ [x], x'.isNaN = false := List.forall_mem_singleton.2 hx.isNumber
  have htokens : tokenize (withUnit (plainText x) unit) = quantityTokens unit [x] := by
    rw [← tokenize_quantities unit hnumber, List.map_singleton, String.intercalate_singleton]
  refine ⟨withUnit (plainText x) unit, by rw [textOf, hk]; rfl, ?_, fun this a hargs => ?_⟩
  · rw [htokens]
    exact isBalanced_words (not_isBrace_quantityTokens hnumber)
  · rw [htokens] at hargs
    obtain ⟨ys, hread, hys⟩ := readQuantities_plainTexts w.settings hargs
      (List.forall_mem_singleton.2 ⟨hx, hrange⟩)
    obtain ⟨y, rfl⟩ := List.length_eq_one_iff.1 hys.length_eq.symm
    have hcount : a.checkCountRange 1 (some 2) = .ok () := by
      obtain ⟨hleast, hmost⟩ := length_quantityTokens unit [x]
      rw [checkCountRange_eq_ok, hargs]
      exact ⟨hleast, fun _ => hmost⟩
    refine ⟨.float y, ?_, (List.forall₂_cons.1 hys).1.beq hx.isNumber⟩
    rw [readArguments, hk]
    dsimp only
    rw [hcount, hread]
    rfl

theorem returns_floats {range : NumberRange} {xs : List Float}
    (hk : i.kind = .numbers unit range counts)
    (hcounts : counts.least ≤ xs.length ∧ xs.length ≤ counts.most)
    (h : ∀ x ∈ xs, ComesBack x ∧ range.Contains x) : w.Returns i (.list (xs.map .float)) := by
  have hreturns (text : String) (tokens : List String)
      (htext : w.textOf i (.list (xs.map .float)) = .ok text)
      (htokens : tokenize text = tokens) (hwords : ∀ t ∈ tokens, isBrace t = false)
      (hread : ∀ a : Arguments, a.args = tokens → ∃ ys,
        readQuantities w.settings a unit range = pure ys ∧ List.Forall₂ SameNumber xs ys) :
      w.Returns i (.list (xs.map .float)) := by
    refine ⟨text, htext, htokens ▸ isBalanced_words hwords, fun this a hargs => ?_⟩
    obtain ⟨ys, hread, hys⟩ := hread a (hargs.trans htokens)
    refine ⟨.list (ys.map .float), ?_, Value.same_list_map ?_⟩
    · rw [readArguments, hk]
      dsimp only
      rw [hread, pure_bind, sized_eq (hys.length_eq ▸ hcounts)]
      rfl
    · have hnumber : ∀ x ∈ xs, x.isNaN = false := fun x hx => (h x hx).1.isNumber
      exact ((List.forall₂_and_left ..).2 ⟨hnumber, hys⟩).imp fun x y hxy => hxy.2.beq hxy.1
  cases xs with
  | nil =>
    refine hreturns "" [] (by rw [textOf, hk]; rfl) rfl (List.forall_mem_nil _) fun a hargs =>
      ⟨[], ?_, .nil⟩
    rw [readQuantities, hargs]
    rfl
  | cons x xs =>
    have hnumber : ∀ y ∈ x :: xs, y.isNaN = false := fun y hy => (h y hy).1.isNumber
    refine hreturns _ _ ?_ (tokenize_quantities unit hnumber)
      (not_isBrace_quantityTokens hnumber) fun a hargs => readQuantities_plainTexts w.settings hargs h
    rw [textOf, hk]
    show (do return withUnit (← numbersText (.list ((x :: xs).map .float))) unit) = _
    rw [numbersText_list]
    rfl

/-! ## Colours -/

theorem returns_colour {c : Colour} (hk : i.kind = .colour)
    (h : ∀ x ∈ [c.red, c.green, c.blue, c.alpha], Colour.IsFraction x) :
    w.Returns i (.colour c) := by
  have htokens := Colour.tokenize_text h
  refine ⟨c.text, by rw [textOf, hk]; rfl, ?_, fun this a hargs => ?_⟩
  · rw [htokens]
    exact isBalanced_words fun t ht => (Colour.isWord_of_mem_tokens h t ht).not_isBrace
  · obtain ⟨c', hread, hsame⟩ := Colour.read?_tokens (hargs.trans htokens) h
    refine ⟨.colour c', ?_, hsame⟩
    rw [readArguments, hk]
    dsimp only
    rw [hread]
    rfl

theorem returns_colours {cs : List Colour} (hk : i.kind = .colours counts)
    (hcounts : counts.least ≤ cs.length ∧ cs.length ≤ counts.most)
    (h : ∀ c ∈ cs, ∀ x ∈ [c.red, c.green, c.blue, c.alpha], Colour.IsFraction x) :
    w.Returns i (.list (cs.map .colour)) := by
  have hwords : ∀ c ∈ cs, ∀ s ∈ c.tokens, IsWord s := fun c hc =>
    Colour.isWord_of_mem_tokens (h c hc)
  have htokens : tokenize (bracedAll (cs.map Colour.text)) = grouped (cs.map Colour.tokens) := by
    rw [tokenize_bracedAll, List.map_map]
    · exact congrArg grouped (List.map_congr_left fun c hc => Colour.tokenize_text (h c hc))
    · exact List.forall_mem_map.2 fun c hc =>
        .intercalate fun s hs => (hwords c hc s hs).isBare
  refine ⟨bracedAll (cs.map Colour.text), ?_, ?_, fun this a hargs => ?_⟩
  · have hmembers : (cs.map Value.colour).mapM colourText = .ok (cs.map Colour.text) :=
      mapM_map_eq_ok (f := colourText) (g := .colour) (r := Colour.text) (fun _ => rfl) cs
    rw [textOf, hk]
    show (do return bracedAll (← (cs.map Value.colour).mapM colourText)) = _
    rw [hmembers]
    rfl
  · rw [htokens]
    exact isBalanced_grouped
      (List.forall_mem_map.2 fun c hc t ht => (hwords c hc t ht).not_isBrace)
  · obtain ⟨cs', hread, hcs'⟩ := readColours_grouped (hargs.trans htokens) h
    refine ⟨.list (cs'.map .colour), ?_, Value.same_list_map hcs'⟩
    rw [readArguments, hk]
    dsimp only
    rw [hread, pure_bind, sized_eq (hcs'.length_eq ▸ hcounts)]
    rfl

/-! ## Vectors -/

/-- A vector as the text of its components. -/
def vectorText (v : Vector3) : String :=
  " ".intercalate (v.toList.map plainText)

theorem mapM_numbersText (vs : List Vector3) :
    (vs.map Value.vector).mapM numbersText = .ok (vs.map vectorText) :=
  mapM_map_eq_ok (f := numbersText) (g := .vector) (r := vectorText) (fun _ => rfl) vs

theorem returns_vectors {vs : List Vector3} (hk : i.kind = .vectors unit counts)
    (hcounts : counts.least ≤ vs.length ∧ vs.length ≤ counts.most)
    (h : ∀ v ∈ vs, ∀ x ∈ v.toList, ComesBack x ∧ NumberRange.Contains {} x) :
    w.Returns i (.list (vs.map .vector)) := by
  have hwords : ∀ v ∈ vs, ∀ s ∈ v.toList.map plainText, IsWord s := fun v hv =>
    List.forall_mem_map.2 fun x hx => (isWrittenNumber_plainText (h v hv x hx).1.isNumber).isWord
  have hreturns (text : String) (shared : List String)
      (htext : w.textOf i (.list (vs.map .vector)) = .ok text)
      (htokens : tokenize text = grouped (vs.map fun v => v.toList.map plainText) ++ shared)
      (hshared : vs = [] ∧ shared = [] ∨ shared = unitTokens unit) :
      w.Returns i (.list (vs.map .vector)) := by
    refine ⟨text, htext, ?_, fun this a hargs => ?_⟩
    · rw [htokens]
      refine isBalanced_grouped_append
        (List.forall_mem_map.2 fun v hv t ht => (hwords v hv t ht).not_isBrace) ?_
      obtain ⟨-, rfl⟩ | rfl := hshared
      · exact nofun
      · exact not_isBrace_unitTokens
    · rw [htokens] at hargs
      have hsplit : splitVectorUnit a =
          (grouped (vs.map fun v => v.toList.map plainText), shared) := by
        obtain ⟨rfl, rfl⟩ | rfl := hshared
        · rw [splitVectorUnit, hargs]
          rfl
        · exact splitVectorUnit_grouped hargs
      obtain ⟨vs', hread, hvs'⟩ := readVectors_grouped w.settings hsplit
        (hshared.imp_left And.left) hcounts h
      refine ⟨.list (vs'.map .vector), ?_, Value.same_list_map ?_⟩
      · rw [readArguments, hk]
        exact hread
      · have hnumber : ∀ v ∈ vs, ∀ x ∈ v.toList, x.isNaN = false := fun v hv x hx =>
          (h v hv x hx).1.isNumber
        exact ((List.forall₂_and_left ..).2 ⟨hnumber, hvs'⟩).imp fun v v' hv =>
          Value.same_vector hv.1 hv.2
  cases vs with
  | nil => exact hreturns "" [] (by rw [textOf, hk]; rfl) rfl (.inl ⟨rfl, rfl⟩)
  | cons v vs =>
    have hbare : ∀ s ∈ (v :: vs).map vectorText, IsBare s := List.forall_mem_map.2 fun v hv =>
      .intercalate fun s hs => (hwords v hv s hs).isBare
    refine hreturns (withUnit (bracedAll ((v :: vs).map vectorText)) unit) _ ?_ ?_ (.inr rfl)
    · rw [textOf, hk]
      show (do
        return withUnit (bracedAll (← ((v :: vs).map Value.vector).mapM numbersText)) unit) = _
      rw [mapM_numbersText]
      rfl
    · rw [(isBare_bracedAll hbare).tokenize_withUnit, tokenize_bracedAll hbare, List.map_map]
      refine congrArg (fun groups => grouped groups ++ _) (List.map_congr_left fun v hv => ?_)
      exact tokenize_words (hwords v hv)

/-! ## By kind -/

variable {w' : World} {this : Option EntityId} {a : Arguments} {v : Value} {i' : Input}

/-- **What arguments give comes back.** -/
theorem returns_of_gives (hk : i.kind.holdsNumbers = true) (hkind : i'.kind = i.kind)
    (h : (w.readArguments this i a).Gives v)
    (hread : ∀ x ∈ v.numbers, x.isFinite = true → readFloat? (fullText x) = some x)
    (hfraction : ∀ x ∈ v.numbers, ∀ y, 0.0 ≤ y → y ≤ 255.0 → x = y / 255.0 → 0.0 ≤ x ∧ x ≤ 1.0) :
    w'.Returns i' v := by
  cases hi : i.kind with
  | integer range =>
    simp only [readArguments, hi] at h
    obtain ⟨token, -, h⟩ := bind_eq_ok.1 h.of_ofInput
    obtain ⟨n, hn, h⟩ := bind_eq_ok.1 h
    cases h
    exact returns_int (hkind.trans hi) (natAbs_lt_of_readInteger? hn) (contains_of_readInteger? hn)
  | integers range counts =>
    simp only [readArguments, hi] at h
    obtain ⟨_, hcounts, h⟩ := bind_eq_ok.1 h.of_ofInput
    obtain ⟨ns, hns, h⟩ := bind_eq_ok.1 h
    cases h
    have hall := forall₂_of_mapM hns
    refine returns_ints (hkind.trans hi) (hall.length_eq ▸ checkCountRange_eq_ok.1 hcounts) ?_
    exact forall_mem_of_forall₂ hall fun _ _ hn =>
      ⟨natAbs_lt_of_readInteger? hn, contains_of_readInteger? hn⟩
  | number unit range =>
    simp only [readArguments, hi] at h
    obtain ⟨_, -, h⟩ := h.of_bind
    obtain ⟨xs, hxs, h⟩ := h.of_bind
    split at h
    · obtain rfl := h.of_pure
      exact returns_float (hkind.trans hi)
        ⟨isNumber_of_readQuantities hxs _ (.head _), hread _ (.head _)⟩
        (contains_of_readQuantities hxs _ (.head _))
    · cases h.of_ofInput
  | numbers unit range counts =>
    simp only [readArguments, hi] at h
    obtain ⟨xs, hxs, h⟩ := h.of_bind
    obtain ⟨sized, hsized, hsame⟩ := h.of_bind
    obtain ⟨rfl, hcounts⟩ := World.sized_eq_ok.1 hsized.of_ofInput
    obtain rfl := hsame.of_pure
    refine returns_floats (hkind.trans hi) hcounts fun x hx => ⟨⟨?_, hread x ?_⟩, ?_⟩
    · exact isNumber_of_readQuantities hxs x hx
    · exact List.mem_flatMap.2 ⟨.float x, List.mem_map_of_mem hx, .head _⟩
    · exact contains_of_readQuantities hxs x hx
  | colour =>
    simp only [readArguments, hi] at h
    obtain ⟨c, hc, rfl⟩ := map_eq_ok.1 h.of_ofInput
    exact returns_colour (hkind.trans hi)
      (Colour.isFraction_of_isScaled (Colour.isScaled_of_read? hc) hread hfraction)
  | colours counts =>
    simp only [readArguments, hi] at h
    obtain ⟨cs, hcs, h⟩ := h.of_bind
    obtain ⟨sized, hsized, hsame⟩ := h.of_bind
    obtain ⟨rfl, hcounts⟩ := World.sized_eq_ok.1 hsized.of_ofInput
    obtain rfl := hsame.of_pure
    refine returns_colours (hkind.trans hi) hcounts fun c hc => ?_
    have hmem {x : Float} (hx : x ∈ [c.red, c.green, c.blue, c.alpha]) :
        x ∈ (Value.list (sized.map .colour)).numbers :=
      List.mem_flatMap.2 ⟨.colour c, List.mem_map_of_mem hc, hx⟩
    have hscaled := forall_mem_of_readGroups
      (fun _ _ _ hc => Colour.isScaled_of_read? hc.of_ofInput) hcs c hc
    exact Colour.isFraction_of_isScaled hscaled (fun x hx => hread x (hmem hx))
      fun x hx => hfraction x (hmem hx)
  | vectors unit counts =>
    simp only [readArguments, hi, readVectors] at h
    obtain ⟨_, -, h⟩ := h.of_bind
    obtain ⟨vs, hvs, h⟩ := h.of_bind
    obtain ⟨sized, hsized, hsame⟩ := h.of_bind
    obtain ⟨rfl, hcounts⟩ := World.sized_eq_ok.1 hsized.of_ofInput
    obtain rfl := hsame.of_pure
    refine returns_vectors (hkind.trans hi) hcounts fun v hv x hx => ?_
    have hall := forall_mem_of_readGroups
      (P := fun v : Vector3 => ∀ x ∈ v.toList, x.isNaN = false ∧ NumberRange.Contains {} x)
      (fun _ _ v hv => by
        obtain ⟨_, -, hv⟩ := hv.of_bind
        refine forall_mem_of_readVector ⟨rfl, by decide, by decide⟩ (fun xs hxs x hx => ?_) hv
        exact ⟨isNumber_of_readQuantities hxs x hx, contains_of_readQuantities hxs x hx⟩)
      hvs v hv x hx
    refine ⟨⟨hall.1, hread x ?_⟩, hall.2⟩
    exact List.mem_flatMap.2 ⟨.vector v, List.mem_map_of_mem hv, hx⟩
  | _ =>
    rw [hi] at hk
    cases hk

/-! ## Texts of inputs -/

variable {id : InputId}

theorem readKind_eq (hk : i.kind.holdsNumbers = true) :
    w.readKind this i a = (do return .value (← w.readArguments this i a)) :=
  readKind_value (InputKind.holdsValue_of_holdsNumbers hk)

/-- **Integers, quantities and colours come back from their texts.** An input of one of these kinds
that has accepted arguments has a text for its value. The tokens of the text are accepted by the
input, without a warning, and set it to an equal value, if the finite numbers of the value come back
from their full texts, and those of them that are components counted up to 255 lie between zero and
one as fractions. -/
theorem textOf_comesBack (hi : w.input? id = some i) (hk : i.kind.holdsNumbers = true)
    (h : (w.parseInput this id a).Gives w') (hi' : w'.input? id = some i')
    (hread : ∀ x ∈ i'.value.numbers, x.isFinite = true → readFloat? (fullText x) = some x)
    (hfraction : ∀ x ∈ i'.value.numbers,
      ∀ y, 0.0 ≤ y → y ≤ 255.0 → x = y / 255.0 → 0.0 ≤ x ∧ x ≤ 1.0) :
    ∃ text, w'.textOf i' i'.value = .ok text ∧ ∀ keyword origin, ∃ again w'' i'',
      Arguments.make? keyword (tokenize text) origin = .ok again ∧
        w'.parseInput this id again = pure w'' ∧ w''.input? id = some i'' ∧
        i''.value.same i'.value = true := by
  have htarget : i.kind.target? = none := by
    cases hkind : i.kind with
    | synonym =>
      rw [hkind] at hk
      cases hk
    | _ => rfl
  rw [parseInput_eq hi htarget] at h
  obtain ⟨assignment, hassigned, hstore⟩ := h.of_bind
  rw [readKind_eq hk] at hassigned
  obtain ⟨v, hv, hvalue⟩ := hassigned.of_bind
  obtain rfl := hvalue.of_pure
  obtain rfl := hstore.of_pure
  have hset := hi'
  rw [input?_store, if_pos rfl, hi] at hset
  obtain rfl : i.assign v = i' := Option.some.inj hset
  have hback : (w.store id (.value v)).Returns (i.assign v) v :=
    returns_of_gives hk rfl hv hread hfraction
  obtain ⟨text, htext, hbalanced, hreturns⟩ := hback
  refine ⟨text, htext, fun keyword origin => ?_⟩
  obtain ⟨v', hread', hsame⟩ := hreturns this ⟨keyword, tokenize text, origin, hbalanced⟩ rfl
  refine ⟨_, (w.store id (.value v)).store id (.value v'), (i.assign v).assign v',
    Arguments.make?_eq hbalanced keyword origin, ?_, ?_, hsame⟩
  · rw [parseInput_eq hi' htarget, readKind_eq (i := i.assign v) hk, hread']
    rfl
  · rw [input?_store, if_pos rfl, hi']
    rfl

/-- A list of colours. -/
def colourList : Input :=
  .make "Colours" "Key Inputs" (.colours {})

/-- An entity with one input. -/
def holder (i : Input) : World where
  palette := ⟨[], []⟩
  entities := [{ name := "Wall", className := "Entity", inputs := [i] }]

/-- A name, and components that count up to 255 with an opacity. -/
def redAndBlueArguments : Arguments where
  keyword := "Colours"
  args := ["\x7b", "Red", "\x7d", "\x7b", "51", "102", "255", "0.5", "\x7d"]
  balanced := by decide

/-- The colours that are given. -/
def redAndBlue : Value :=
  .list [.colour ⟨1.0, 0.0, 0.0, 1.0⟩, .colour ⟨51.0 / 255.0, 102.0 / 255.0, 255.0 / 255.0, 0.5⟩]

theorem holder_gives_redAndBlue :
    ((holder colourList).parseInput none ⟨⟨0⟩, "Colours"⟩ redAndBlueArguments).Gives
      (holder (colourList.assign redAndBlue)) :=
  ⟨[], [], rfl⟩

theorem textOf_comesBack_redAndBlue :
    (holder colourList).input? ⟨⟨0⟩, "Colours"⟩ = some colourList ∧
      ((holder colourList).parseInput none ⟨⟨0⟩, "Colours"⟩ redAndBlueArguments).Gives
        (holder (colourList.assign redAndBlue)) ∧
      ∃ text, (holder (colourList.assign redAndBlue)).textOf (colourList.assign redAndBlue)
          redAndBlue = .ok text ∧
        ∀ keyword origin, ∃ again w'' i'',
          Arguments.make? keyword (tokenize text) origin = .ok again ∧
            (holder (colourList.assign redAndBlue)).parseInput none ⟨⟨0⟩, "Colours"⟩ again =
              pure w'' ∧
            w''.input? ⟨⟨0⟩, "Colours"⟩ = some i'' ∧ i''.value.same redAndBlue = true := by
  have hread : ∀ x ∈ redAndBlue.numbers, x.isFinite = true → readFloat? (fullText x) = some x := by
    decide +kernel
  have hfraction : ∀ x ∈ redAndBlue.numbers, 0.0 ≤ x ∧ x ≤ 1.0 := by
    decide
  exact ⟨rfl, holder_gives_redAndBlue, textOf_comesBack rfl rfl holder_gives_redAndBlue rfl hread
    fun x hx _ _ _ _ => hfraction x hx⟩

end World

end ModelInputs
