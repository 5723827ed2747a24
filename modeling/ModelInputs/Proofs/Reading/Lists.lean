import ModelInputs.Proofs.Reading.Colours

/-!
# Lists as arguments

The elements of a list that is written in groups are read one by one, so a list comes back if each
of its elements does. Vectors share the unit behind their groups; integers stand without groups.

* `readGroups_grouped`: a list in groups;
* **`readVectors_grouped`**, **`readColours_grouped`**: vectors and colours;
* **`readIntegers_texts`**: integers.
-/

namespace ModelInputs

open Number Record

/-! ## Groups -/

/-- The elements of some groups, each of which comes back. -/
theorem exists_readGroupsFrom {α β : Type} {R : α → β → Prop} {a : Arguments}
    {readOne : List β → Arguments → Logged β} {write : α → List String} {xs : List α}
    {groups : List Arguments} (hgroups : groups.map (·.args) = xs.map write)
    (hone : ∀ x ∈ xs, ∀ found group, group.args = write x →
      ∃ y, readOne found group = pure y ∧ R x y) (found : List β) :
    ∃ ys, readGroupsFrom a readOne found groups = pure (found ++ ys) ∧ List.Forall₂ R xs ys := by
  induction xs generalizing groups found with
  | nil =>
    rw [List.map_nil, List.map_eq_nil_iff] at hgroups
    rw [hgroups]
    exact ⟨[], congrArg pure (List.append_nil found).symm, .nil⟩
  | cons x xs ih =>
    obtain ⟨group, groups, rfl, hgroup, hgroups⟩ := List.map_eq_cons_iff.1 hgroups
    obtain ⟨hx, hxs⟩ := List.forall_mem_cons.1 hone
    obtain ⟨y, hread, hy⟩ := hx found group hgroup
    obtain ⟨ys, hrest, hys⟩ := ih hgroups hxs (found ++ [y])
    refine ⟨y :: ys, ?_, .cons hy hys⟩
    rw [readGroupsFrom, hread, List.append_cons, ← hrest]
    rfl

/-- **A list that is written in groups comes back** if its elements do. -/
theorem readGroups_grouped {α β : Type} {R : α → β → Prop} {a : Arguments}
    {readOne : List β → Arguments → Logged β} {write : α → List String} {xs : List α}
    (hargs : a.args = grouped (xs.map write))
    (hwords : ∀ x ∈ xs, ∀ t ∈ write x, isBrace t = false)
    (hone : ∀ x ∈ xs, ∀ found group, group.args = write x →
      ∃ y, readOne found group = pure y ∧ R x y) :
    ∃ ys, readGroups a readOne = pure ys ∧ List.Forall₂ R xs ys := by
  obtain ⟨groups, hgroups, hmap⟩ :=
    Arguments.exists_subArguments?_grouped hargs (List.forall_mem_map.2 hwords)
  obtain ⟨ys, hread, hys⟩ := exists_readGroupsFrom (a := a) hmap hone []
  refine ⟨ys, ?_, hys⟩
  rw [readGroups, hgroups]
  exact hread

/-- A list of the length of one that was accepted is accepted. -/
theorem sized_eq {α : Type} {a : Arguments} {counts : CountRange} {xs : List α}
    (h : counts.least ≤ xs.length ∧ xs.length ≤ counts.most) : a.sized counts xs = .ok xs :=
  World.sized_eq_ok.2 ⟨rfl, h⟩

/-! ## Colours -/

/-- **Colours in groups come back.** -/
theorem readColours_grouped {a : Arguments} {cs : List Colour}
    (hargs : a.args = grouped (cs.map Colour.tokens))
    (h : ∀ c ∈ cs, ∀ x ∈ [c.red, c.green, c.blue, c.alpha], Colour.IsFraction x) :
    ∃ cs', readGroups a (fun _ group => Logged.ofInput (Colour.read? group)) = pure cs' ∧
      List.Forall₂ (fun c c' => (c'.sameHue c && c'.alpha == c.alpha) = true) cs cs' := by
  refine readGroups_grouped hargs (fun c hc t ht => ?_) fun c hc _ group hgroup => ?_
  · exact (Colour.isWord_of_mem_tokens (h c hc) t ht).not_isBrace
  · obtain ⟨c', hread, hsame⟩ := Colour.read?_tokens hgroup (h c hc)
    refine ⟨c', ?_, hsame⟩
    rw [hread]
    rfl

/-! ## Vectors -/

section

variable (settings : Settings) {a : Arguments} {unit : UnitType} {counts : CountRange}
  {vs : List Vector3} {shared : List String}

/-- The unit behind groups is found. -/
theorem splitVectorUnit_grouped {groups : List (List String)}
    (hargs : a.args = grouped groups ++ unitTokens unit) :
    splitVectorUnit a = (grouped groups, unitTokens unit) := by
  unfold splitVectorUnit unitTokens at *
  cases hunit : unit.hasUnit with
  | true =>
    obtain ⟨u, hfind, -⟩ := find?_siUnit hunit
    have hfind : PhysicalUnit.find? unit.siUnit = some u := hfind
    have hbrace : unit.siUnit ≠ "\x7d" := by
      rintro heq
      rw [heq] at hfind
      cases hfind
    rw [hunit, if_pos rfl] at hargs
    rw [hargs, List.getLast?_concat, List.dropLast_concat]
    exact if_pos ⟨hbrace, by rw [hfind]; rfl⟩
  | false =>
    rw [hunit, if_neg Bool.false_ne_true, List.append_nil] at hargs
    rw [hargs, if_neg Bool.false_ne_true]
    obtain rfl | ⟨groups, tokens, rfl⟩ := List.eq_nil_or_concat groups
    · rfl
    · have hlast : (grouped (groups.concat tokens)).getLast? = some "\x7d" := by
        rw [grouped, List.concat_eq_append, List.flatMap_append, List.flatMap_singleton,
          ← List.append_assoc, List.getLast?_concat]
      rw [hlast]
      exact if_neg fun h => h.1 rfl

/-- **Vectors in groups come back**, with the unit behind them. -/
theorem readVectors_grouped
    (hsplit : splitVectorUnit a =
      (grouped (vs.map fun v => v.toList.map plainText), shared))
    (hshared : vs = [] ∨ shared = unitTokens unit)
    (hcounts : counts.least ≤ vs.length ∧ vs.length ≤ counts.most)
    (hvs : ∀ v ∈ vs, ∀ x ∈ v.toList, ComesBack x ∧ NumberRange.Contains {} x) :
    ∃ vs' : List Vector3, readVectors settings a unit counts = pure (.list (vs'.map .vector)) ∧
      List.Forall₂ (fun v v' => List.Forall₂ SameNumber v.toList v'.toList) vs vs' := by
  have hwords : ∀ v ∈ vs, ∀ t ∈ v.toList.map plainText, isBrace t = false := fun v hv =>
    List.forall_mem_map.2 fun x hx =>
      (isWrittenNumber_plainText (hvs v hv x hx).1.isNumber).isWord.not_isBrace
  have hbalanced := isBalanced_grouped (List.forall_mem_map.2 hwords)
  obtain ⟨vs', hread, hvs'⟩ : ∃ vs', readGroups ⟨a.keyword, _, a.origin, hbalanced⟩ (fun _ group => do
        let a ← Logged.ofInput (Arguments.make? a.keyword (group.args ++ shared))
        readVector settings a unit {}) = pure vs' ∧
      List.Forall₂ (fun v v' => List.Forall₂ SameNumber v.toList v'.toList) vs vs' := by
    refine readGroups_grouped rfl hwords fun v hv _ group hgroup => ?_
    have hvector : group.args ++ shared = quantityTokens unit v.toList := by
      rw [hgroup, hshared.resolve_left (List.ne_nil_of_mem hv), quantityTokens]
    have hbalanced : isBalanced (quantityTokens unit v.toList) = true :=
      isBalanced_words (not_isBrace_quantityTokens fun x hx => (hvs v hv x hx).1.isNumber)
    obtain ⟨v', hread, hsame⟩ := readVector_plainTexts settings
      (a := ⟨a.keyword, _, none, hbalanced⟩) rfl (hvs v hv)
    refine ⟨v', ?_, hsame⟩
    rw [hvector, Arguments.make?_eq hbalanced]
    exact hread
  refine ⟨vs', ?_, hvs'⟩
  unfold readVectors
  rw [hsplit]
  dsimp only
  rw [Arguments.make?_eq hbalanced]
  have hgroups : (do
      let vs ← readGroups ⟨a.keyword, _, a.origin, hbalanced⟩ fun _ group => do
        let a ← Logged.ofInput (Arguments.make? a.keyword (group.args ++ shared))
        readVector settings a unit {}
      return Value.list ((← Logged.ofInput (a.sized counts vs)).map .vector)) =
        pure (.list (vs'.map .vector)) := by
    rw [hread, pure_bind, sized_eq (hvs'.length_eq ▸ hcounts)]
    rfl
  exact hgroups

end

/-! ## Integers -/

/-- **Integers come back** from their texts. -/
theorem readIntegers_texts {range : IntRange} {ns : List Int}
    (h : ∀ n ∈ ns, n.natAbs < 10 ^ maxIntDigits ∧ range.Contains n) :
    (ns.map toString).mapM (readInteger? · range) = .ok ns := by
  refine mapM_eq_pure (List.forall₂_map_left_iff.2 (List.forall₂_same.2 fun n hn => ?_))
  obtain ⟨hdigits, hrange⟩ := h n hn
  rw [readInteger?, readInt?_toString hdigits]
  dsimp only
  rw [IntRange.check_eq_ok.2 hrange]
  rfl

end ModelInputs
