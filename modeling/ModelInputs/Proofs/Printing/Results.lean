import ModelInputs.Proofs.Number.Plain
import ModelInputs.Proofs.Reading.Depth
import ModelInputs.Proofs.Undefined

/-!
# Printed results

A result without entities is printed as an expression for itself. Its text is that of a tree with a
literal for every number, text and empty array, a minus sign in front of the literal of a negative
number, and an array or a map around the trees of its parts. Such a tree is read again, is made of
constants alone and yields the result, so that folding leaves a single constant of it.

* `Result.IsPrintable`: the results that are printed as expressions;
* `Result.toExpr`: the tree of a result, with `isWritten_toExpr` and `render_toExpr`;
* `Expr.IsConstantOf`, **`isConstantOf_of_withoutPositions`**: what the tree yields, wherever its
  nodes stand;
* **`parse?_render_result`**: a printed result is read and evaluated, with folding and without.
-/

namespace ModelInputs

/-! ## Results that are printed -/

namespace Result

/-- A finite number that is read back from its full text, of a unit type that is not the user's; a
text or a key without a quote; no entity but the absent one; and collections of such, of which maps
have entries. -/
inductive IsPrintable : Result → Prop
  | number {x : Float} {u : UnitType} (hx : Number.IsReadBack x) (hu : u ≠ .userSpecified) :
      IsPrintable (.number x u)
  | text {s : String} (hs : '"' ∉ s.toList) : IsPrintable (.text s)
  | null : IsPrintable .null
  | array {items : List Result} (hitems : ∀ r ∈ items, IsPrintable r) : IsPrintable (.array items)
  | map {entries : List (String × Result)} (hne : entries ≠ []) (hkeys : (entries.map (·.1)).Nodup)
      (htexts : ∀ entry ∈ entries, '"' ∉ entry.1.toList)
      (hvalues : ∀ entry ∈ entries, IsPrintable entry.2) : IsPrintable (.map entries)

/-- The tree of a number: a minus sign in front of a negative one, except for a negative zero, which
is written as zero. -/
def numberToExpr (x : Float) (u : UnitType) : Expr :=
  if x = -0.0 then .literal (.number 0.0 u) 0
  else if Number.isNegative x then .unary .neg (.literal (.number (-x) u) 0) 0
  else .literal (.number x u) 0

mutual

/-- The tree that a result is printed as, with all its nodes at the same position. -/
def toExpr : Result → Expr
  | number x u => numberToExpr x u
  | array (item :: items) => .array (toExprs (item :: items)) 0
  | map entries => .map (toExprEntries entries) 0
  | r => .literal r 0

/-- The trees of the items of an array. -/
def toExprs : List Result → List Expr
  | [] => []
  | r :: rs => toExpr r :: toExprs rs

/-- The trees of the entries of a map. -/
def toExprEntries : List (String × Result) → List (String × Expr)
  | [] => []
  | (key, r) :: rs => (key, toExpr r) :: toExprEntries rs

end

/-! ## The tree of a result -/

theorem isReadBack_neg {x : Float} (hx : Number.IsReadBack x) (hn : Number.isNegative x = true) :
    Number.IsReadBack (-x) :=
  ⟨(Number.isFinite_neg x).trans hx.finite, Number.readFloat?_fullText_neg hx.finite hn hx.read⟩

theorem isReadBack_zero : Number.IsReadBack 0.0 :=
  ⟨by decide, by decide +kernel⟩

theorem isWritten_numberToExpr {x : Float} {u : UnitType} (hx : Number.IsReadBack x)
    (hu : u ≠ .userSpecified) : (numberToExpr x u).IsWritten := by
  have hunits : ∀ u ∈ UnitType.all, u ≠ .userSpecified → u = .dimensionless ∨ u.hasUnit = true := by
    decide
  have hu := hunits u u.mem_all hu
  unfold numberToExpr
  split
  · exact .number isReadBack_zero (by decide) hu
  split
  · next hn =>
    have hn' : Number.isNegative (-x) = false := by
      rw [Number.isNegative_neg (Number.isNaN_of_isFinite hx.finite), hn]
      rfl
    exact .unary (.number (isReadBack_neg hx hn) hn' hu)
  · next hn => exact .number hx (Bool.eq_false_iff.2 hn) hu

theorem render_numberToExpr {x : Float} (u : UnitType) (hx : x.isFinite = true) :
    (numberToExpr x u).render = renderNumber x u := by
  unfold numberToExpr
  split
  · next hzero =>
    have htext : Number.plainText 0.0 = "0" := by decide +kernel
    rw [hzero, Expr.render, render, renderNumber, renderNumber, Number.plainText_negativeZero,
      htext]
  split
  · next hzero hn =>
    rw [Expr.render, Expr.render, render, renderNumber, renderNumber,
      Number.plainText_of_isNegative hx hn hzero]
    split
    · simp only [UnaryOp.symbol, String.append_assoc]
    · rfl
  · rw [Expr.render, render]

theorem mem_toExprs {items : List Result} {e : Expr} (h : e ∈ toExprs items) :
    ∃ r ∈ items, r.toExpr = e := by
  induction items with
  | nil => cases h
  | cons r rs ih =>
    obtain rfl | h := List.mem_cons.1 h
    · exact ⟨r, .head rs, rfl⟩
    · obtain ⟨s, hs, he⟩ := ih h
      exact ⟨s, .tail r hs, he⟩

theorem mem_toExprEntries {entries : List (String × Result)} {entry : String × Expr}
    (h : entry ∈ toExprEntries entries) : ∃ r ∈ entries, (r.1, r.2.toExpr) = entry := by
  induction entries with
  | nil => cases h
  | cons r rs ih =>
    obtain rfl | h := List.mem_cons.1 h
    · exact ⟨r, .head rs, rfl⟩
    · obtain ⟨s, hs, he⟩ := ih h
      exact ⟨s, .tail r hs, he⟩

theorem map_fst_toExprEntries (entries : List (String × Result)) :
    (toExprEntries entries).map (·.1) = entries.map (·.1) := by
  induction entries with
  | nil => rfl
  | cons entry entries ih => rw [toExprEntries, List.map_cons, List.map_cons, ih]

/-- The tree of a result that is printed can be written. -/
theorem IsPrintable.isWritten_toExpr {r : Result} (h : r.IsPrintable) : r.toExpr.IsWritten := by
  induction h with
  | number hx hu => exact isWritten_numberToExpr hx hu
  | text hs => exact .text hs
  | null => exact .null
  | @array items _ ih =>
    cases items with
    | nil => exact .emptyArray
    | cons item items =>
      refine .array (List.cons_ne_nil _ _) fun e he => ?_
      obtain ⟨r, hr, rfl⟩ := mem_toExprs he
      exact ih r hr
  | @map entries hne hkeys htexts _ ih =>
    refine .map ?_ ?_ ?_ ?_
    · cases entries with
      | nil => exact absurd rfl hne
      | cons entry entries => exact List.cons_ne_nil _ _
    · rwa [map_fst_toExprEntries]
    · intro entry he
      obtain ⟨r, hr, rfl⟩ := mem_toExprEntries he
      exact htexts r hr
    · intro entry he
      obtain ⟨r, hr, rfl⟩ := mem_toExprEntries he
      exact ih r hr

theorem renderItems_toExprs {items : List Result} {nameOf : EntityId → String}
    (h : ∀ r ∈ items, r.toExpr.render = r.render nameOf) :
    Expr.renderItems (toExprs items) = renderItems nameOf items := by
  induction items with
  | nil => rfl
  | cons r rs ih =>
    obtain ⟨hr, hrs⟩ := List.forall_mem_cons.1 h
    rw [toExprs, Expr.renderItems, renderItems, hr, ih hrs]

theorem renderEntries_toExprEntries {entries : List (String × Result)} {nameOf : EntityId → String}
    (h : ∀ entry ∈ entries, entry.2.toExpr.render = entry.2.render nameOf) :
    Expr.renderEntries (toExprEntries entries) = renderEntries nameOf entries := by
  induction entries with
  | nil => rfl
  | cons r rs ih =>
    obtain ⟨hr, hrs⟩ := List.forall_mem_cons.1 h
    rw [toExprEntries, Expr.renderEntries, renderEntries, hr, ih hrs]

/-- The text of the tree is that of the result. -/
theorem IsPrintable.render_toExpr {r : Result} (h : r.IsPrintable) (nameOf : EntityId → String) :
    r.toExpr.render = r.render nameOf := by
  induction h with
  | number hx hu => exact render_numberToExpr _ hx.finite
  | text hs => rfl
  | null => rfl
  | @array items _ ih =>
    cases items with
    | nil => rfl
    | cons item items => rw [toExpr, Expr.render, render, renderItems_toExprs ih]
  | map _ _ _ _ ih => rw [toExpr, Expr.render, render, renderEntries_toExprEntries ih]

/-! ## Equal results -/

theorem lookup_of_mem {α : Type} {entries : List (String × α)} (hkeys : (entries.map (·.1)).Nodup)
    {entry : String × α} (h : entry ∈ entries) : entries.lookup entry.1 = some entry.2 := by
  obtain ⟨before, behind, rfl⟩ := List.append_of_mem h
  rw [List.map_append, List.nodup_append] at hkeys
  refine List.lookup_eq_some_iff.2 ⟨before, behind, rfl, fun other ho => bne_iff_ne.2 ?_⟩
  exact (hkeys.2.2 _ (List.mem_map_of_mem ho) _ (.head _)).symm

/-- Entries with the same keys in the same order and equal results are equal. -/
theorem sameEntries_of_forall₂ {as bs all : List (String × Result)}
    (h : List.Forall₂ (fun a b => a.1 = b.1 ∧ a.2.same b.2 = true) as bs)
    (hall : ∀ b ∈ bs, all.lookup b.1 = some b.2) : sameEntries as all = true := by
  induction h with
  | nil => rfl
  | @cons a b as bs hab _ ih =>
    obtain ⟨hb, hbs⟩ := List.forall_mem_cons.1 hall
    rw [sameEntries, hab.1, hb]
    exact Bool.and_eq_true_iff.2 ⟨hab.2, ih hbs⟩

theorem same_map {as bs : List (String × Result)} (hkeys : (bs.map (·.1)).Nodup)
    (h : List.Forall₂ (fun a b => a.1 = b.1 ∧ a.2.same b.2 = true) as bs) :
    (map as).same (map bs) = true := by
  rw [same, h.length_eq, beq_self_eq_true, Bool.true_and]
  exact sameEntries_of_forall₂ h fun b hb => lookup_of_mem hkeys hb

end Result

/-! ## What the tree yields -/

namespace Expr

open Result (toExpr toExprs toExprEntries numberToExpr sameItems)

/-- The tree is made of constants alone and yields a result that is equal to this one, whatever it
may refer to. -/
def IsConstantOf (e : Expr) (r : Result) : Prop :=
  e.IsConstant ∧ ∃ r', r'.same r = true ∧ ∀ env, e.eval env = .ok r'

theorem isConstantOf_of_children {e : Expr} {r r' : Result} (href : ¬ e.IsReference)
    (hchildren : ∀ c ∈ e.children, c.IsConstant) (hsame : r'.same r = true)
    (heval : ∀ env, e.eval env = .ok r') : e.IsConstantOf r :=
  ⟨isConstant_iff.2 ⟨href, ⟨r', heval .empty⟩, hchildren⟩, r', hsame, heval⟩

theorem isConstantOf_literal {e : Expr} {r r' : Result} (h : e.withoutPositions = literal r' 0)
    (hsame : r'.same r = true) : e.IsConstantOf r := by
  cases e with
  | literal value pos =>
    cases h
    exact isConstantOf_of_children id nofun hsame fun _ => rfl
  | _ => simp only [withoutPositions, reduceCtorEq] at h

theorem isConstantOf_number {e : Expr} {x : Float} {u : UnitType} (hx : x.isFinite = true)
    (h : e.withoutPositions = (numberToExpr x u).withoutPositions) :
    e.IsConstantOf (.number x u) := by
  have hself : (Result.number x u).same (.number x u) = true := by
    rw [Result.same, Number.beq_self (Number.isNaN_of_isFinite hx), beq_self_eq_true]
    rfl
  unfold numberToExpr at h
  split at h
  · next hzero =>
    refine isConstantOf_literal h ?_
    subst hzero
    rw [Result.same, beq_self_eq_true]
    rfl
  split at h
  · cases e with
    | unary op operand pos =>
      simp only [withoutPositions, unary.injEq] at h
      obtain ⟨rfl, hoperand, -⟩ := h
      cases operand with
      | literal value pos =>
        cases hoperand
        have hconstant := (isConstantOf_literal (e := literal (.number (-x) u) pos) rfl
          (r := .number (-x) u) ?_).1
        · have hoperand := List.forall_mem_singleton.2 hconstant
          refine isConstantOf_of_children id hoperand hself fun env => ?_
          show Except.ok (Result.number (- -x) u) = _
          rw [Number.neg_neg]
        · rw [Result.same, Number.beq_self, beq_self_eq_true]
          · rfl
          · exact Number.isNaN_of_isFinite ((Number.isFinite_neg x).trans hx)
      | _ => simp only [withoutPositions, reduceCtorEq] at hoperand
    | _ => simp only [withoutPositions, reduceCtorEq] at h
  · exact isConstantOf_literal h hself

theorem isConstantOf_items {items : List Result}
    (ih : ∀ r ∈ items, ∀ e : Expr, e.withoutPositions = r.toExpr.withoutPositions →
      e.IsConstantOf r)
    {es : List Expr}
    (h : itemsWithoutPositions es = itemsWithoutPositions (toExprs items)) :
    (∀ e ∈ es, e.IsConstant) ∧
      ∃ rs, sameItems rs items = true ∧ ∀ env, evalItems env es = .ok rs := by
  induction items generalizing es with
  | nil =>
    cases es with
    | nil => exact ⟨nofun, [], rfl, fun _ => rfl⟩
    | cons e es => cases h
  | cons r items ihs =>
    cases es with
    | nil => cases h
    | cons e es =>
      obtain ⟨hr, hitems⟩ := List.forall_mem_cons.1 ih
      rw [toExprs, itemsWithoutPositions, itemsWithoutPositions, List.cons.injEq] at h
      obtain ⟨hconstant, r', hsame, heval⟩ := hr e h.1
      obtain ⟨hconstants, rs, hsames, hevals⟩ := ihs hitems h.2
      refine ⟨List.forall_mem_cons.2 ⟨hconstant, hconstants⟩, r' :: rs, ?_, fun env => ?_⟩
      · rw [sameItems, hsame, hsames]
        rfl
      · rw [evalItems_cons, heval, ok_bind, hevals]
        rfl

theorem isConstantOf_entries {entries : List (String × Result)}
    (ih : ∀ entry ∈ entries, ∀ e : Expr, e.withoutPositions = entry.2.toExpr.withoutPositions →
      e.IsConstantOf entry.2)
    {es : List (String × Expr)}
    (h : entriesWithoutPositions es = entriesWithoutPositions (toExprEntries entries)) :
    (∀ e ∈ es.map (·.2), e.IsConstant) ∧
      ∃ rs, List.Forall₂ (fun a b => a.1 = b.1 ∧ a.2.same b.2 = true) rs entries ∧
        ∀ env, evalEntries env es = .ok rs := by
  induction entries generalizing es with
  | nil =>
    cases es with
    | nil => exact ⟨nofun, [], .nil, fun _ => rfl⟩
    | cons e es => cases h
  | cons r entries ihs =>
    cases es with
    | nil => cases h
    | cons e es =>
      obtain ⟨hr, hentries⟩ := List.forall_mem_cons.1 ih
      obtain ⟨key, e⟩ := e
      rw [toExprEntries, entriesWithoutPositions, entriesWithoutPositions, List.cons.injEq,
        Prod.mk.injEq] at h
      obtain ⟨⟨rfl, hvalue⟩, hrest⟩ := h
      obtain ⟨hconstant, r', hsame, heval⟩ := hr e hvalue
      obtain ⟨hconstants, rs, hsames, hevals⟩ := ihs hentries hrest
      refine ⟨List.forall_mem_cons.2 ⟨hconstant, hconstants⟩, (r.1, r') :: rs,
        .cons ⟨rfl, hsame⟩ hsames, fun env => ?_⟩
      rw [evalEntries_cons, heval, ok_bind, hevals]
      rfl

/-- **The tree of a result yields an equal result**, wherever its nodes stand. -/
theorem isConstantOf_of_withoutPositions {r : Result} (hr : r.IsPrintable) :
    ∀ e : Expr, e.withoutPositions = r.toExpr.withoutPositions → e.IsConstantOf r := by
  induction hr with
  | number hx hu => exact fun e h => isConstantOf_number hx.finite h
  | @text s hs => exact fun e h => isConstantOf_literal h (beq_self_eq_true s)
  | null => exact fun e h => isConstantOf_literal h rfl
  | @array items _ ih =>
    intro e h
    cases items with
    | nil => exact isConstantOf_literal h rfl
    | cons item items =>
      cases e with
      | array es pos =>
        rw [toExpr, withoutPositions, withoutPositions, array.injEq] at h
        obtain ⟨hconstants, rs, hsame, heval⟩ := isConstantOf_items ih h.1
        have hsame : (Result.array rs).same (.array (item :: items)) = true := hsame
        refine isConstantOf_of_children id hconstants hsame fun env => ?_
        rw [eval_array, heval]
        rfl
      | _ => simp only [toExpr, withoutPositions, reduceCtorEq] at h
  | @map entries _ hkeys _ _ ih =>
    intro e h
    cases e with
    | map es pos =>
      rw [toExpr, withoutPositions, withoutPositions, map.injEq] at h
      obtain ⟨hconstants, rs, hsame, heval⟩ := isConstantOf_entries ih h.1
      have hsame : (Result.map rs).same (.map entries) = true := Result.same_map hkeys hsame
      refine isConstantOf_of_children id hconstants hsame fun env => ?_
      rw [eval_map, heval]
      rfl
    | _ => simp only [toExpr, withoutPositions, reduceCtorEq] at h

/-- A tree that is made of constants alone is folded to one of the same meaning. -/
theorem IsConstant.exists_folded {e : Expr} (h : e.IsConstant) :
    ∃ e', e.folded = .ok e' ∧ SameMeaning e e' := by
  cases he : e.folded with
  | ok e' => exact ⟨e', rfl, (foldsTo_of_folded_eq_ok he).sameMeaning⟩
  | error f =>
    obtain ⟨-, p, hpart, -, -, hundefined⟩ := of_folded_eq_error he
    obtain ⟨-, value, hvalue⟩ := h p hpart
    rw [hvalue] at hundefined
    cases hundefined

end Expr

/-! ## The text of a result -/

/-- **A printed result is an expression for the same result.** Its text is read, with folding and
without, and the expression yields an equal result in every world, for every entity and at every
time. -/
theorem parse?_render_result {r : Result} (hr : r.IsPrintable) (nameOf : EntityId → String)
    (fold : Bool) :
    ∃ (exp : Expression) (r' : Result), Expression.parse? (r.render nameOf) fold = .ok exp ∧
      r'.same r = true ∧
      ∀ (w : World) (this : Option EntityId) (t : Float) (everywhere : Bool),
        w.evaluate exp this t everywhere = .ok r' := by
  obtain ⟨e, he, hpositions⟩ := hr.isWritten_toExpr.exists_parse?
  obtain ⟨hconstant, r', hsame, heval⟩ := Expr.isConstantOf_of_withoutPositions hr e hpositions
  rw [hr.render_toExpr nameOf] at he
  obtain ⟨e', he', hmeaning⟩ : ∃ e', Expr.parse? (r.render nameOf) fold = .ok e' ∧
      SameMeaning e e' := by
    cases fold with
    | false => exact ⟨e, he, .refl e⟩
    | true =>
      rw [Expr.parse?_folded he]
      exact hconstant.exists_folded
  refine ⟨⟨r.render nameOf, e'⟩, r', bind_eq_ok.2 ⟨e', he', rfl⟩, hsame, ?_⟩
  intro w this t everywhere
  exact World.evaluateWith_eq_ok.2 ((hmeaning _).symm.trans (heval _))

/-- A map with a negative distance, a text of brackets, nothing and an empty array under a key that
looks like a comment. -/
def nestedMap : Result :=
  .map [("#a#", .array [.number (-2.5) .distance, .text "]\x7d[", .null, .array []])]

theorem nestedMap_isPrintable : nestedMap.IsPrintable := by
  have hread : Number.IsReadBack (-2.5) := ⟨by decide, by decide +kernel⟩
  refine .map (List.cons_ne_nil _ _) (by decide) (by decide) (List.forall_mem_singleton.2 ?_)
  refine .array ?_
  simp only [List.forall_mem_cons]
  exact ⟨.number hread (by decide), .text (by decide), .null, .array nofun, nofun⟩

/-- The map is read from its text, with folding and without. -/
theorem parse?_render_result_of_nestedMap :
    nestedMap.IsPrintable ∧
      nestedMap.render (fun _ => "") =
        "\x7b\"#a#\": \x7b-2.5[m], \"]\x7d[\", null, \x7b\x7d\x7d\x7d" ∧
      ∀ fold, ∃ (exp : Expression) (r' : Result), Expression.parse?
          "\x7b\"#a#\": \x7b-2.5[m], \"]\x7d[\", null, \x7b\x7d\x7d\x7d" fold = .ok exp ∧
        r'.same nestedMap = true ∧
        ∀ (w : World) (this : Option EntityId) (t : Float) (everywhere : Bool),
          w.evaluate exp this t everywhere = .ok r' := by
  have htext : nestedMap.render (fun _ => "") =
      "\x7b\"#a#\": \x7b-2.5[m], \"]\x7d[\", null, \x7b\x7d\x7d\x7d" := by
    decide +kernel
  refine ⟨nestedMap_isPrintable, htext, fun fold => ?_⟩
  rw [← htext]
  exact parse?_render_result nestedMap_isPrintable (fun _ => "") fold

end ModelInputs
