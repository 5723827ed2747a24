import Mathlib.Data.List.Permutation
import ModelInputs.Model.Reading
import ModelInputs.Proofs.Meaning
import ModelInputs.Proofs.Outcome
import ModelInputs.Proofs.Parser.Readers

/-!
# Folding keeps the meaning of expressions

An expression can be read with its constant parts folded or as it stands. Both readings take the
same tokens, and the trees that they build mean the same. The proof runs the two readings side by
side: wherever the folding one succeeds the other one succeeds too, with the same tokens left and
with an expression of the same meaning. References stay references, so both see the same places to
index.

* `fold_follows`: folding a node over children of the same meaning;
* `exprFrom_follows` and its like: the readers side by side;
* **`parse?_fold_sameMeaning`**: a text means the same with and without folding.
-/

namespace ModelInputs

/-- A folded node follows the node over children of the same meaning. -/
theorem fold_follows {node node' : Expr} (h : SameMeaning node node') :
    Follows SameMeaning (node.fold true) (node'.fold false) := by
  intro e he
  exact ⟨node', node'.fold_false, (SameMeaning.of_fold he).trans h⟩

namespace Parser

/-- Related results in front of the same tokens. -/
inductive Alike {α β : Type} (R : α → β → Prop) : α × List Token → β × List Token → Prop
  | intro {a : α} {b : β} (h : R a b) (rest : List Token) : Alike R (a, rest) (b, rest)

/-! ## The readers side by side -/

mutual

theorem exprFrom_follows (least : Nat) (tokens : List Token) :
    Follows (Alike SameMeaning) (exprFrom true least tokens) (exprFrom false least tokens) := by
  rw [exprFrom_eq, exprFrom_eq]
  refine (operandFrom_follows tokens).bind ?_
  rintro _ _ h ⟨hm, rest⟩
  have := length_operandFrom h
  exact operatorsFrom_follows least hm rest
termination_by (tokens.length, 2)

theorem operatorsFrom_follows (least : Nat) {left left' : Expr} (hm : SameMeaning left left')
    (tokens : List Token) :
    Follows (Alike SameMeaning) (operatorsFrom true least left tokens)
      (operatorsFrom false least left' tokens) := by
  cases tokens with
  | nil =>
    rw [operatorsFrom_nil, operatorsFrom_nil]
    exact .ok (.intro hm [])
  | cons t rest =>
    rw [operatorsFrom_cons, operatorsFrom_cons]
    split
    · exact .ok (.intro hm _)
    split
    · split
      · exact .ok (.intro hm _)
      · refine (exprFrom_follows 0 rest).bind ?_
        rintro _ _ h₁ ⟨hthen, rest₁⟩
        have := length_exprFrom h₁
        refine .bind_same fun rest₂ h₂ => ?_
        have := length_behind h₂
        refine (exprFrom_follows 0 rest₂).bind ?_
        rintro _ _ - ⟨helse, rest₃⟩
        refine (fold_follows (hm.cond hthen helse t.pos)).bind ?_
        rintro e e' - he
        exact .ok (.intro he rest₃)
    · cases BinaryOp.ofSymbol? t.value with
      | none => exact .ok (.intro hm _)
      | some op =>
        simp only
        split
        · exact .ok (.intro hm _)
        · refine (exprFrom_follows op.rightStrength rest).bind ?_
          rintro _ _ h₁ ⟨hright, rest₁⟩
          have := length_exprFrom h₁
          refine (fold_follows (hm.binary op hright t.pos)).bind ?_
          rintro e e' - he
          exact operatorsFrom_follows least he rest₁
termination_by (tokens.length, 0)

theorem operandFrom_follows (tokens : List Token) :
    Follows (Alike SameMeaning) (operandFrom true tokens) (operandFrom false tokens) := by
  cases tokens with
  | nil =>
    rw [operandFrom_nil]
    exact .error
  | cons t rest =>
    rw [operandFrom_cons, operandFrom_cons]
    cases t.kind with
    | number =>
      rintro ⟨e, rest'⟩ he
      exact ⟨(e, rest'), he, .intro (.refl e) rest'⟩
    | text => exact .ok (.intro (.refl _) rest)
    | square =>
      simp only
      split
      · exact .error
      · exact chainFrom_follows (.refl _) rfl rest
    | word =>
      simp only
      split
      · exact chainFrom_follows (.refl _) rfl rest
      split
      · exact .ok (.intro (.refl _) rest)
      · cases Function.ofName? t.value with
        | none => exact .error
        | some f =>
          refine (argsFrom_follows rest).bind ?_
          rintro _ _ - ⟨hargs, rest'⟩
          simp only [hargs.length_eq]
          refine .bind_same fun _ _ => ?_
          refine (fold_follows (.call f hargs t.pos)).bind ?_
          rintro e e' - he
          exact .ok (.intro he rest')
    | symbol =>
      simp only
      split
      · refine (exprFrom_follows 0 rest).bind ?_
        rintro _ _ - ⟨hm, rest₁⟩
        refine .bind_same fun rest₂ _ => ?_
        exact .ok (.intro hm rest₂)
      · cases UnaryOp.ofSymbol? t.value with
        | some op =>
          refine (exprFrom_follows UnaryOp.strength rest).bind ?_
          rintro _ _ - ⟨hm, rest'⟩
          refine (fold_follows (hm.unary op t.pos)).bind ?_
          rintro e e' - he
          exact .ok (.intro he rest')
        | none =>
          simp only
          split
          · exact collectionFrom_follows t.pos rest
          · exact .error
    | finish => exact .error
termination_by (tokens.length, 1)

/-- Behind a reference both readings see the same places to index. -/
theorem chainFrom_follows {target target' : Expr} (hm : SameMeaning target target')
    (hi : isIndexable target = isIndexable target') (tokens : List Token) :
    Follows (Alike SameMeaning) (chainFrom true target tokens)
      (chainFrom false target' tokens) := by
  cases tokens with
  | nil =>
    rw [chainFrom_nil, chainFrom_nil]
    exact .ok (.intro hm [])
  | cons t rest =>
    rw [chainFrom_cons, chainFrom_cons, ← hi]
    split
    · cases rest with
      | nil => exact .error
      | cons name rest =>
        simp only
        split
        · exact chainFrom_follows (hm.output name.value name.pos) rfl rest
        · exact .error
    split
    · refine (exprFrom_follows 0 rest).bind ?_
      rintro _ _ h₁ ⟨hplace, rest₁⟩
      have := length_exprFrom h₁
      refine .bind_same fun rest₂ h₂ => ?_
      have := length_behind h₂
      exact chainFrom_follows (hm.index hplace t.pos) rfl rest₂
    · exact .ok (.intro hm _)
termination_by (tokens.length, 0)

theorem argsFrom_follows (tokens : List Token) :
    Follows (Alike SameMeanings) (argsFrom true tokens) (argsFrom false tokens) := by
  rw [argsFrom_eq, argsFrom_eq]
  refine .bind_same fun rest h => ?_
  have := length_behind h
  split
  · refine .bind_same fun rest' _ => ?_
    exact .ok (.intro .nil rest')
  · refine (itemsFrom_follows rest).bind ?_
    rintro _ _ - ⟨hargs, rest₁⟩
    refine .bind_same fun rest₂ _ => ?_
    exact .ok (.intro hargs rest₂)
termination_by (tokens.length, 0)

theorem collectionFrom_follows (pos : Nat) (tokens : List Token) :
    Follows (Alike SameMeaning) (collectionFrom true pos tokens)
      (collectionFrom false pos tokens) := by
  cases tokens with
  | nil =>
    rw [collectionFrom_nil]
    exact .error
  | cons t rest =>
    rw [collectionFrom_cons, collectionFrom_cons]
    split
    · exact .ok (.intro (.refl _) rest)
    split
    · refine (entriesFrom_follows [] (t :: rest)).bind ?_
      rintro _ _ - ⟨hentries, rest₁⟩
      refine .bind_same fun rest₂ _ => ?_
      refine (fold_follows (.map hentries pos)).bind ?_
      rintro e e' - he
      exact .ok (.intro he rest₂)
    · refine (itemsFrom_follows (t :: rest)).bind ?_
      rintro _ _ - ⟨hitems, rest₁⟩
      refine .bind_same fun rest₂ _ => ?_
      refine (fold_follows (.array hitems pos)).bind ?_
      rintro e e' - he
      exact .ok (.intro he rest₂)
termination_by (tokens.length, 4)

theorem itemsFrom_follows (tokens : List Token) :
    Follows (Alike SameMeanings) (itemsFrom true tokens) (itemsFrom false tokens) := by
  rw [itemsFrom_eq, itemsFrom_eq]
  refine (exprFrom_follows 0 tokens).bind ?_
  rintro _ _ h ⟨hitem, rest⟩
  have := length_exprFrom h
  cases rest with
  | nil => exact .ok (.intro (.cons hitem .nil) [])
  | cons t rest =>
    simp only
    split
    · have : rest.length < tokens.length := by
        simp only [List.length_cons] at this
        omega
      refine (itemsFrom_follows rest).bind ?_
      rintro _ _ - ⟨hitems, rest'⟩
      exact .ok (.intro (.cons hitem hitems) rest')
    · exact .ok (.intro (.cons hitem .nil) (t :: rest))
termination_by (tokens.length, 3)

theorem entriesFrom_follows (seen : List String) (tokens : List Token) :
    Follows (Alike SameEntries) (entriesFrom true seen tokens) (entriesFrom false seen tokens) := by
  cases tokens with
  | nil =>
    rw [entriesFrom_nil]
    exact .error
  | cons key rest =>
    rw [entriesFrom_cons, entriesFrom_cons]
    split
    · exact .error
    split
    · exact .error
    · refine .bind_same fun rest₁ h₁ => ?_
      have := length_behind h₁
      refine (exprFrom_follows 0 rest₁).bind ?_
      rintro _ _ h₂ ⟨hvalue, rest₂⟩
      have := length_exprFrom h₂
      cases rest₂ with
      | nil => exact .ok (.intro (.cons ⟨rfl, hvalue⟩ .nil) [])
      | cons t rest₃ =>
        simp only
        split
        · have : rest₃.length < rest.length := by
            simp only [List.length_cons] at this
            omega
          refine (entriesFrom_follows (key.value :: seen) rest₃).bind ?_
          rintro _ _ - ⟨hentries, rest₄⟩
          exact .ok (.intro (.cons ⟨rfl, hvalue⟩ hentries) rest₄)
        · exact .ok (.intro (.cons ⟨rfl, hvalue⟩ .nil) (t :: rest₃))
termination_by (tokens.length, 0)

end

end Parser

/-! ## Whole texts -/

theorem ofTokens?_follows (tokens : List Token) :
    Follows SameMeaning (Expr.ofTokens? true tokens) (Expr.ofTokens? false tokens) := by
  rw [Parser.ofTokens?_eq, Parser.ofTokens?_eq]
  refine (Parser.exprFrom_follows 0 tokens).bind ?_
  rintro _ _ - ⟨hm, rest⟩
  cases rest with
  | nil => exact .ok hm
  | cons t rest =>
    simp only
    split
    · exact .ok hm
    · exact .error

/-- A text that can be read with folding can be read without, with the same meaning. -/
theorem parse?_follows (source : String) :
    Follows SameMeaning (Expr.parse? source true) (Expr.parse? source false) := by
  refine .bind_same fun tokens _ => ?_
  intro e he
  obtain ⟨e', he', hm⟩ := ofTokens?_follows tokens e (anchored_eq_ok.1 he)
  exact ⟨e', anchored_eq_ok.2 he', hm⟩

/-- **Folding keeps the meaning of a text**: whatever the text refers to, both expressions have the
same result, or the same failure at the same position; so they evaluate alike for every entity, in
every world and at every time. -/
theorem parse?_fold_sameMeaning {source : String} {folded unfolded : Expression}
    (h : Expression.parse? source true = .ok folded)
    (h' : Expression.parse? source false = .ok unfolded) :
    SameMeaning folded.root unfolded.root ∧
      ∀ (w : World) (this : Option EntityId) (t : Float) (everywhere : Bool),
        w.evaluate folded this t everywhere = w.evaluate unfolded this t everywhere := by
  obtain ⟨e, he, hf⟩ := bind_eq_ok.1 h
  obtain ⟨e', he', hu⟩ := bind_eq_ok.1 h'
  cases hf
  cases hu
  have hm : SameMeaning e e' := by
    obtain ⟨e'', he'', hm⟩ := parse?_follows source e he
    rw [he'] at he''
    cases he''
    exact hm
  refine ⟨hm, ?_⟩
  intro w this t everywhere
  rw [World.evaluate, World.evaluate, World.evaluateWith, World.evaluateWith,
    hm (w.envWith w.readings this everywhere t)]
  rfl

set_option maxRecDepth 20000 in
/-- An array with one constant item and a reference, of which only the item is folded. -/
theorem parse?_fold_sameMeaning_array :
    ∃ folded unfolded : Expression,
      Expression.parse? "\x7b\"a\"+\"b\",[c]\x7d" true = .ok folded ∧
      Expression.parse? "\x7b\"a\"+\"b\",[c]\x7d" false = .ok unfolded ∧
      folded.root = .array [.literal (.text "ab") 4, .entity (some "c") 9] 0 ∧
      unfolded.root =
        .array [.binary .add (.literal (.text "a") 1) (.literal (.text "b") 5) 4,
          .entity (some "c") 9] 0 ∧
      SameMeaning folded.root unfolded.root ∧
      ∀ (w : World) (this : Option EntityId) (t : Float) (everywhere : Bool),
        w.evaluate folded this t everywhere = w.evaluate unfolded this t everywhere := by
  have ht : Token.tokenize "\x7b\"a\"+\"b\",[c]\x7d" =
      .ok [⟨.symbol, "\x7b", 0⟩, ⟨.text, "a", 1⟩, ⟨.symbol, "+", 4⟩, ⟨.text, "b", 5⟩,
        ⟨.symbol, ",", 8⟩, ⟨.square, "c", 9⟩, ⟨.symbol, "\x7d", 12⟩, ⟨.finish, "", 13⟩] := by
    cbv
  have h : Expression.parse? "\x7b\"a\"+\"b\",[c]\x7d" true =
      .ok ⟨"\x7b\"a\"+\"b\",[c]\x7d",
        .array [.literal (.text "ab") 4, .entity (some "c") 9] 0⟩ := by
    rw [Expression.parse?, Expr.parse?, ht]
    cbv
  have h' : Expression.parse? "\x7b\"a\"+\"b\",[c]\x7d" false =
      .ok ⟨"\x7b\"a\"+\"b\",[c]\x7d",
        .array [.binary .add (.literal (.text "a") 1) (.literal (.text "b") 5) 4,
          .entity (some "c") 9] 0⟩ := by
    rw [Expression.parse?, Expr.parse?, ht]
    cbv
  exact ⟨_, _, h, h', rfl, rfl, parse?_fold_sameMeaning h h'⟩

end ModelInputs
