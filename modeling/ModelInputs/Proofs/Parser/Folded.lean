import ModelInputs.Proofs.Folded
import ModelInputs.Proofs.Parser.Readers

/-!
# Reading with folding

To read an expression with its constant parts folded is to read it as it stands and to fold the tree
that was read. The two readings run side by side and take the same tokens, until a part can not be
folded. There the one that folds stops, while the other one goes on: it may still read the whole
expression, which then has this part, or fail later at something else.

* `ReadsFolded`: what is read with folding, beside what is read without;
* `operatorsFrom_part`, `chainFrom_part`: what was read before stays part of the expression;
* `exprFrom_readsFolded` and its like: the readers side by side;
* **`ofTokens?_folded`**: whole expressions.
-/

namespace ModelInputs

open ModelInputs.Expr (folded foldedItems foldedEntries)

namespace Expr

theorem folded_eq_mathDomain {e : Expr} {f : Failure} (h : e.folded = .error f) : f = .mathDomain :=
  (of_folded_eq_error h).1

theorem foldedItems_eq_mathDomain {items : List Expr} {f : Failure}
    (h : foldedItems items = .error f) : f = .mathDomain := by
  obtain ⟨c, -, hc⟩ := foldedItems_eq_error h
  exact folded_eq_mathDomain hc

theorem foldedEntries_eq_mathDomain {entries : List (String × Expr)} {f : Failure}
    (h : foldedEntries entries = .error f) : f = .mathDomain := by
  obtain ⟨c, -, hc⟩ := foldedEntries_eq_error h
  exact folded_eq_mathDomain hc

theorem length_of_foldedItems {items items' : List Expr} (h : foldedItems items = .ok items') :
    items'.length = items.length :=
  (foldsTo_items h fun _ _ {_} hc => foldsTo_of_folded_eq_ok hc).length_eq.symm

/-- What has a part that can not be folded can not be folded. -/
theorem Part.folded_eq_error {e p : Expr} (hp : e.Part p) (h : p.folded = .error .mathDomain) :
    e.folded = .error .mathDomain := by
  obtain ⟨q, hq, hu⟩ := folded_eq_error_iff.1 h
  exact folded_eq_error_iff.2 ⟨q, hp.trans hq, hu⟩

end Expr

namespace Parser

/-- What is read with folding is what is read without, folded. If nothing is read without folding,
the same failure stops the reading with folding, unless something can not be folded before. -/
def ReadsFolded {α : Type} (g : α → Except Failure α) (x y : Except Failure (α × List Token)) :
    Prop :=
  match y with
  | .ok (a, rest) => x = (g a).map (·, rest)
  | .error f => x = .error f ∨ x = .error .mathDomain

section

variable {α β γ : Type} {g : α → Except Failure α} {g' : β → Except Failure β}

theorem ReadsFolded.ok {a a' : α} (h : g a = .ok a') (rest : List Token) :
    ReadsFolded g (.ok (a', rest)) (.ok (a, rest)) := by
  show _ = (g a).map _
  rw [h]
  rfl

theorem ReadsFolded.error {f : Failure} : ReadsFolded g (.error f) (.error f) :=
  .inl rfl

theorem ReadsFolded.bind_same {x : Except Failure γ} {k k' : γ → Except Failure (α × List Token)}
    (hk : ∀ c, x = .ok c → ReadsFolded g (k c) (k' c)) : ReadsFolded g (x >>= k) (x >>= k') := by
  cases x with
  | error f => exact .inl rfl
  | ok c => exact hk c rfl

/-- One computation after the other. If what is read first can not be folded, then the whole can
not be folded either. -/
theorem ReadsFolded.bind {x y : Except Failure (α × List Token)}
    {k k' : α × List Token → Except Failure (β × List Token)} (h : ReadsFolded g x y)
    (hg : ∀ {a f}, g a = .error f → f = .mathDomain)
    (hk : ∀ a a' rest, y = .ok (a, rest) → g a = .ok a' →
      ReadsFolded g' (k (a', rest)) (k' (a, rest)))
    (hstop : ∀ a b rest rest', g a = .error .mathDomain → k' (a, rest) = .ok (b, rest') →
      g' b = .error .mathDomain) :
    ReadsFolded g' (x >>= k) (y >>= k') := by
  cases y with
  | error f =>
    obtain rfl | rfl := h
    · exact .inl rfl
    · exact .inr rfl
  | ok r =>
    obtain ⟨a, rest⟩ := r
    cases hga : g a with
    | ok a' =>
      have hx : x = .ok (a', rest) := by rw [show x = (g a).map (·, rest) from h, hga]; rfl
      subst hx
      exact hk a a' rest rfl hga
    | error f =>
      obtain rfl := hg hga
      have hx : x = .error .mathDomain := by rw [show x = (g a).map (·, rest) from h, hga]; rfl
      subst hx
      show ReadsFolded g' (.error .mathDomain) (k' (a, rest))
      cases hk' : k' (a, rest) with
      | error f => exact .inr rfl
      | ok r =>
        obtain ⟨b, rest'⟩ := r
        show _ = (g' b).map _
        rw [hstop a b rest rest' hga hk']
        rfl

/-- A node is made of what was read, and the reading goes on behind it. -/
theorem ReadsFolded.node_bind {node node' : Expr} {k k' : Expr → Except Failure (Expr × List Token)}
    (h : node.folded = node'.fold true)
    (hk : ∀ e, node.folded = .ok e → ReadsFolded folded (k e) (k' node))
    (hpart : ∀ e rest, k' node = .ok (e, rest) → e.Part node) :
    ReadsFolded folded (node'.fold true >>= k) (node.fold false >>= k') := by
  show ReadsFolded folded _ (k' node)
  rw [← h]
  cases hnode : node.folded with
  | ok e => exact hk e hnode
  | error f =>
    obtain rfl := Expr.folded_eq_mathDomain hnode
    show ReadsFolded folded (.error .mathDomain) (k' node)
    cases hk' : k' node with
    | error f => exact .inr rfl
    | ok r =>
      obtain ⟨e, rest⟩ := r
      show _ = e.folded.map _
      rw [(hpart e rest hk').folded_eq_error hnode]
      rfl

/-- A node is made of what was read. -/
theorem ReadsFolded.node {node node' : Expr} (h : node.folded = node'.fold true)
    (rest : List Token) :
    ReadsFolded folded (do return (← node'.fold true, rest))
      (do return (← node.fold false, rest)) := by
  refine .node_bind h (fun e he => .ok he rest) ?_
  rintro _ _ ⟨⟩
  exact .self

end

/-! ## What was read before -/

/-- The operand in front of some operators is part of the expression that they make. -/
theorem operatorsFrom_part {least : Nat} {left e : Expr} (tokens : List Token) {rest : List Token} :
    operatorsFrom false least left tokens = .ok (e, rest) → e.Part left := by
  intro h
  cases tokens with
  | nil =>
    rw [operatorsFrom_nil] at h
    cases h
    exact .self
  | cons t tokens =>
    rw [operatorsFrom_cons] at h
    split at h
    · cases h
      exact .self
    split at h
    · split at h
      · cases h
        exact .self
      · obtain ⟨⟨thenExpr, rest₁⟩, -, h⟩ := bind_eq_ok.1 h
        obtain ⟨rest₂, -, h⟩ := bind_eq_ok.1 h
        obtain ⟨⟨elseExpr, rest₃⟩, -, h⟩ := bind_eq_ok.1 h
        obtain ⟨_, ⟨⟩, ⟨⟩⟩ := bind_eq_ok.1 h
        exact .child .self (.head _)
    · cases hop : BinaryOp.ofSymbol? t.value with
      | none =>
        rw [hop] at h
        cases h
        exact .self
      | some op =>
        rw [hop] at h
        simp only at h
        split at h
        · cases h
          exact .self
        · obtain ⟨⟨right, rest₁⟩, hright, h⟩ := bind_eq_ok.1 h
          obtain ⟨_, ⟨⟩, h⟩ := bind_eq_ok.1 h
          have := length_exprFrom hright
          exact (operatorsFrom_part _ h).child (.head _)
termination_by tokens.length
decreasing_by all_goals (subst_vars; simp only [List.length_cons]; omega)

/-- The reference in front of some outputs and places is part of the expression that they make. -/
theorem chainFrom_part {target e : Expr} (tokens : List Token) {rest : List Token} :
    chainFrom false target tokens = .ok (e, rest) → e.Part target := by
  intro h
  cases tokens with
  | nil =>
    rw [chainFrom_nil] at h
    cases h
    exact .self
  | cons t tokens =>
    rw [chainFrom_cons] at h
    split at h
    · cases tokens with
      | nil => cases h
      | cons name tokens =>
        simp only at h
        split at h
        · exact (chainFrom_part _ h).child (.head _)
        · cases h
    split at h
    · obtain ⟨⟨i, rest₁⟩, hi, h⟩ := bind_eq_ok.1 h
      obtain ⟨rest₂, h₂, h⟩ := bind_eq_ok.1 h
      have := length_exprFrom hi
      have := length_behind h₂
      exact (chainFrom_part _ h).child (.head _)
    · cases h
      exact .self
termination_by tokens.length
decreasing_by all_goals (subst_vars; simp only [List.length_cons]; omega)

/-! ## The readers side by side -/

theorem numberFrom_readsFolded (t : Token) (tokens : List Token) :
    ReadsFolded folded (numberFrom t tokens) (numberFrom t tokens) := by
  rw [numberFrom_eq]
  split
  · exact .error
  split
  · split
    · split
      · exact .ok rfl _
      · exact .error
    · exact .ok rfl _
  · exact .ok rfl _

mutual

theorem exprFrom_readsFolded (least : Nat) (tokens : List Token) :
    ReadsFolded folded (exprFrom true least tokens) (exprFrom false least tokens) := by
  rw [exprFrom_eq, exprFrom_eq]
  refine (operandFrom_readsFolded tokens).bind Expr.folded_eq_mathDomain ?_ ?_
  · intro a a' rest h ha
    have := length_operandFrom h
    exact operatorsFrom_readsFolded least ha rest
  · intro a b rest rest' ha h
    exact (operatorsFrom_part _ h).folded_eq_error ha
termination_by (tokens.length, 2)

theorem operatorsFrom_readsFolded (least : Nat) {left left' : Expr} (hleft : left.folded = .ok left')
    (tokens : List Token) :
    ReadsFolded folded (operatorsFrom true least left' tokens)
      (operatorsFrom false least left tokens) := by
  cases tokens with
  | nil =>
    rw [operatorsFrom_nil, operatorsFrom_nil]
    exact .ok hleft []
  | cons t rest =>
    rw [operatorsFrom_cons, operatorsFrom_cons]
    split
    · exact .ok hleft _
    split
    · split
      · exact .ok hleft _
      · refine (exprFrom_readsFolded 0 rest).bind Expr.folded_eq_mathDomain ?_ ?_
        · intro a a' rest₁ h₁ ha
          have := length_exprFrom h₁
          refine .bind_same fun rest₂ h₂ => ?_
          have := length_behind h₂
          refine (exprFrom_readsFolded 0 rest₂).bind Expr.folded_eq_mathDomain ?_ ?_
          · intro b b' rest₃ _ hb
            refine .node ?_ rest₃
            rw [folded, hleft, ha, hb]
            rfl
          · intro b c rest₃ rest₄ hb h
            obtain ⟨_, ⟨⟩, ⟨⟩⟩ := bind_eq_ok.1 h
            exact (Expr.Part.self.child (.tail _ (.tail _ (.head _)))).folded_eq_error hb
        · intro a c rest₁ rest₄ ha h
          obtain ⟨rest₂, -, h⟩ := bind_eq_ok.1 h
          obtain ⟨⟨b, rest₃⟩, -, h⟩ := bind_eq_ok.1 h
          obtain ⟨_, ⟨⟩, ⟨⟩⟩ := bind_eq_ok.1 h
          exact (Expr.Part.self.child (.tail _ (.head _))).folded_eq_error ha
    · cases BinaryOp.ofSymbol? t.value with
      | none => exact .ok hleft _
      | some op =>
        simp only
        split
        · exact .ok hleft _
        · refine (exprFrom_readsFolded op.rightStrength rest).bind Expr.folded_eq_mathDomain ?_ ?_
          · intro right right' rest₁ h₁ hright
            have := length_exprFrom h₁
            refine .node_bind ?_ (fun e he => ?_) fun e rest₂ h => operatorsFrom_part _ h
            · rw [folded, hleft, hright]
              rfl
            · exact operatorsFrom_readsFolded least he rest₁
          · intro right e rest₁ rest₂ hright h
            obtain ⟨_, ⟨⟩, h⟩ := bind_eq_ok.1 h
            exact ((operatorsFrom_part _ h).child (.tail _ (.head _))).folded_eq_error hright
termination_by (tokens.length, 0)

theorem operandFrom_readsFolded (tokens : List Token) :
    ReadsFolded folded (operandFrom true tokens) (operandFrom false tokens) := by
  cases tokens with
  | nil =>
    rw [operandFrom_nil, operandFrom_nil]
    exact .error
  | cons t rest =>
    rw [operandFrom_cons, operandFrom_cons]
    cases t.kind with
    | number => exact numberFrom_readsFolded t rest
    | text => exact .ok rfl rest
    | square =>
      simp only
      split
      · exact .error
      · exact chainFrom_readsFolded rfl rfl rest
    | word =>
      simp only
      split
      · exact chainFrom_readsFolded rfl rfl rest
      split
      · exact .ok rfl rest
      · cases Function.ofName? t.value with
        | none => exact .error
        | some f =>
          refine (argsFrom_readsFolded rest).bind Expr.foldedItems_eq_mathDomain ?_ ?_
          · intro args args' rest' _ hargs
            rw [Expr.length_of_foldedItems hargs]
            refine .bind_same fun _ _ => .node ?_ rest'
            rw [folded, hargs]
            rfl
          · intro args e rest₁ rest₂ hargs h
            obtain ⟨-, -, h⟩ := bind_eq_ok.1 h
            obtain ⟨_, ⟨⟩, ⟨⟩⟩ := bind_eq_ok.1 h
            rw [folded, hargs]
            rfl
    | symbol =>
      simp only
      split
      · refine (exprFrom_readsFolded 0 rest).bind Expr.folded_eq_mathDomain ?_ ?_
        · intro e e' rest₁ _ he
          refine .bind_same fun rest₂ _ => ?_
          exact .ok he rest₂
        · intro e e' rest₁ rest₂ he h
          obtain ⟨_, -, ⟨⟩⟩ := bind_eq_ok.1 h
          exact he
      · cases UnaryOp.ofSymbol? t.value with
        | some op =>
          refine (exprFrom_readsFolded UnaryOp.strength rest).bind Expr.folded_eq_mathDomain ?_ ?_
          · intro operand operand' rest' _ ho
            refine .node ?_ rest'
            rw [folded, ho]
            rfl
          · intro operand e rest₁ rest₂ ho h
            obtain ⟨_, ⟨⟩, ⟨⟩⟩ := bind_eq_ok.1 h
            exact (Expr.Part.self.child (.head _)).folded_eq_error ho
        | none =>
          simp only
          split
          · exact collectionFrom_readsFolded t.pos rest
          · exact .error
    | finish => exact .error
termination_by (tokens.length, 1)

/-- Behind a reference both readings see the same places to index. -/
theorem chainFrom_readsFolded {target target' : Expr} (htarget : target.folded = .ok target')
    (hi : isIndexable target = isIndexable target') (tokens : List Token) :
    ReadsFolded folded (chainFrom true target' tokens) (chainFrom false target tokens) := by
  cases tokens with
  | nil =>
    rw [chainFrom_nil, chainFrom_nil]
    exact .ok htarget []
  | cons t rest =>
    rw [chainFrom_cons, chainFrom_cons, ← hi]
    split
    · cases rest with
      | nil => exact .error
      | cons name rest =>
        simp only
        split
        · have houtput : (Expr.output target name.value name.pos).folded =
              .ok (.output target' name.value name.pos) := by
            rw [folded, htarget]
            rfl
          exact chainFrom_readsFolded houtput rfl rest
        · exact .error
    split
    · refine (exprFrom_readsFolded 0 rest).bind Expr.folded_eq_mathDomain ?_ ?_
      · intro place place' rest₁ h₁ hplace
        have := length_exprFrom h₁
        refine .bind_same fun rest₂ h₂ => ?_
        have := length_behind h₂
        have hindex : (Expr.index target place t.pos).folded =
            .ok (.index target' place' t.pos) := by
          rw [folded, htarget, hplace]
          rfl
        exact chainFrom_readsFolded hindex rfl rest₂
      · intro place e rest₁ rest₂ hplace h
        obtain ⟨_, -, h⟩ := bind_eq_ok.1 h
        exact ((chainFrom_part _ h).child (.tail _ (.head _))).folded_eq_error hplace
    · exact .ok htarget _
termination_by (tokens.length, 0)

theorem argsFrom_readsFolded (tokens : List Token) :
    ReadsFolded foldedItems (argsFrom true tokens) (argsFrom false tokens) := by
  rw [argsFrom_eq, argsFrom_eq]
  refine .bind_same fun rest h => ?_
  have := length_behind h
  split
  · refine .bind_same fun rest' _ => ?_
    exact .ok rfl rest'
  · refine (itemsFrom_readsFolded rest).bind Expr.foldedItems_eq_mathDomain ?_ ?_
    · intro args args' rest₁ _ hargs
      refine .bind_same fun rest₂ _ => ?_
      exact .ok hargs rest₂
    · intro args args' rest₁ rest₂ hargs h
      obtain ⟨_, -, ⟨⟩⟩ := bind_eq_ok.1 h
      exact hargs
termination_by (tokens.length, 0)

theorem collectionFrom_readsFolded (pos : Nat) (tokens : List Token) :
    ReadsFolded folded (collectionFrom true pos tokens) (collectionFrom false pos tokens) := by
  cases tokens with
  | nil =>
    rw [collectionFrom_nil, collectionFrom_nil]
    exact .error
  | cons t rest =>
    rw [collectionFrom_cons, collectionFrom_cons]
    split
    · exact .ok rfl rest
    split
    · refine (entriesFrom_readsFolded [] (t :: rest)).bind Expr.foldedEntries_eq_mathDomain ?_ ?_
      · intro entries entries' rest₁ _ hentries
        refine .bind_same fun rest₂ _ => .node ?_ rest₂
        rw [folded, hentries]
        rfl
      · intro entries e rest₁ rest₂ hentries h
        obtain ⟨_, -, h⟩ := bind_eq_ok.1 h
        obtain ⟨_, ⟨⟩, ⟨⟩⟩ := bind_eq_ok.1 h
        rw [folded, hentries]
        rfl
    · refine (itemsFrom_readsFolded (t :: rest)).bind Expr.foldedItems_eq_mathDomain ?_ ?_
      · intro items items' rest₁ _ hitems
        refine .bind_same fun rest₂ _ => .node ?_ rest₂
        rw [folded, hitems]
        rfl
      · intro items e rest₁ rest₂ hitems h
        obtain ⟨_, -, h⟩ := bind_eq_ok.1 h
        obtain ⟨_, ⟨⟩, ⟨⟩⟩ := bind_eq_ok.1 h
        rw [folded, hitems]
        rfl
termination_by (tokens.length, 4)

theorem itemsFrom_readsFolded (tokens : List Token) :
    ReadsFolded foldedItems (itemsFrom true tokens) (itemsFrom false tokens) := by
  rw [itemsFrom_eq, itemsFrom_eq]
  refine (exprFrom_readsFolded 0 tokens).bind Expr.folded_eq_mathDomain ?_ ?_
  · intro item item' rest h hitem
    have := length_exprFrom h
    have hone : foldedItems [item] = .ok [item'] := by
      rw [foldedItems, hitem]
      rfl
    cases rest with
    | nil => exact .ok hone []
    | cons t rest =>
      simp only
      split
      · have : rest.length < tokens.length := by
          simp only [List.length_cons] at this
          omega
        refine (itemsFrom_readsFolded rest).bind Expr.foldedItems_eq_mathDomain ?_ ?_
        · intro items items' rest' _ hitems
          refine .ok ?_ rest'
          rw [foldedItems, hitem, hitems]
          rfl
        · rintro items _ rest₁ rest₂ hitems ⟨⟩
          rw [foldedItems, hitem, hitems]
          rfl
      · exact .ok hone (t :: rest)
  · intro item items rest rest' hitem h
    have hfirst : ∀ others, foldedItems (item :: others) = .error .mathDomain := by
      intro others
      rw [foldedItems, hitem]
      rfl
    cases rest with
    | nil =>
      cases h
      exact hfirst []
    | cons t rest =>
      simp only at h
      split at h
      · obtain ⟨⟨others, _⟩, -, ⟨⟩⟩ := bind_eq_ok.1 h
        exact hfirst others
      · cases h
        exact hfirst []
termination_by (tokens.length, 3)

theorem entriesFrom_readsFolded (seen : List String) (tokens : List Token) :
    ReadsFolded foldedEntries (entriesFrom true seen tokens) (entriesFrom false seen tokens) := by
  cases tokens with
  | nil =>
    rw [entriesFrom_nil, entriesFrom_nil]
    exact .error
  | cons key rest =>
    rw [entriesFrom_cons, entriesFrom_cons]
    split
    · exact .error
    split
    · exact .error
    · refine .bind_same fun rest₁ h₁ => ?_
      have := length_behind h₁
      refine (exprFrom_readsFolded 0 rest₁).bind Expr.folded_eq_mathDomain ?_ ?_
      · intro value value' rest₂ h₂ hvalue
        have := length_exprFrom h₂
        have hone : foldedEntries [(key.value, value)] = .ok [(key.value, value')] := by
          rw [foldedEntries, hvalue]
          rfl
        cases rest₂ with
        | nil => exact .ok hone []
        | cons t rest₃ =>
          simp only
          split
          · have : rest₃.length < rest.length := by
              simp only [List.length_cons] at this
              omega
            refine (entriesFrom_readsFolded (key.value :: seen) rest₃).bind
              Expr.foldedEntries_eq_mathDomain ?_ ?_
            · intro entries entries' rest₄ _ hentries
              refine .ok ?_ rest₄
              rw [foldedEntries, hvalue, hentries]
              rfl
            · rintro entries _ rest₄ rest₅ hentries ⟨⟩
              rw [foldedEntries, hvalue, hentries]
              rfl
          · exact .ok hone (t :: rest₃)
      · intro value entries rest₂ rest₅ hvalue h
        have hfirst : ∀ others, foldedEntries ((key.value, value) :: others) =
            .error .mathDomain := by
          intro others
          rw [foldedEntries, hvalue]
          rfl
        cases rest₂ with
        | nil =>
          cases h
          exact hfirst []
        | cons t rest₃ =>
          simp only at h
          split at h
          · obtain ⟨⟨others, _⟩, -, ⟨⟩⟩ := bind_eq_ok.1 h
            exact hfirst others
          · cases h
            exact hfirst []
termination_by (tokens.length, 0)

end

/-! ## Whole expressions -/

/-- Nothing comes behind an expression. -/
def ending (rest : List Token) : Except Failure Unit :=
  match rest with
  | t :: _ => if t.kind = .finish then .ok () else failAt t.pos .unexpectedRest
  | [] => .ok ()

theorem ofTokens?_eq_ending (fold : Bool) (tokens : List Token) :
    Expr.ofTokens? fold tokens = (do
      let (e, rest) ← exprFrom fold 0 tokens
      ending rest
      return e) := by
  rw [ofTokens?_eq]
  congr
  funext ⟨e, rest⟩
  cases rest with
  | nil => rfl
  | cons t rest =>
    simp only [ending]
    split <;> rfl

/-- **To read an expression with folding is to read it and to fold what was read**, up to what stops
the folding while the rest is not read yet. -/
theorem ofTokens?_folded (tokens : List Token) :
    (∀ e, Expr.ofTokens? false tokens = .ok e → Expr.ofTokens? true tokens = e.folded) ∧
      ∀ f, Expr.ofTokens? false tokens = .error f →
        Expr.ofTokens? true tokens = .error f ∨ Expr.ofTokens? true tokens = .error .mathDomain := by
  have h := exprFrom_readsFolded 0 tokens
  rw [ofTokens?_eq_ending, ofTokens?_eq_ending]
  cases hy : exprFrom false 0 tokens with
  | error f =>
    rw [hy] at h
    constructor
    · rintro e ⟨⟩
    · rintro _ ⟨⟩
      obtain hx | hx := h
      · rw [hx]
        exact .inl rfl
      · rw [hx]
        exact .inr rfl
  | ok r =>
    obtain ⟨e, rest⟩ := r
    rw [hy] at h
    rw [show exprFrom true 0 tokens = e.folded.map (·, rest) from h]
    have hgo (e' : Expr) : (do
        let (e, rest) ← (Except.ok e' : Except Failure Expr).map (·, rest)
        ending rest
        return e) = (do ending rest; return e') := rfl
    cases he : e.folded with
    | ok e' =>
      rw [hgo, ok_bind]
      constructor
      · intro e'' h''
        obtain ⟨⟨⟩, hend, ⟨⟩⟩ := bind_eq_ok.1 h''
        rw [hend, he]
        rfl
      · intro f hf
        obtain hend | ⟨-, -, ⟨⟩⟩ := bind_eq_error.1 hf
        rw [hend]
        exact .inl rfl
    | error f =>
      obtain rfl := Expr.folded_eq_mathDomain he
      rw [ok_bind]
      refine ⟨fun e' he' => ?_, fun _ _ => .inr rfl⟩
      obtain ⟨-, -, ⟨⟩⟩ := bind_eq_ok.1 he'
      rw [he]
      rfl

end Parser

end ModelInputs
