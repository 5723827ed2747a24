import Mathlib.Data.List.Forall2
import ModelInputs.Expression.Fold
import ModelInputs.Proofs.Outcome

/-!
# Expressions of the same meaning

Two expressions mean the same if they have the same outcome in every environment: the same result,
or the same failure at the same position. Meaning is kept by every way of building expressions, and
a node of constants has its value without looking at its environment, so folding keeps it too.

* `SameMeaning`, `SameMeanings`, `SameEntries`: equal outcomes, of one expression or of several;
* `SameMeaning.output` and its like: a node means the same if its children do;
* `Expr.eval_of_hasConstantChildren`: constants need no environment;
* **`SameMeaning.of_fold`**: a folded node means what the node means.
-/

namespace ModelInputs

/-- Two expressions have the same outcome in every environment. -/
def SameMeaning (e e' : Expr) : Prop :=
  ∀ env, e.eval env = e'.eval env

/-- Expressions that mean the same, one by one. -/
abbrev SameMeanings : List Expr → List Expr → Prop :=
  List.Forall₂ SameMeaning

/-- Entries of maps with the same keys and with values that mean the same. -/
abbrev SameEntries : List (String × Expr) → List (String × Expr) → Prop :=
  List.Forall₂ fun entry entry' => entry.1 = entry'.1 ∧ SameMeaning entry.2 entry'.2

theorem SameMeaning.refl (e : Expr) : SameMeaning e e :=
  fun _ => rfl

theorem SameMeaning.trans {e e' e'' : Expr} (h : SameMeaning e e') (h' : SameMeaning e' e'') :
    SameMeaning e e'' :=
  fun env => (h env).trans (h' env)

/-! ## Evaluation, node by node -/

namespace Expr

section

variable (env : Env) (pos : Nat)

theorem eval_literal (value : Result) : (literal value pos).eval env = .ok value :=
  rfl

theorem eval_output (target : Expr) (name : String) :
    (output target name pos).eval env = (do evalOutput env (← target.eval env) name pos) :=
  rfl

theorem eval_index (target i : Expr) :
    (index target i pos).eval env = (do
      let target ← target.eval env
      let i ← i.eval env
      (itemAt env.nameOf target i).mapError (.exprAt pos)) :=
  rfl

theorem eval_binary (op : BinaryOp) (left right : Expr) :
    (binary op left right pos).eval env = (do
      let l ← left.eval env
      match op with
      | .and => evalAnd pos l fun _ => right.eval env
      | .or => evalOr pos l fun _ => right.eval env
      | op => placed pos (op.apply l (← right.eval env))) :=
  rfl

theorem eval_unary (op : UnaryOp) (operand : Expr) :
    (unary op operand pos).eval env = (do placed pos (op.apply (← operand.eval env))) :=
  rfl

theorem eval_cond (c a b : Expr) :
    (cond c a b pos).eval env = (do
      if ← placed pos (← c.eval env).truth then a.eval env else b.eval env) :=
  rfl

theorem eval_call (f : Function) (args : List Expr) :
    (call f args pos).eval env = (do placed pos (f.apply (← evalItems env args))) :=
  rfl

theorem eval_array (items : List Expr) :
    (array items pos).eval env = (do return .array (← evalItems env items)) :=
  rfl

theorem eval_map (entries : List (String × Expr)) :
    (map entries pos).eval env = (do return .map (← evalEntries env entries)) :=
  rfl

theorem evalItems_cons (item : Expr) (items : List Expr) :
    evalItems env (item :: items) = (do
      let first ← item.eval env
      return first :: (← evalItems env items)) :=
  rfl

theorem evalEntries_cons (key : String) (value : Expr) (entries : List (String × Expr)) :
    evalEntries env ((key, value) :: entries) = (do
      let first ← value.eval env
      return (key, first) :: (← evalEntries env entries)) :=
  rfl

end

section

variable {env : Env} {pos : Nat} {res : Result}

theorem eval_unary_eq_ok {op : UnaryOp} {operand : Expr} :
    (unary op operand pos).eval env = .ok res ↔
      ∃ r, operand.eval env = .ok r ∧ op.apply r = .ok res := by
  rw [eval_unary, bind_eq_ok]
  exact exists_congr fun r => and_congr_right fun _ => mapError_eq_ok

theorem eval_call_eq_ok {f : Function} {args : List Expr} :
    (call f args pos).eval env = .ok res ↔
      ∃ rs, evalItems env args = .ok rs ∧ f.apply rs = .ok res := by
  rw [eval_call, bind_eq_ok]
  exact exists_congr fun rs => and_congr_right fun _ => mapError_eq_ok

end

/-! ## Nodes over children of the same meaning -/

theorem evalItems_of_sameMeanings {items items' : List Expr} (h : SameMeanings items items')
    (env : Env) : evalItems env items = evalItems env items' := by
  induction h with
  | nil => rfl
  | cons hi _ ih => rw [evalItems_cons, evalItems_cons, hi env, ih]

theorem evalEntries_of_sameEntries {entries entries' : List (String × Expr)}
    (h : SameEntries entries entries') (env : Env) :
    evalEntries env entries = evalEntries env entries' := by
  induction h with
  | nil => rfl
  | @cons entry entry' _ _ he _ ih =>
    obtain ⟨key, value⟩ := entry
    obtain ⟨key', value'⟩ := entry'
    obtain ⟨hk, hv⟩ := he
    rw [evalEntries_cons, evalEntries_cons, hv env, ih, show key = key' from hk]

end Expr

namespace SameMeaning

variable {target target' i i' left left' right right' operand operand' : Expr}

theorem output (h : SameMeaning target target') (name : String) (pos : Nat) :
    SameMeaning (.output target name pos) (.output target' name pos) := by
  intro env
  rw [Expr.eval_output, Expr.eval_output, h env]

theorem index (h : SameMeaning target target') (hi : SameMeaning i i') (pos : Nat) :
    SameMeaning (.index target i pos) (.index target' i' pos) := by
  intro env
  rw [Expr.eval_index, Expr.eval_index, h env, hi env]

theorem binary (op : BinaryOp) (hl : SameMeaning left left') (hr : SameMeaning right right')
    (pos : Nat) : SameMeaning (.binary op left right pos) (.binary op left' right' pos) := by
  intro env
  rw [Expr.eval_binary, Expr.eval_binary, hl env, hr env]

theorem unary (op : UnaryOp) (h : SameMeaning operand operand') (pos : Nat) :
    SameMeaning (.unary op operand pos) (.unary op operand' pos) := by
  intro env
  rw [Expr.eval_unary, Expr.eval_unary, h env]

theorem cond {c c' a a' b b' : Expr} (hc : SameMeaning c c') (ha : SameMeaning a a')
    (hb : SameMeaning b b') (pos : Nat) :
    SameMeaning (.cond c a b pos) (.cond c' a' b' pos) := by
  intro env
  rw [Expr.eval_cond, Expr.eval_cond, hc env, ha env, hb env]

theorem call (f : Function) {args args' : List Expr} (h : SameMeanings args args') (pos : Nat) :
    SameMeaning (.call f args pos) (.call f args' pos) := by
  intro env
  rw [Expr.eval_call, Expr.eval_call, Expr.evalItems_of_sameMeanings h env]

theorem array {items items' : List Expr} (h : SameMeanings items items') (pos : Nat) :
    SameMeaning (.array items pos) (.array items' pos) := by
  intro env
  rw [Expr.eval_array, Expr.eval_array, Expr.evalItems_of_sameMeanings h env]

theorem map {entries entries' : List (String × Expr)} (h : SameEntries entries entries')
    (pos : Nat) : SameMeaning (.map entries pos) (.map entries' pos) := by
  intro env
  rw [Expr.eval_map, Expr.eval_map, Expr.evalEntries_of_sameEntries h env]

end SameMeaning

/-! ## Constants need no environment -/

namespace Expr

theorem eval_of_isLiteral {e : Expr} (h : e.isLiteral = true) (env env' : Env) :
    e.eval env = e.eval env' := by
  cases e with
  | literal value pos => rfl
  | _ => cases h

theorem evalItems_of_isLiteral {items : List Expr} (h : items.all isLiteral = true)
    (env env' : Env) : evalItems env items = evalItems env' items := by
  induction items with
  | nil => rfl
  | cons item items ih =>
    rw [List.all_cons, Bool.and_eq_true] at h
    rw [evalItems_cons, evalItems_cons, eval_of_isLiteral h.1 env env', ih h.2]

theorem evalEntries_of_isLiteral {entries : List (String × Expr)}
    (h : (entries.all fun entry => entry.2.isLiteral) = true) (env env' : Env) :
    evalEntries env entries = evalEntries env' entries := by
  induction entries with
  | nil => rfl
  | cons entry entries ih =>
    obtain ⟨key, value⟩ := entry
    rw [List.all_cons, Bool.and_eq_true] at h
    rw [evalEntries_cons, evalEntries_cons, eval_of_isLiteral h.1 env env', ih h.2]

/-- **A node of constants has the same outcome everywhere**: references are the only nodes that look
at the environment, and they are never made of constants alone. -/
theorem eval_of_hasConstantChildren {node : Expr} (h : node.hasConstantChildren = true)
    (env env' : Env) : node.eval env = node.eval env' := by
  cases node with
  | literal | entity | output | index => cases h
  | binary op left right pos =>
    rw [hasConstantChildren, Bool.and_eq_true] at h
    rw [eval_binary, eval_binary, eval_of_isLiteral h.1 env env', eval_of_isLiteral h.2 env env']
  | unary op operand pos => rw [eval_unary, eval_unary, eval_of_isLiteral h env env']
  | cond c a b pos =>
    rw [hasConstantChildren, Bool.and_eq_true, Bool.and_eq_true] at h
    rw [eval_cond, eval_cond, eval_of_isLiteral h.1.1 env env', eval_of_isLiteral h.1.2 env env',
      eval_of_isLiteral h.2 env env']
  | call f args pos => rw [eval_call, eval_call, evalItems_of_isLiteral h env env']
  | array items pos => rw [eval_array, eval_array, evalItems_of_isLiteral h env env']
  | map entries pos => rw [eval_map, eval_map, evalEntries_of_isLiteral h env env']

theorem fold_false (node : Expr) : node.fold false = .ok node :=
  rfl

end Expr

/-! ## Folding -/

/-- **A folded node means what the node means.** A node that fails is kept, so that it fails at its
own place; one that has a value has it in every environment. -/
theorem SameMeaning.of_fold {wanted : Bool} {node e : Expr} (h : node.fold wanted = .ok e) :
    SameMeaning e node := by
  intro env
  rw [Expr.fold] at h
  split at h
  · next hw =>
    rw [Bool.and_eq_true] at hw
    split at h
    · next value hv =>
      cases h
      rw [Expr.eval_of_hasConstantChildren hw.2 env .empty, hv, Expr.eval_literal]
    · cases h
      rfl
    · cases h
  · cases h
    rfl

end ModelInputs
