import ModelInputs.Model.Reading
import ModelInputs.Proofs.Outcome

/-!
# Readings side by side

Two evaluations of the same expressions differ only in what the outputs yield that they read. If a
relation between outcomes is kept by going on from them and by placing their errors, then it holds
of whatever is computed over readings that it relates: of an expression, a chain, a sampler and an
input, and in the end of a handle itself.

* `Comparison`: such a relation;
* `Env.Compared`, `Readings.Compared`: environments and readings that it relates;
* **`Comparison.eval`**: expressions in related environments;
* `Comparison.evaluateWith`, `Comparison.chainEnd` and their like: what is read on the way;
* **`Comparison.resultWith`**, **`Comparison.valueWith`**, **`Comparison.unitWith`**: one reading
  over others.
-/

namespace ModelInputs

/-- A relation between outcomes that every way of going on from them keeps. -/
structure Comparison where
  /-- how the outcomes are related -/
  Rel : {α : Type} → Except Failure α → Except Failure α → Prop
  same : ∀ {α : Type} (x : Except Failure α), Rel x x
  bind : ∀ {α β : Type} {x y : Except Failure α} {k k' : α → Except Failure β},
    Rel x y → (∀ a, Rel (k a) (k' a)) → Rel (x >>= k) (y >>= k')
  relocated : ∀ {α : Type} {x y : Except Failure α}, Rel x y →
    ∀ pos, Rel (relocated pos x) (relocated pos y)
  anchored : ∀ {α : Type} {x y : Except Failure α}, Rel x y →
    ∀ source, Rel (anchored source x) (anchored source y)
  withinExpression : ∀ {x y : Except Failure Result}, Rel x y →
    ∀ exp, Rel (World.withinExpression exp x) (World.withinExpression exp y)

/-- Environments that know the same entities and read related outcomes of the same outputs. -/
structure Env.Compared (c : Comparison) (env env' : Env) : Prop where
  this_eq : env'.this = env.this
  lookup_eq : env'.lookup = env.lookup
  nameOf_eq : env'.nameOf = env.nameOf
  read : ∀ e name, Option.Rel c.Rel (env.read e name) (env'.read e name)

/-- Readings that yield related outcomes. -/
structure Readings.Compared (c : Comparison) (r r' : Readings) : Prop where
  result : ∀ h t, c.Rel (r.result h t) (r'.result h t)
  value : ∀ h t, c.Rel (r.value h t) (r'.value h t)
  unit : ∀ h, c.Rel (r.unit h) (r'.unit h)

namespace Comparison

variable (c : Comparison)

/-- The same computation stands in front of both. -/
theorem bind_same {α β : Type} (x : Except Failure α) {k k' : α → Except Failure β}
    (hk : ∀ a, c.Rel (k a) (k' a)) : c.Rel (x >>= k) (x >>= k') :=
  c.bind (c.same x) hk

/-! ## Expressions -/

section

open ModelInputs.Expr

variable {env env' : Env} {pos : Nat}

theorem evalOutput (h : env.Compared c env') (target : Result) (name : String) :
    c.Rel (evalOutput env target name pos) (evalOutput env' target name pos) := by
  unfold Expr.evalOutput
  split
  · next e =>
    have hread := h.read e name
    rw [h.nameOf_eq]
    generalize env.read e name = x at hread ⊢
    generalize env'.read e name = x' at hread ⊢
    cases hread with
    | none => exact c.same _
    | some hrel => exact c.relocated hrel pos
  · exact c.same _
  · exact c.same _

theorem evalAnd {left : Result} {right right' : Unit → Except Failure Result}
    (h : c.Rel (right ()) (right' ())) :
    c.Rel (evalAnd pos left right) (evalAnd pos left right') := by
  refine c.bind_same _ fun b => ?_
  cases b with
  | false => exact c.same _
  | true => exact c.bind h fun _ => c.same _

theorem evalOr {left : Result} {right right' : Unit → Except Failure Result}
    (h : c.Rel (right ()) (right' ())) :
    c.Rel (evalOr pos left right) (evalOr pos left right') := by
  refine c.bind_same _ fun b => ?_
  cases b with
  | false => exact c.bind h fun _ => c.same _
  | true => exact c.same _

end

mutual

/-- An expression has related outcomes in related environments. -/
theorem eval {env env' : Env} (h : env.Compared c env') :
    ∀ e : Expr, c.Rel (e.eval env) (e.eval env')
  | .literal _ _ => c.same _
  | .entity name _ => by
    rw [Expr.eval, Expr.eval]
    unfold Expr.evalEntity
    rw [h.this_eq, h.lookup_eq]
    exact c.same _
  | .output target name _ => c.bind (eval h target) fun r => c.evalOutput h r name
  | .index target i _ => by
    refine c.bind (eval h target) fun r => c.bind (eval h i) fun s => ?_
    rw [h.nameOf_eq]
    exact c.same _
  | .binary op left right _ => by
    refine c.bind (eval h left) fun l => ?_
    have hr := eval h right
    cases op with
    | and => exact c.evalAnd hr
    | or => exact c.evalOr hr
    | _ => exact c.bind hr fun _ => c.same _
  | .unary _ operand _ => c.bind (eval h operand) fun _ => c.same _
  | .cond condition a b _ => by
    refine c.bind (eval h condition) fun r => c.bind_same _ fun taken => ?_
    cases taken with
    | true => exact eval h a
    | false => exact eval h b
  | .call _ args _ => c.bind (evalItems h args) fun _ => c.same _
  | .array items _ => c.bind (evalItems h items) fun _ => c.same _
  | .map entries _ => c.bind (evalEntries h entries) fun _ => c.same _

theorem evalItems {env env' : Env} (h : env.Compared c env') :
    ∀ items : List Expr, c.Rel (Expr.evalItems env items) (Expr.evalItems env' items)
  | [] => c.same _
  | item :: items => c.bind (eval h item) fun _ => c.bind (evalItems h items) fun _ => c.same _

theorem evalEntries {env env' : Env} (h : env.Compared c env') :
    ∀ entries : List (String × Expr),
      c.Rel (Expr.evalEntries env entries) (Expr.evalEntries env' entries)
  | [] => c.same _
  | (_, value) :: entries =>
    c.bind (eval h value) fun _ => c.bind (evalEntries h entries) fun _ => c.same _

end

/-! ## One reading over others -/

section

variable {c} {w : World} {this : Option EntityId} {everywhere : Bool} {t : Float}
variable {r r' : Readings} (hr : r.Compared c r')
include hr

theorem envWith :
    (w.envWith r this everywhere t).Compared c (w.envWith r' this everywhere t) where
  this_eq := rfl
  lookup_eq := rfl
  nameOf_eq := rfl
  read e name := by
    show Option.Rel c.Rel ((w.handle? e name).map _) ((w.handle? e name).map _)
    cases w.handle? e name with
    | none => exact .none
    | some h => exact .some (hr.result h t)

theorem evaluateWith (exp : Expression) :
    c.Rel (w.evaluateWith r exp this everywhere t) (w.evaluateWith r' exp this everywhere t) :=
  c.withinExpression (c.anchored (c.eval (envWith hr) exp.root) exp.source) exp

theorem chainEnd (chain : OutputChain) :
    c.Rel (w.chainEnd r chain t) (w.chainEnd r' chain t) := by
  have hstep (h : Option Handle) (name : String) :
      c.Rel (w.chainStep r t h name) (w.chainStep r' t h name) := by
    cases h with
    | none => exact c.same _
    | some h => exact c.bind (hr.result h t) fun _ => c.same _
  unfold World.chainEnd
  generalize w.handle? chain.root chain.firstName = h
  induction chain.remaining generalizing h with
  | nil => exact c.same _
  | cons name names ih =>
    rw [List.foldlM_cons, List.foldlM_cons]
    exact c.bind (hstep h name) ih

theorem chainNumber (chain : OutputChain) (default : Float) :
    c.Rel (w.chainNumber r chain t default) (w.chainNumber r' chain t default) := by
  refine c.bind (chainEnd hr chain) fun h => ?_
  cases h with
  | none => exact c.same _
  | some h => exact c.bind (hr.result h t) fun _ => c.same _

theorem chainValue (chain : OutputChain) :
    c.Rel (w.chainValue r chain t) (w.chainValue r' chain t) := by
  refine c.bind (chainEnd hr chain) fun h => ?_
  cases h with
  | none => exact c.same _
  | some h => exact hr.value h t

theorem chainUnit (chain : OutputChain) :
    c.Rel (w.chainUnit r chain t) (w.chainUnit r' chain t) := by
  unfold World.chainUnit
  split
  · exact hr.unit chain.firstHandle
  · refine c.bind (chainEnd hr chain) fun h => ?_
    cases h with
    | none => exact c.same _
    | some h => exact hr.unit h

theorem sampleWith (s : Sampler) : c.Rel (w.sampleWith r t s) (w.sampleWith r' t s) := by
  cases s with
  | constant => exact c.same _
  | expression exp => exact c.bind (evaluateWith hr exp) fun _ => c.same _
  | chain chain => exact chainNumber hr chain _

theorem provideWith (p : Provider) : c.Rel (w.provideWith r t p) (w.provideWith r' t p) := by
  cases p with
  | constant => exact c.same _
  | expression exp => exact c.bind (evaluateWith hr exp) fun _ => c.same _

theorem inputSample (keyword : String) (range : NumberRange) (v : Value) :
    c.Rel (w.inputSample r keyword range t v) (w.inputSample r' keyword range t v) := by
  have hvalue : c.Rel (w.sampleValue r keyword t v) (w.sampleValue r' keyword t v) := by
    unfold World.sampleValue
    split
    · exact c.same _
    · exact c.bind_same _ fun s => sampleWith hr s
  exact c.bind hvalue fun _ => c.same _

theorem inputValue (id : InputId) (kind : InputKind) :
    c.Rel (w.inputValue r id kind t) (w.inputValue r' id kind t) := by
  refine c.bind_same _ fun v => ?_
  split
  · exact c.same _
  · exact c.same _
  · exact c.same _
  · exact chainValue hr _
  · exact c.bind (inputSample hr _ _ _) fun _ => c.same _
  · exact provideWith hr _
  · exact c.same _
  · exact c.same _
  · exact c.same _

theorem inputUnit (id : InputId) (kind : InputKind) :
    c.Rel (w.inputUnit r id kind) (w.inputUnit r' id kind) := by
  have hvalue (v : Value) : c.Rel (w.valueUnit r v) (w.valueUnit r' v) := by
    unfold World.valueUnit
    split
    · exact c.same _
    · exact chainUnit hr _
    · exact c.same _
  unfold World.inputUnit
  split
  · exact c.bind_same _ fun v => hvalue v
  · exact c.same _

theorem unitWith (h : Handle) : c.Rel (w.unitWith r h) (w.unitWith r' h) := by
  match h with
  | .output .. | .attribute _ | .custom _ => exact c.same _
  | .input id =>
    rw [World.unitWith, World.unitWith]
    split
    · exact inputUnit hr id _
    · exact c.same _

theorem inputOutputWith (id : InputId) :
    c.Rel (w.inputOutputWith r id t) (w.inputOutputWith r' id t) := by
  unfold World.inputOutputWith
  split
  · exact inputValue hr id _
  · exact c.same _

theorem resultWith (h : Handle) : c.Rel (w.resultWith r t h) (w.resultWith r' t h) := by
  match h with
  | .output .. => exact c.same _
  | .attribute a =>
    rw [World.resultWith, World.resultWith]
    split
    · unfold World.attributeResult
      split
      · exact c.same _
      · exact evaluateWith hr _
      · exact c.same _
    · exact c.same _
  | .custom o => exact c.bind (evaluateWith hr o.expression) fun _ => c.same _
  | .input id =>
    exact c.bind (inputOutputWith hr id) fun v =>
      c.bind (unitWith hr (.input id)) fun _ => c.same _

theorem valueWith (h : Handle) : c.Rel (w.valueWith r t h) (w.valueWith r' t h) := by
  match h with
  | .output .. => exact c.same _
  | .attribute a => exact c.bind (resultWith hr (.attribute a)) fun _ => c.same _
  | .custom o => exact c.bind (resultWith hr (.custom o)) fun _ => c.same _
  | .input id => exact inputOutputWith hr id

end

end Comparison

end ModelInputs
