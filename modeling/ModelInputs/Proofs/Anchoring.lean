import Mathlib.Data.List.Permutation
import ModelInputs.Proofs.Parser.Positions
import ModelInputs.Proofs.Reading.Comparison
import ModelInputs.Proofs.Unit.Handles

/-!
# Where errors of expressions are shown

An error of an expression is shown below the text that was asked about, with a mark under a place in
that text. A node gives its own position to whatever fails at it, and a reference gives its position
to whatever fails behind it, so the text of another entity never shows through. What happened there
is told by the wording, which stays that of the failure itself.

* `Expr.eval_within`, `Expr.inferUnit_within`: errors are at nodes of the tree;
* `ExprError.InText`: an error in a text;
* `Comparison.sameFault`, `World.closedWithin`, `World.innermostError?`: the failure that is behind
  an error;
* **`Expression.errors_inText`**: errors of reading, checking and evaluating a text are in the text,
  and tell the innermost failure.
-/

namespace ModelInputs

/-! ## Errors at nodes -/

/-- An error of an expression is at a position up to `n`. -/
abbrev FailsWithin {α : Type} (n : Nat) (x : Except Failure α) : Prop :=
  StaysWithin n (fun _ => True) x

section

variable {α : Type} {n pos : Nat}

theorem placed_within (h : pos ≤ n) (x : Except OpFault α) :
    FailsWithin n (placed pos x) := by
  cases x with
  | ok a => trivial
  | error fault =>
    cases fault with
    | refused fault => exact ⟨rfl, h⟩
    | undefined => trivial

theorem relocated_within (h : pos ≤ n) (x : Except Failure α) :
    FailsWithin n (relocated pos x) := by
  cases x with
  | ok a => trivial
  | error f =>
    cases f with
    | expression error => exact ⟨rfl, h⟩
    | _ => trivial

end

namespace Expr

variable {n pos : Nat} {env : Env}

theorem resolve_within (h : pos ≤ n) (name : Option String) :
    FailsWithin n (resolve env name pos) := by
  unfold resolve
  split
  · split
    · trivial
    · exact staysWithin_failAt h
  · split
    · trivial
    · exact staysWithin_failAt h

theorem evalOutput_within (h : pos ≤ n) (target : Result) (name : String) :
    FailsWithin n (evalOutput env target name pos) := by
  unfold evalOutput
  split
  · split
    · exact relocated_within h _
    · exact staysWithin_failAt h
  · exact staysWithin_failAt h
  · exact staysWithin_failAt h

theorem evalItems_within {items : List Expr}
    (h : ∀ e ∈ items, FailsWithin n (e.eval env)) :
    FailsWithin n (evalItems env items) := by
  induction items with
  | nil => trivial
  | cons item items ih =>
    rw [List.forall_mem_cons] at h
    exact h.1.bind fun _ _ _ => (ih h.2).bind fun _ _ _ => trivial

theorem evalEntries_within {entries : List (String × Expr)}
    (h : ∀ e ∈ entries.map (·.2), FailsWithin n (e.eval env)) :
    FailsWithin n (evalEntries env entries) := by
  induction entries with
  | nil => trivial
  | cons entry entries ih =>
    rw [List.map_cons, List.forall_mem_cons] at h
    exact h.1.bind fun _ _ _ => (ih h.2).bind fun _ _ _ => trivial

/-- **An error of evaluation is at a node**, whatever the outputs yield that are read. -/
theorem eval_within {e : Expr} (h : e.Within n) : FailsWithin n (e.eval env) := by
  induction h with
  | @node e hpos _ ih =>
    cases e with
    | literal => trivial
    | entity name pos =>
      rw [eval_entity]
      have hname : FailsWithin n (resolve env name pos) := resolve_within hpos name
      cases hr : resolve env name pos with
      | ok e => trivial
      | error f =>
        rw [hr] at hname
        exact hname
    | output target name pos =>
      exact (ih target (.head _)).bind fun r _ _ => evalOutput_within hpos r name
    | index target i pos =>
      refine (ih target (.head _)).bind fun r _ _ => ?_
      refine (ih i (.tail _ (.head _))).bind fun s _ _ => ?_
      cases itemAt env.nameOf r s with
      | ok a => trivial
      | error fault => exact ⟨rfl, hpos⟩
    | binary op left right pos =>
      refine (ih left (.head _)).bind fun l _ _ => ?_
      have hright := ih right (.tail _ (.head _))
      cases op with
      | and =>
        refine (placed_within hpos _).bind fun b _ _ => ?_
        cases b with
        | false => trivial
        | true => exact hright.bind fun _ _ _ => (placed_within hpos _).bind fun _ _ _ => trivial
      | or =>
        refine (placed_within hpos _).bind fun b _ _ => ?_
        cases b with
        | false => exact hright.bind fun _ _ _ => (placed_within hpos _).bind fun _ _ _ => trivial
        | true => trivial
      | _ => exact hright.bind fun _ _ _ => placed_within hpos _
    | unary op operand pos => exact (ih operand (.head _)).bind fun _ _ _ => placed_within hpos _
    | cond condition a b pos =>
      refine (ih condition (.head _)).bind fun _ _ _ => ?_
      refine (placed_within hpos _).bind fun taken _ _ => ?_
      cases taken with
      | true => exact ih a (.tail _ (.head _))
      | false => exact ih b (.tail _ (.tail _ (.head _)))
    | call f args pos => exact (evalItems_within ih).bind fun _ _ _ => placed_within hpos _
    | array items pos => exact (evalItems_within ih).bind fun _ _ _ => trivial
    | map entries pos => exact (evalEntries_within ih).bind fun _ _ _ => trivial

/-! ## Errors of the check -/

theorem checkSameUnit_within (h : pos ≤ n) (u v : Option UnitType) :
    FailsWithin n (checkSameUnit pos u v) := by
  unfold checkSameUnit
  split
  · split
    · trivial
    · exact staysWithin_failAt h
  · trivial

theorem combineUnits_within (h : pos ≤ n) (rule : UnitType → UnitType → Option UnitType)
    (u v : Option UnitType) : FailsWithin n (combineUnits rule pos u v) := by
  unfold combineUnits
  split
  · split
    · trivial
    · exact staysWithin_failAt h
  · trivial

theorem inferBinary_within (h : pos ≤ n) (op : BinaryOp) (u v : Option UnitType) :
    FailsWithin n (inferBinary op pos u v) := by
  cases op with
  | add | sub | mod | eq | ne | lt | gt | le | ge =>
    exact (checkSameUnit_within h u v).bind fun _ _ _ => trivial
  | mul | div => exact combineUnits_within h _ u v
  | pow | and | or => trivial

theorem inferUnits_within {strict : Bool} {items : List Expr}
    (h : ∀ e ∈ items, FailsWithin n (e.inferUnit env strict)) :
    FailsWithin n (inferUnits env strict items) := by
  induction items with
  | nil => trivial
  | cons item items ih =>
    rw [List.forall_mem_cons] at h
    exact h.1.bind fun _ _ _ => (ih h.2).bind fun _ _ _ => trivial

theorem inferEntries_within {strict : Bool} {entries : List (String × Expr)}
    (h : ∀ e ∈ entries.map (·.2), FailsWithin n (e.inferUnit env strict)) :
    FailsWithin n (inferEntries env strict entries) := by
  induction entries with
  | nil => trivial
  | cons entry entries ih =>
    rw [List.map_cons, List.forall_mem_cons] at h
    exact h.1.bind fun _ _ _ => ih h.2

/-- **An error of the check is at a node**, if the unit types of outputs are known without one. -/
theorem inferUnit_within (hunit : ∀ e name x, env.unitOf e name = some x →
      FailsWithin n x) {e : Expr} (h : e.Within n) (strict : Bool) :
    FailsWithin n (e.inferUnit env strict) := by
  induction h with
  | @node e hpos hc ih =>
    cases e with
    | literal value pos => cases value <;> trivial
    | entity name pos => exact (resolve_within hpos name).bind fun _ _ _ => trivial
    | output target name pos =>
      cases target with
      | entity ent entPos =>
        refine (resolve_within (hc _ (.head _)).pos_le ent).bind fun e _ _ => ?_
        unfold inferOutput
        split
        · next x hx => exact hunit e name x hx
        · split
          · exact staysWithin_failAt hpos
          · trivial
      | _ => exact (ih _ (.head _)).bind fun _ _ _ => trivial
    | index target i pos =>
      exact (ih target (.head _)).bind fun _ _ _ =>
        (ih i (.tail _ (.head _))).bind fun _ _ _ => trivial
    | binary op left right pos =>
      exact (ih left (.head _)).bind fun u _ _ =>
        (ih right (.tail _ (.head _))).bind fun v _ _ => inferBinary_within hpos op u v
    | unary op operand pos => exact (ih operand (.head _)).bind fun _ _ _ => trivial
    | cond condition a b pos =>
      refine (ih condition (.head _)).bind fun _ _ _ => ?_
      refine (ih a (.tail _ (.head _))).bind fun u _ _ => ?_
      refine (ih b (.tail _ (.tail _ (.head _)))).bind fun v _ _ => ?_
      exact (checkSameUnit_within hpos u v).bind fun _ _ _ => trivial
    | call f args pos => exact (inferUnits_within ih).bind fun _ _ _ => trivial
    | array items pos => exact (inferUnits_within ih).bind fun _ _ _ => trivial
    | map entries pos => exact (inferEntries_within ih).bind fun _ _ _ => trivial

end Expr

/-! ## Errors in a text -/

/-- An error in a text: it shows the text and marks a place in it. -/
def ExprError.InText (source : String) (error : ExprError) : Prop :=
  error.source = some source ∧ error.pos ≤ source.length

/-- Whatever fails within a text is an error in the text once it is placed there. -/
theorem StaysWithin.inText {α : Type} {P : α → Prop} {source : String} {x : Except Failure α}
    (h : StaysWithin source.length P x) {error : ExprError}
    (he : anchored source x = .error (.expression error)) : error.InText source := by
  cases x with
  | ok a => cases he
  | error f =>
    cases f with
    | expression inner =>
      cases he
      obtain ⟨hsource, hpos⟩ := h
      refine ⟨?_, ?_⟩
      · rw [ExprError.source_anchoredIn, hsource]
        rfl
      · rw [ExprError.pos_anchoredIn]
        exact hpos
    | _ => cases he

/-- An error of reading a text is in the text, and so are the nodes of the tree that is read. -/
theorem Expr.parse?_within (source : String) (fold : Bool) :
    (∀ error, Expr.parse? source fold = .error (.expression error) → error.InText source) ∧
      ∀ e, Expr.parse? source fold = .ok e → e.Within source.length := by
  have htokens := Token.tokensFrom_within (n := source.length) 0 source.toList
    (Nat.le_of_eq ((Nat.zero_add _).trans String.length_toList))
  unfold Expr.parse? Token.tokenize
  cases hts : Token.tokensFrom 0 source.toList with
  | error inner =>
    rw [hts] at htokens
    refine ⟨?_, nofun⟩
    rintro _ ⟨⟩
    exact htokens.inText rfl
  | ok tokens =>
    rw [hts] at htokens
    have htree : StaysWithin source.length (Expr.Within source.length)
        (Expr.ofTokens? fold tokens) := Parser.ofTokens?_within htokens
    refine ⟨fun error he => htree.inText he, fun e he => ?_⟩
    have he' : Expr.ofTokens? fold tokens = .ok e := anchored_eq_ok.1 he
    rw [he'] at htree
    exact htree

/-! ## The innermost failure -/

/-- The same outcome up to the place of an error, which in the first one may be closed off as an
error of an input. -/
inductive SameFault {α : Type} : Except Failure α → Except Failure α → Prop where
  | same (x : Except Failure α) : SameFault x x
  | placed {e e' : ExprError} (h : e.fault = e'.fault) :
    SameFault (.error (.expression e)) (.error (.expression e'))
  | closed {e e' : ExprError} (h : e.fault = e'.fault) :
    SameFault (.error (.input (.ofExpr e))) (.error (.expression e'))

namespace SameFault

variable {α β : Type} {x y : Except Failure α}

theorem bind {k k' : α → Except Failure β} (h : SameFault x y) (hk : ∀ a, SameFault (k a) (k' a)) :
    SameFault (x >>= k) (y >>= k') := by
  cases h with
  | same =>
    cases x with
    | ok a => exact hk a
    | error f => exact .same _
  | placed h => exact .placed h
  | closed h => exact .closed h

theorem relocated (h : SameFault x y) (pos : Nat) :
    SameFault (relocated pos x) (relocated pos y) := by
  cases h with
  | same => exact .same _
  | @placed e f h => exact @placed α ⟨e.fault, pos, none⟩ ⟨f.fault, pos, none⟩ h
  | @closed e f h => exact @closed α e ⟨f.fault, pos, none⟩ h

theorem anchored (h : SameFault x y) (source : String) :
    SameFault (anchored source x) (anchored source y) := by
  cases h with
  | same => exact .same _
  | placed h =>
    refine .placed ?_
    rw [ExprError.fault_anchoredIn, ExprError.fault_anchoredIn, h]
  | closed h =>
    refine .closed ?_
    rw [ExprError.fault_anchoredIn, h]

theorem withinExpression {x y : Except Failure Result} (h : SameFault x y) (exp : Expression) :
    SameFault (World.withinExpression exp x) (World.withinExpression exp y) := by
  cases h with
  | same => exact .same _
  | placed h => exact .placed h
  | closed h => exact .closed h

end SameFault

/-- Errors are placed anew on the way, but never reworded. -/
def Comparison.sameFault : Comparison where
  Rel := SameFault
  same := .same
  bind := .bind
  relocated := .relocated
  anchored := .anchored
  withinExpression := .withinExpression

/-- The outcome with an error of an expression closed off, so that nothing places it anew. -/
def closedOff {α : Type} (x : Except Failure α) : Except Failure α :=
  x.mapError Failure.asInput

theorem SameFault.closedOff {α : Type} {x y : Except Failure α} (h : SameFault x y) :
    SameFault (closedOff x) y := by
  cases h with
  | same x =>
    cases x with
    | ok a => exact .same _
    | error f =>
      cases f with
      | expression error => exact .closed rfl
      | _ => exact .same _
  | placed h => exact .closed h
  | closed h => exact .closed h

namespace World

/-- Readings that nest at most `n` deep, in which an error is closed off where it leaves the handle
that was read: it keeps the text and the position that it had there. -/
def closedWithin (w : World) : Nat → Readings
  | 0 => .none
  | n + 1 =>
    let r := w.closedWithin n
    { result := fun h t => closedOff (w.resultWith r t h)
      value := fun h t => closedOff (w.valueWith r t h)
      unit := fun h => closedOff (w.unitWith r h) }

/-- The error of an expression before the references around it placed it anew: the one of the text,
attribute, custom output, sample or chain in which it happened. -/
def innermostError? (w : World) (exp : Expression) (this : Option EntityId) (t : Float)
    (everywhere : Bool := false) : Option ExprError :=
  match w.evaluateWith (w.closedWithin (w.depthLimit + 1)) exp this everywhere t with
  | .error (.expression error) => some error
  | .error (.input error) => error.fault.exprError?
  | _ => none

variable {w : World} {this : Option EntityId} {everywhere : Bool} {t : Float}

/-- Closing errors off changes no outcome but their places. -/
theorem closedWithin_sameFault (w : World) (n : Nat) :
    (w.closedWithin n).Compared .sameFault (w.readingsWithin n) := by
  induction n with
  | zero => exact ⟨fun _ _ => .same _, fun _ _ => .same _, fun _ => .same _⟩
  | succ n ih =>
    exact ⟨fun h _ => (Comparison.resultWith ih h).closedOff,
      fun h _ => (Comparison.valueWith ih h).closedOff, fun h => (Comparison.unitWith ih h).closedOff⟩

/-- **An error of evaluation tells what the innermost failure tells.** -/
theorem innermostError?_of_evaluate {exp : Expression} {error : ExprError}
    (h : w.evaluate exp this t everywhere = .error (.expression error)) :
    ∃ inner, w.innermostError? exp this t everywhere = some inner ∧
      error.message = inner.message := by
  have hsame : SameFault
      (w.evaluateWith (w.closedWithin (w.depthLimit + 1)) exp this everywhere t)
      (w.evaluate exp this t everywhere) :=
    Comparison.evaluateWith (w.closedWithin_sameFault _) exp
  rw [h] at hsame
  unfold innermostError?
  generalize w.evaluateWith (w.closedWithin (w.depthLimit + 1)) exp this everywhere t = x at hsame
  cases hsame with
  | same => exact ⟨error, rfl, rfl⟩
  | @placed inner _ hfault => exact ⟨inner, rfl, (congrArg ExprFault.message hfault).symm⟩
  | @closed inner _ hfault => exact ⟨inner, rfl, (congrArg ExprFault.message hfault).symm⟩

/-! ## Expressions in a world -/

/-- That the unit type of an output is known or unknown is never an error of an expression: the one
kind of input whose unit type is read from a chain holds no numbers. -/
theorem numericUnit_within (n : Nat) (h : Handle) :
    FailsWithin n (w.numericUnit w.readings h) := by
  have hunit (hnum : (w.typeOfHandle h).isNumeric = true) : FailsWithin n (w.readings.unit h) := by
    rw [readings_unit]
    match h with
    | .output e name =>
      rw [unitWith]
      split <;> trivial
    | .attribute a => trivial
    | .custom o => trivial
    | .input id =>
      rw [unitWith]
      split
      · next i hi =>
        unfold inputUnit
        split
        · next hk =>
          rw [typeOfHandle, hi, Option.map_some, Option.getD_some, hk] at hnum
          cases hnum
        · trivial
      · trivial
  unfold numericUnit
  split
  · next hnum => exact (hunit hnum).bind fun _ _ _ => trivial
  · trivial

theorem inferUnit_within {exp : Expression} {n : Nat} (h : exp.root.Within n) (strict : Bool) :
    FailsWithin n (exp.root.inferUnit (w.checkEnv this everywhere) strict) := by
  refine Expr.inferUnit_within ?_ h strict
  intro e name x hx
  obtain ⟨handle, -, rfl⟩ := Option.map_eq_some_iff.1 hx
  exact numericUnit_within n handle

theorem inferUnit_inText {exp : Expression} (h : exp.root.Within exp.source.length) {strict : Bool}
    {error : ExprError}
    (he : w.inferUnit exp this everywhere strict = .error (.expression error)) :
    error.InText exp.source :=
  (inferUnit_within h strict).inText he

theorem checkExpression_inText {exp : Expression} (h : exp.root.Within exp.source.length)
    {expected : Option UnitType} {strict : Bool} {error : ExprError}
    (he : w.checkExpression exp this expected everywhere strict = .error (.expression error)) :
    error.InText exp.source := by
  unfold checkExpression Expression.check at he
  have hinfer : ∀ error, exp.inferUnit (w.checkEnv this everywhere) strict =
      .error (.expression error) → error.InText exp.source :=
    fun error he => inferUnit_inText h he
  generalize exp.inferUnit (w.checkEnv this everywhere) strict = x at he hinfer
  cases x with
  | error f =>
    cases he
    exact hinfer error rfl
  | ok unit =>
    cases expected with
    | none => cases he
    | some u =>
      cases unit with
      | none => cases he
      | some v =>
        rw [ok_bind] at he
        simp only at he
        split at he
        · cases he
        · cases he
          exact ⟨rfl, Nat.zero_le _⟩

theorem evaluate_inText {exp : Expression} (h : exp.root.Within exp.source.length)
    {error : ExprError} (he : w.evaluate exp this t everywhere = .error (.expression error)) :
    error.InText exp.source := by
  unfold evaluate evaluateWith withinExpression at he
  split at he
  · cases he
    exact ⟨rfl, Nat.zero_le _⟩
  · exact (Expr.eval_within h).inText he

end World

/-! ## A text that fails in many ways -/

/-- An entity with a custom output whose expression names nobody. -/
def brokenWorld : World where
  palette := { classes := [] }
  entities := [{
    name := "A"
    className := "Entity"
    inNamespace := true
    customOutputs := [("Broken",
      ⟨⟨0⟩, "Broken", ⟨"[Nobody]", .entity (some "Nobody") 0⟩, .dimensionless⟩)] }]
  registry := [("A", ⟨0⟩)]

/-- An array of the custom output and of another reference to nobody. -/
def readBroken : Expression :=
  ⟨"\x7bthis.Broken,[Other]\x7d",
    .array [.output (.entity none 1) "Broken" 6, .entity (some "Other") 13] 0⟩

set_option maxRecDepth 20000 in
theorem parse?_readBroken : Expression.parse? readBroken.source false = .ok readBroken := by
  have ht : Token.tokenize "\x7bthis.Broken,[Other]\x7d" =
      .ok [⟨.symbol, "\x7b", 0⟩, ⟨.word, "this", 1⟩, ⟨.symbol, ".", 5⟩, ⟨.word, "Broken", 6⟩,
        ⟨.symbol, ",", 12⟩, ⟨.square, "Other", 13⟩, ⟨.symbol, "\x7d", 20⟩,
        ⟨.finish, "", 21⟩] := by
    cbv
  rw [Expression.parse?, Expr.parse?, readBroken, ht]
  cbv

set_option maxRecDepth 20000 in
theorem parse?_unclosed : Expression.parse? "[Other" false =
    .error (.expression ⟨.unterminatedBracket, 0, some "[Other"⟩) := by
  have ht : Token.tokenize "[Other" = .error ⟨.unterminatedBracket, 0, some "[Other"⟩ := by
    cbv
  rw [Expression.parse?, Expr.parse?, ht]
  rfl

theorem evaluate_readBroken (t : Float) :
    brokenWorld.evaluate readBroken (some ⟨0⟩) t =
      .error (.expression ⟨.entityNotFound "Nobody", 6, some readBroken.source⟩) :=
  rfl

theorem innermostError?_readBroken (t : Float) :
    brokenWorld.innermostError? readBroken (some ⟨0⟩) t =
      some ⟨.entityNotFound "Nobody", 0, some "[Nobody]"⟩ :=
  rfl

theorem inferUnit_readBroken :
    brokenWorld.inferUnit readBroken (some ⟨0⟩) =
      .error (.expression ⟨.entityNotFound "Other", 13, some readBroken.source⟩) :=
  rfl

theorem checkExpression_readBroken :
    brokenWorld.checkExpression readBroken (some ⟨0⟩) none =
      .error (.expression ⟨.entityNotFound "Other", 13, some readBroken.source⟩) :=
  rfl

/-! ## All errors -/

/-- **Errors of a text are shown in that text.** Every error of reading a text is in it; and so is,
in any world and for any entity, every error of inferring the unit type of the expression that was
read, of checking it and of evaluating it, however deep among other entities it happened. An error
of evaluation has the wording of the innermost failure. -/
theorem Expression.errors_inText (source : String) (fold : Bool) :
    (∀ error, Expression.parse? source fold = .error (.expression error) →
      error.InText source) ∧
    ∀ exp, Expression.parse? source fold = .ok exp →
      ∀ (w : World) (this : Option EntityId) (everywhere : Bool),
        (∀ strict error, w.inferUnit exp this everywhere strict = .error (.expression error) →
          error.InText source) ∧
        (∀ expected strict error,
          w.checkExpression exp this expected everywhere strict = .error (.expression error) →
          error.InText source) ∧
        ∀ t error, w.evaluate exp this t everywhere = .error (.expression error) →
          error.InText source ∧
            ∃ inner, w.innermostError? exp this t everywhere = some inner ∧
              error.message = inner.message := by
  obtain ⟨herror, htree⟩ := Expr.parse?_within source fold
  unfold Expression.parse?
  cases hparse : Expr.parse? source fold with
  | error f =>
    refine ⟨?_, ?_⟩
    · rintro error ⟨⟩
      exact herror error hparse
    · rintro exp ⟨⟩
  | ok e =>
    refine ⟨?_, ?_⟩
    · rintro error ⟨⟩
    rintro _ ⟨⟩ w this everywhere
    have hwithin : (⟨source, e⟩ : Expression).root.Within
        (⟨source, e⟩ : Expression).source.length := htree e hparse
    refine ⟨fun strict error he => ?_, fun expected strict error he => ?_, fun t error he => ?_⟩
    · exact World.inferUnit_inText hwithin he
    · exact World.checkExpression_inText hwithin he
    · exact ⟨World.evaluate_inText hwithin he,
        World.innermostError?_of_evaluate he⟩

/-- A text that can not be read, and one whose unit type can not be inferred and whose evaluation
fails in the text of a custom output. -/
theorem Expression.errors_inText_readBroken :
    (∃ error, Expression.parse? "[Other" false = .error (.expression error) ∧
      error.InText "[Other") ∧
    Expression.parse? readBroken.source false = .ok readBroken ∧
    (∃ error, brokenWorld.inferUnit readBroken (some ⟨0⟩) = .error (.expression error) ∧
      error.InText readBroken.source) ∧
    (∃ error, brokenWorld.checkExpression readBroken (some ⟨0⟩) none =
      .error (.expression error) ∧ error.InText readBroken.source) ∧
    ∃ error inner, brokenWorld.evaluate readBroken (some ⟨0⟩) 0.0 = .error (.expression error) ∧
      error.InText readBroken.source ∧
      brokenWorld.innermostError? readBroken (some ⟨0⟩) 0.0 = some inner ∧
      inner.source = some "[Nobody]" ∧ error.message = inner.message := by
  have hunclosed := (errors_inText "[Other" false).1 _ parse?_unclosed
  obtain ⟨hinfer, hcheck, heval⟩ :=
    (errors_inText readBroken.source false).2 _ parse?_readBroken brokenWorld (some ⟨0⟩) false
  obtain ⟨hin, inner, hinner, hmessage⟩ := heval 0.0 _ (evaluate_readBroken 0.0)
  refine ⟨⟨_, parse?_unclosed, hunclosed⟩, parse?_readBroken,
    ⟨_, inferUnit_readBroken, hinfer false _ inferUnit_readBroken⟩,
    ⟨_, checkExpression_readBroken, hcheck none false _ checkExpression_readBroken⟩,
    _, inner, evaluate_readBroken 0.0, hin, hinner, ?_, hmessage⟩
  rw [innermostError?_readBroken] at hinner
  cases hinner
  rfl

end ModelInputs
