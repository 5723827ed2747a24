import ModelInputs.Proofs.Reading.Nesting
import ModelInputs.Proofs.Repeating
import ModelInputs.Proofs.Run.Tables

/-!
# Custom outputs stand for their expressions

An expression that refers to a custom output of its own entity has the same outcome as the
expression with that of the output in its place: the same result, or a failure that tells the same.
What the output is declared with makes no difference as long as its expression does not yield a
number of another unit type.

The output is read one level deeper than the expression around it. That makes no difference either:
what is at the limit at one level is so at the other one, since the limit lies beyond all readings
that do not refer back to themselves.

* `Expr.inline`: a tree in the place of every reference to an output of the own entity;
* `Failure.unplaced`: a failure without its place;
* `Comparison.told`: outcomes that tell the same;
* **`Comparison.eval_inline`**: what stands for an output may take its place in any tree;
* `World.endless_evaluateWith`: evaluations at the limit are so at every depth;
* **`World.evaluate_inline`**: custom outputs stand for their expressions.
-/

namespace ModelInputs

/-! ## A tree in the place of an output -/

namespace Expr

/-- The tree is the entity that the expression belongs to. -/
def isThis : Expr → Bool
  | entity none _ => true
  | _ => false

mutual

/-- The tree with another one in the place of every reference to an output of the entity that the
expression belongs to. -/
def inline (name : String) (body : Expr) : Expr → Expr
  | literal value pos => literal value pos
  | entity e pos => entity e pos
  | output target n pos =>
    if target.isThis && n == name then body else output (inline name body target) n pos
  | index target i pos => index (inline name body target) (inline name body i) pos
  | binary op left right pos => binary op (inline name body left) (inline name body right) pos
  | unary op operand pos => unary op (inline name body operand) pos
  | cond condition thenExpr elseExpr pos =>
    cond (inline name body condition) (inline name body thenExpr) (inline name body elseExpr) pos
  | call function args pos => call function (inlineItems name body args) pos
  | array items pos => array (inlineItems name body items) pos
  | map entries pos => map (inlineEntries name body entries) pos

/-- The trees with another one in the place of the output. -/
def inlineItems (name : String) (body : Expr) : List Expr → List Expr
  | [] => []
  | item :: items => inline name body item :: inlineItems name body items

/-- The entries of a map with another tree in the place of the output. -/
def inlineEntries (name : String) (body : Expr) : List (String × Expr) → List (String × Expr)
  | [] => []
  | (key, value) :: entries => (key, inline name body value) :: inlineEntries name body entries

end

theorem eq_entity_of_isThis {e : Expr} (h : e.isThis = true) : ∃ pos, e = entity none pos := by
  cases e with
  | entity name pos =>
    cases name with
    | none => exact ⟨pos, rfl⟩
    | some _ => cases h
  | _ => cases h

end Expr

/-! ## What a failure tells -/

namespace Failure

/-- The failure without the position and the text of an error of an expression. -/
def unplaced : Failure → Failure
  | expression error => exprAt 0 error.fault
  | failure => failure

/-- A failure without its place has the same wording. -/
theorem message_unplaced (f : Failure) : f.unplaced.message = f.message := by
  cases f <;> rfl

/-- What a failure tells once it has left all expressions. -/
def told : Failure → Failure
  | tooDeep => exprAt 0 .selfReference
  | failure => failure.unplaced

theorem told_leaving (exp : Expression) (f : Failure) : (f.leaving exp).told = f.told := by
  cases f <;> rfl

theorem told_anchoredIn (source : String) (f : Failure) : (f.anchoredIn source).told = f.told := by
  cases f with
  | expression error =>
    show exprAt 0 (error.anchoredIn source).fault = _
    rw [ExprError.fault_anchoredIn]
    rfl
  | _ => rfl

theorem told_of_isEndless {f : Failure} (h : f.IsEndless) : f.told = exprAt 0 .selfReference := by
  cases f with
  | tooDeep => rfl
  | expression error => exact congrArg (exprAt 0) h
  | _ => exact h.elim

theorem told_eq_unplaced {f : Failure} (h : f ≠ tooDeep) : f.told = f.unplaced := by
  cases f with
  | tooDeep => exact absurd rfl h
  | _ => rfl

end Failure

section

variable {α : Type} {x y : Except Failure α}

/-- Failures that are placed anew tell the same. -/
theorem mapError_told {g : Failure → Failure} (hg : ∀ f, (g f).told = f.told) :
    (x.mapError g).mapError Failure.told = x.mapError Failure.told := by
  cases x with
  | ok a => rfl
  | error f => exact congrArg Except.error (hg f)

theorem relocated_told (pos : Nat) :
    (relocated pos x).mapError Failure.told = x.mapError Failure.told :=
  mapError_told fun f => by cases f <;> rfl

theorem anchored_told (source : String) :
    (anchored source x).mapError Failure.told = x.mapError Failure.told :=
  mapError_told (Failure.told_anchoredIn source)

theorem withinExpression_told (exp : Expression) (x : Except Failure Result) :
    (World.withinExpression exp x).mapError Failure.told = x.mapError Failure.told := by
  rw [World.withinExpression_eq_mapError]
  exact mapError_told (Failure.told_leaving exp)

theorem bind_told {β : Type} {k k' : α → Except Failure β}
    (h : x.mapError Failure.told = y.mapError Failure.told)
    (hk : ∀ a, (k a).mapError Failure.told = (k' a).mapError Failure.told) :
    (x >>= k).mapError Failure.told = (y >>= k').mapError Failure.told := by
  cases x with
  | ok a =>
    cases y with
    | ok b =>
      cases h
      exact hk a
    | error g => cases h
  | error f =>
    cases y with
    | ok b => cases h
    | error g => exact congrArg Except.error (Except.error.inj h)

end

/-- The same result, or failures that tell the same. -/
def Comparison.told : Comparison where
  Rel x y := x.mapError Failure.told = y.mapError Failure.told
  same _ := rfl
  bind := bind_told
  relocated h pos := by rw [relocated_told, relocated_told, h]
  anchored h source := by rw [anchored_told, anchored_told, h]
  withinExpression h exp := by rw [withinExpression_told, withinExpression_told, h]

/-- Whatever refers back to itself tells so. -/
theorem Endless.told {α : Type} {x y : Except Failure α} (hx : Endless x) (hy : Endless y) :
    Comparison.told.Rel x y := by
  obtain ⟨f, rfl, hf⟩ := hx
  obtain ⟨g, rfl, hg⟩ := hy
  exact congrArg Except.error
    ((Failure.told_of_isEndless hf).trans (Failure.told_of_isEndless hg).symm)

/-! ## Evaluation -/

namespace Comparison

variable (c : Comparison)

mutual

/-- **What stands for an output may take its place in any tree.** -/
theorem eval_inline {env : Env} {name : String} {body : Expr}
    (h : ∀ entPos pos, c.Rel ((Expr.output (.entity none entPos) name pos).eval env)
      (body.eval env)) :
    ∀ e : Expr, c.Rel (e.eval env) ((Expr.inline name body e).eval env)
  | .literal _ _ => c.same _
  | .entity _ _ => c.same _
  | .output target n pos => by
    rw [Expr.inline]
    split
    · next hthis =>
      obtain ⟨hthis, hname⟩ := Bool.and_eq_true_iff.1 hthis
      obtain ⟨entPos, rfl⟩ := Expr.eq_entity_of_isThis hthis
      obtain rfl := beq_iff_eq.1 hname
      exact h entPos pos
    · exact c.bind (eval_inline h target) fun _ => c.same _
  | .index target i _ =>
    c.bind (eval_inline h target) fun _ => c.bind (eval_inline h i) fun _ => c.same _
  | .binary op left right _ => by
    refine c.bind (eval_inline h left) fun l => ?_
    have hr := eval_inline h right
    cases op with
    | and => exact c.evalAnd hr
    | or => exact c.evalOr hr
    | _ => exact c.bind hr fun _ => c.same _
  | .unary _ operand _ => c.bind (eval_inline h operand) fun _ => c.same _
  | .cond condition a b _ => by
    refine c.bind (eval_inline h condition) fun r => c.bind_same _ fun taken => ?_
    cases taken with
    | true => exact eval_inline h a
    | false => exact eval_inline h b
  | .call _ args _ => c.bind (evalItems_inline h args) fun _ => c.same _
  | .array items _ => c.bind (evalItems_inline h items) fun _ => c.same _
  | .map entries _ => c.bind (evalEntries_inline h entries) fun _ => c.same _

theorem evalItems_inline {env : Env} {name : String} {body : Expr}
    (h : ∀ entPos pos, c.Rel ((Expr.output (.entity none entPos) name pos).eval env)
      (body.eval env)) :
    ∀ items : List Expr,
      c.Rel (Expr.evalItems env items) (Expr.evalItems env (Expr.inlineItems name body items))
  | [] => c.same _
  | item :: items =>
    c.bind (eval_inline h item) fun _ => c.bind (evalItems_inline h items) fun _ => c.same _

theorem evalEntries_inline {env : Env} {name : String} {body : Expr}
    (h : ∀ entPos pos, c.Rel ((Expr.output (.entity none entPos) name pos).eval env)
      (body.eval env)) :
    ∀ entries : List (String × Expr), c.Rel (Expr.evalEntries env entries)
      (Expr.evalEntries env (Expr.inlineEntries name body entries))
  | [] => c.same _
  | (_, value) :: entries =>
    c.bind (eval_inline h value) fun _ => c.bind (evalEntries_inline h entries) fun _ => c.same _

end

end Comparison

namespace World

variable {w : World} {e : EntityId} {name : String} {o : CustomOutput} {exp : Expression}
variable {this : Option EntityId} {everywhere : Bool} {t : Float}

theorem evaluateWith_told {r : Readings} : Comparison.told.Rel
    (w.evaluateWith r exp this everywhere t) (exp.root.eval (w.envWith r this everywhere t)) :=
  (withinExpression_told exp _).trans (anchored_told exp.source)

/-- **An evaluation at the limit of a great depth is at the limit of every depth.** -/
theorem endless_evaluateWith {k : Nat} (hk : 5 * w.referenceCount < k)
    (hend : Endless (w.evaluateWith (w.readingsWithin k) exp this everywhere t)) (n : Nat) :
    Endless (w.evaluateWith (w.readingsWithin n) exp this everywhere t) := by
  have hasks : Asks True (fun r => w.evaluateWith r exp this everywhere t) _ :=
    evaluateWith_asks exp
  obtain hnk | hkn := Nat.le_total n k
  · exact endless_of_le hasks hnk hend
  · obtain ⟨q, hq, hend⟩ | ⟨hfalse, -⟩ := hasks.exists_endless hend
    · exact hasks.endless (hasks.mono (w.readingsWithin_extends_of_le hkn) hq)
        (endless_forever hq.arises hk hend n)
    · exact absurd trivial hfalse

/-- An evaluation one level deeper tells the same. -/
theorem evaluate_told : Comparison.told.Rel
    (w.evaluateWith (w.readingsWithin w.depthLimit) exp this everywhere t)
    (w.evaluate exp this t everywhere) := by
  have hasks : Asks True (fun r => w.evaluateWith r exp this everywhere t) _ :=
    evaluateWith_asks exp
  obtain hend | ⟨heq, -⟩ := stable hasks (Nat.le_succ w.depthLimit)
  · refine hend.told (endless_evaluateWith ?_ hend (w.depthLimit + 1))
    unfold depthLimit
    omega
  · rw [evaluate, readings, heq]
    exact Comparison.told.same _

/-- A reference to an output of the own entity is what its handle yields, placed there. -/
theorem eval_own {r : Readings} {h : Handle} (hh : w.handle? e name = some h) (entPos pos : Nat) :
    (Expr.output (.entity none entPos) name pos).eval (w.envWith r (some e) everywhere t) =
      relocated pos (r.result h t) := by
  have hread : (w.envWith r (some e) everywhere t).read e name = some (r.result h t) := by
    show (w.handle? e name).map _ = _
    rw [hh]
    rfl
  show Expr.evalOutput _ (.entity (some e)) name pos = _
  rw [Expr.evalOutput, hread]

/-- A custom output yields what its expression yields, unless that is a number of another unit type
than the declared one. -/
theorem customResult_eq {r : Readings}
    (hunit : ∀ x u, w.evaluateWith r o.expression (some o.entity) false t = .ok (.number x u) →
      u = o.unitType) :
    w.customResult r o t = w.evaluateWith r o.expression (some o.entity) false t := by
  unfold customResult
  cases h : w.evaluateWith r o.expression (some o.entity) false t with
  | error f => rfl
  | ok result =>
    rw [ok_bind]
    split
    · next x u => exact if_pos (hunit x u h)
    · rfl

/-- What a custom output yields tells the same as its expression. -/
theorem custom_told
    (hunit : ∀ x u, w.evaluate o.expression (some o.entity) t = .ok (.number x u) →
      u = o.unitType) :
    Comparison.told.Rel (w.readings.result (.custom o) t)
      (w.evaluate o.expression (some o.entity) t) := by
  -- the output is read one level below the expression around it
  have hlevel : w.readings.result (.custom o) t =
      w.customResult (w.readingsWithin w.depthLimit) o t := rfl
  rw [hlevel, customResult_eq fun x u hx => ?_]
  · exact evaluate_told
  · have hdeeper : Follows Eq _ (w.evaluate o.expression (some o.entity) t) :=
      Comparison.evaluateWith (w.readingsWithin_extends w.depthLimit).compared o.expression
    obtain ⟨_, hdeep, rfl⟩ := hdeeper _ hx
    exact hunit x u hdeep

/-- The outcome of an expression tells what it is up to its place. -/
theorem evaluate_unplaced : (w.evaluate exp this t everywhere).mapError Failure.unplaced =
    (w.evaluate exp this t everywhere).mapError Failure.told := by
  cases h : w.evaluate exp this t everywhere with
  | ok r => rfl
  | error f =>
    refine congrArg Except.error (Failure.told_eq_unplaced ?_).symm
    rintro rfl
    exact w.evaluateWith_ne_tooDeep _ exp this everywhere t h

/-- **Custom outputs stand for their expressions.** After any run, an expression of an entity, which
finds other entities in the namespace of that one, has the same outcome as the expression with that
of a custom output in the place of every reference to it: the same result, or the same failure up to
its place. This needs that the expression of the output does not yield a number of another unit type
than the declared one. -/
theorem evaluate_inline {p : Palette} (hw : FreelyReached p w) {x : Entity}
    (hx : w.entity? e = some x) (ho : x.customOutputs.lookup name = some o)
    (hunit : ∀ y u, w.evaluate o.expression (some e) t = .ok (.number y u) → u = o.unitType)
    (source source' : String) (tree : Expr) :
    (w.evaluate ⟨source, tree⟩ (some e) t).mapError Failure.unplaced =
      (w.evaluate ⟨source', Expr.inline name o.expression.root tree⟩ (some e) t).mapError
        Failure.unplaced := by
  obtain ⟨hhandle, rfl⟩ := hw.tablesApart.handle?_custom hx ho
  have hplace (entPos pos : Nat) : Comparison.told.Rel
      ((Expr.output (.entity none entPos) name pos).eval
        (w.envWith w.readings (some o.entity) false t))
      (o.expression.root.eval (w.envWith w.readings (some o.entity) false t)) := by
    rw [eval_own hhandle]
    exact (relocated_told pos).trans ((custom_told hunit).trans evaluateWith_told)
  have hinlined : Comparison.told.Rel
      (w.evaluate ⟨source', Expr.inline name o.expression.root tree⟩ (some o.entity) t)
      ((Expr.inline name o.expression.root tree).eval
        (w.envWith w.readings (some o.entity) false t)) := evaluateWith_told
  -- inside a tree the limit of the depth is no error of an expression yet, but it tells the same
  rw [evaluate_unplaced, evaluate_unplaced]
  calc (w.evaluate ⟨source, tree⟩ (some o.entity) t).mapError Failure.told
    _ = (tree.eval (w.envWith w.readings (some o.entity) false t)).mapError Failure.told :=
      evaluateWith_told
    _ = ((Expr.inline name o.expression.root tree).eval
          (w.envWith w.readings (some o.entity) false t)).mapError Failure.told :=
      Comparison.told.eval_inline hplace tree
    _ = _ := hinlined.symm

/-! ## A server with a custom output -/

open Logged

/-- The speed of the server as a custom output. -/
def speedOutput : CustomOutput where
  entity := ⟨0⟩
  name := "V"
  expression := ownSpeed
  unitType := .speed

/-- The definition of that output. -/
def outputArguments : Arguments where
  keyword := "CustomOutputList"
  args := ["V", "this.Speed", "m/s"]
  balanced := by decide

/-- The server with the output. -/
def speedServer : World :=
  serving.applied ⟨0⟩ outputArguments (.customOutputs ⟨0⟩ [speedOutput])

theorem readCustomOutputs_speed :
    (serving.readCustomOutputs ⟨0⟩ outputArguments).Gives [speedOutput] := by
  have hname : serving.checkCustomName ⟨0⟩ "V" [] = .ok () := by
    have hattribute : serving.checkAttributeName ⟨0⟩ "V" [] = .ok () :=
      serving_checkAttributeName (by decide) (by decide) rfl rfl
    obtain ⟨_, hnew, -⟩ := bind_eq_ok.1 hattribute
    exact bind_eq_ok.2 ⟨(), hnew, rfl⟩
  have hcheck : serving.checkExpression ownSpeed (some ⟨0⟩) (some .speed) = .ok () :=
    bind_eq_ok.2 ⟨_, inferUnit_ownSpeed serving_servesItself.handle?_speed rfl rfl, rfl⟩
  have hgroup : (serving.readCustomOutput ⟨0⟩ [] outputArguments).Gives speedOutput :=
    readCustomOutput_gives.2 ⟨rfl, hname, .speed, ownSpeed, rfl, parse?_ownSpeed, hcheck, rfl⟩
  refine gives_ofInput_bind.2 ⟨[outputArguments], rfl, ?_⟩
  refine (Steady.gives_bind fun _ => steady_pure _).2 ⟨speedOutput, ?_, gives_pure.2 rfl⟩
  exact Steady.gives_adapt.2 hgroup

theorem applyArguments_speedServer :
    (serving.applyArguments ⟨0⟩ outputArguments).Gives
      (speedServer, ⟨⟨0⟩, "CustomOutputList"⟩) := by
  refine (applyArguments_gives_iff rfl rfl).2 ⟨rfl, _, ?_, rfl⟩
  exact (gives_readKind_customOutputs rfl).2 ⟨_, readCustomOutputs_speed, rfl⟩

theorem applyItems_speedServer :
    (serving.applyItems ⟨0⟩ [] [] [outputArguments]).world = speedServer :=
  applyItems_of_gives _ _ applyArguments_speedServer

theorem speedServer_reached : FreelyReached .standard speedServer := by
  have hcreate : FreeStep { palette := .standard } oneServer :=
    @FreeStep.perform _ (.create "Server" "S" false)
  have hdefine : FreeStep serving speedServer := applyItems_speedServer ▸ .apply
  exact ⟨{}, false, .tail (.tail (.tail .refl hcreate) .apply) hdefine⟩

/-- The sum of two outputs of the server. -/
def sumOf (name : String) : Expr :=
  .binary .add (.output (.entity none 0) name 5) (.output (.entity none 9) name 14) 7

theorem handle?_speedServer :
    speedServer.handle? ⟨0⟩ "Speed" = some (.output ⟨0⟩ "Speed") := by
  rw [handle?, outputSpec?_server rfl rfl]
  rfl

theorem result_speedServer (r : Readings) :
    speedServer.resultWith r t (.output ⟨0⟩ "Speed") = .ok (.number 2.0 .speed) := by
  rw [resultWith, outputValue, unitWith, outputSpec?_server rfl rfl]
  rfl

/-- The output is a speed, and twice the output is twice the speed. -/
theorem evaluate_inline_speedServer :
    FreelyReached .standard speedServer ∧
      (∃ x, speedServer.entity? ⟨0⟩ = some x ∧ x.customOutputs.lookup "V" = some speedOutput) ∧
      Expr.inline "V" ownSpeed.root (sumOf "V") =
        .binary .add ownSpeed.root ownSpeed.root 7 ∧
      ∀ t, speedServer.evaluate ownSpeed (some ⟨0⟩) t = .ok (.number 2.0 .speed) ∧
        speedServer.evaluate ⟨"this.V + this.V", sumOf "V"⟩ (some ⟨0⟩) t =
          .ok (.number 4.0 .speed) := by
  have hspeed (t : Float) : ownSpeed.root.eval
      (speedServer.envWith speedServer.readings (some ⟨0⟩) false t) = .ok (.number 2.0 .speed) := by
    show (Expr.output (.entity none 0) "Speed" 5).eval _ = _
    rw [eval_own handle?_speedServer]
    exact congrArg (relocated 5) (result_speedServer (speedServer.readingsWithin _))
  refine ⟨speedServer_reached, ⟨_, rfl, rfl⟩, rfl, fun t => ?_⟩
  have howner : speedServer.evaluate ownSpeed (some ⟨0⟩) t = .ok (.number 2.0 .speed) :=
    evaluateWith_eq_ok.2 (hspeed t)
  refine ⟨howner, ?_⟩
  obtain ⟨x, hx, hlookup⟩ : ∃ x, speedServer.entity? ⟨0⟩ = some x ∧
      x.customOutputs.lookup "V" = some speedOutput := ⟨_, rfl, rfl⟩
  have hunit : ∀ y u, speedServer.evaluate speedOutput.expression (some ⟨0⟩) t =
      .ok (.number y u) → u = speedOutput.unitType := by
    intro y u hy
    cases howner.symm.trans hy
    rfl
  have hsum : speedServer.evaluate ⟨"this.Speed + this.Speed",
      Expr.inline "V" speedOutput.expression.root (sumOf "V")⟩ (some ⟨0⟩) t =
        .ok (.number 4.0 .speed) := by
    refine evaluateWith_eq_ok.2 (bind_eq_ok.2 ⟨_, hspeed t, bind_eq_ok.2 ⟨_, hspeed t, ?_⟩⟩)
    rfl
  have htold := evaluate_inline speedServer_reached hx hlookup hunit "this.V + this.V"
    "this.Speed + this.Speed" (sumOf "V")
  rw [hsum] at htold
  exact mapError_eq_ok.1 htold

end World

end ModelInputs
