import ModelInputs.Proofs.Chains
import ModelInputs.Proofs.Meaning

/-!
# Chains as expressions

A chain of outputs is followed handle by handle, and the expression that reads the same outputs from
the root by its name is evaluated reference by reference. Both walk from one result to the next, so
they come to the same result. Where a result has no output of the next name, the chain ends in
nothing and the expression in an error of that reference; where an output fails itself, both fail
with what it tells.

* `Expr.follow`: the expression that reads outputs one after another;
* `Expr.NoOutput`, `Expr.BreaksAt`, `Expr.FailsAt`: how a reference ends without a result;
* `World.walk`: the results on the way;
* `World.chainResult_eq_walk`, `World.eval_follow_eq_ok`: chain and expression go this way;
* **`World.chainResult_agrees`**: a chain yields what the expression yields.
-/

namespace ModelInputs

namespace Expr

/-- The outputs of what an expression yields, one after another, each with the position of its
reference. -/
def follow (target : Expr) (steps : List (String × Nat)) : Expr :=
  steps.foldl (fun e step => .output e step.1 step.2) target

variable {env : Env} {target : Expr} {steps : List (String × Nat)} {pos : Nat} {name : String}

/-- What stands before the dot has no output of the name: it is no entity, or none at all, or one
without that output. -/
inductive NoOutput (env : Env) (name : String) : Result → ExprFault → Prop where
  | notAnEntity {r : Result} : r.kind ≠ .entity → NoOutput env name r (.notAnEntity name r.kind)
  | nullEntity : NoOutput env name (.entity none) .nullEntity
  | outputNotFound {e : EntityId} : env.read e name = none →
    NoOutput env name (.entity (some e)) (.outputNotFound name (env.nameOf e))

/-- The evaluation comes to the reference at the position, where there is no output to be read. -/
def BreaksAt (env : Env) (target : Expr) (steps : List (String × Nat)) (pos : Nat)
    (fault : ExprFault) : Prop :=
  ∃ before name behind r, steps = before ++ (name, pos) :: behind ∧
    (target.follow before).eval env = .ok r ∧ NoOutput env name r fault

/-- The evaluation comes to the reference at the position, where the output itself fails. -/
def FailsAt (env : Env) (target : Expr) (steps : List (String × Nat)) (pos : Nat)
    (failure : Failure) : Prop :=
  ∃ before name behind e, steps = before ++ (name, pos) :: behind ∧
    (target.follow before).eval env = .ok (.entity (some e)) ∧
    env.read e name = some (.error failure)

theorem follow_append_cons (before behind : List (String × Nat)) :
    target.follow (before ++ (name, pos) :: behind) =
      (output (target.follow before) name pos).follow behind :=
  List.foldl_append

/-- An error stays what it is behind the dots that follow. -/
theorem eval_follow_of_error {failure : Failure} (h : target.eval env = .error failure) :
    (target.follow steps).eval env = .error failure := by
  induction steps generalizing target with
  | nil => exact h
  | cons step steps ih =>
    have hstep : (output target step.1 step.2).eval env = .error failure := by
      rw [eval_output, h]
      rfl
    exact ih hstep

theorem NoOutput.evalOutput_eq {r : Result} {fault : ExprFault} (h : NoOutput env name r fault) :
    evalOutput env r name pos = failAt pos fault := by
  cases h with
  | notAnEntity hkind =>
    cases r with
    | entity e => exact absurd rfl hkind
    | _ => rfl
  | nullEntity => rfl
  | outputNotFound hread =>
    dsimp only [evalOutput]
    rw [hread]

theorem BreaksAt.eval_follow {fault : ExprFault} (h : BreaksAt env target steps pos fault) :
    (target.follow steps).eval env = failAt pos fault := by
  obtain ⟨before, name, behind, r, rfl, hr, hno⟩ := h
  have hstep : (output (target.follow before) name pos).eval env = failAt pos fault := by
    rw [eval_output, hr]
    exact hno.evalOutput_eq
  rw [follow_append_cons]
  exact eval_follow_of_error hstep

theorem FailsAt.eval_follow {failure : Failure} (h : FailsAt env target steps pos failure) :
    (target.follow steps).eval env = relocated pos (.error failure) := by
  obtain ⟨before, name, behind, e, rfl, he, hread⟩ := h
  have hstep : (output (target.follow before) name pos).eval env =
      relocated pos (.error failure) := by
    rw [eval_output, he]
    show evalOutput env (.entity (some e)) name pos = _
    dsimp only [evalOutput]
    rw [hread]
  rw [follow_append_cons]
  exact eval_follow_of_error hstep

end Expr

namespace World

variable {w : World} {t : Float} {this : Option EntityId} {everywhere : Bool}

/-! ## Results on the way -/

/-- The handle of the output of that name, if the result is an entity that has it. -/
def handleOf? (w : World) (r : Result) (name : String) : Option Handle :=
  match r with
  | .entity (some e) => w.handle? e name
  | _ => none

/-- The result at the end of the way that leads from a result along some outputs, or nothing where
one of them is missing. -/
def walk (w : World) (readings : Readings) (t : Float) (r : Result) :
    List String → Except Failure (Option Result)
  | [] => .ok (some r)
  | name :: names =>
    match w.handleOf? r name with
    | none => .ok none
    | some h => do w.walk readings t (← readings.result h t) names

variable {readings : Readings} {r r' : Result} {name : String} {names : List String}

theorem walk_of_none (h : w.handleOf? r name = none) :
    w.walk readings t r (name :: names) = .ok none := by
  rw [walk, h]

theorem walk_of_some {handle : Handle} (h : w.handleOf? r name = some handle) :
    w.walk readings t r (name :: names) =
      readings.result handle t >>= fun r => w.walk readings t r names := by
  rw [walk, h]

/-- The way ends in nothing where it first comes to a result without the next output. -/
theorem walk_eq_none_iff : w.walk readings t r names = .ok none ↔
    ∃ before name behind r', names = before ++ name :: behind ∧
      w.walk readings t r before = .ok (some r') ∧ w.handleOf? r' name = none := by
  induction names generalizing r with
  | nil =>
    constructor
    · rintro ⟨⟩
    · rintro ⟨_ | _, _, _, _, ⟨⟩, -⟩
  | cons name names ih =>
    cases hh : w.handleOf? r name with
    | none =>
      rw [walk_of_none hh]
      exact iff_of_true rfl ⟨[], name, names, r, rfl, rfl, hh⟩
    | some handle =>
      rw [walk_of_some hh, bind_eq_ok]
      constructor
      · rintro ⟨r₁, hr₁, hwalk⟩
        obtain ⟨before, name', behind, r', rfl, hbefore, hnone⟩ := ih.1 hwalk
        refine ⟨name :: before, name', behind, r', rfl, ?_, hnone⟩
        rw [walk_of_some hh]
        exact bind_eq_ok.2 ⟨r₁, hr₁, hbefore⟩
      · rintro ⟨_ | ⟨_, before⟩, name', behind, r', heq, hbefore, hnone⟩
        · cases heq
          cases hbefore
          rw [hnone] at hh
          cases hh
        · cases heq
          rw [walk_of_some hh] at hbefore
          obtain ⟨r₁, hr₁, hbefore⟩ := bind_eq_ok.1 hbefore
          exact ⟨r₁, hr₁, ih.2 ⟨before, name', behind, r', rfl, hbefore, hnone⟩⟩

/-- The way fails where it first comes to an output that fails. -/
theorem walk_eq_error_iff {failure : Failure} : w.walk readings t r names = .error failure ↔
    ∃ before name behind r' handle, names = before ++ name :: behind ∧
      w.walk readings t r before = .ok (some r') ∧ w.handleOf? r' name = some handle ∧
      readings.result handle t = .error failure := by
  induction names generalizing r with
  | nil =>
    constructor
    · rintro ⟨⟩
    · rintro ⟨_ | _, _, _, _, _, ⟨⟩, -⟩
  | cons name names ih =>
    cases hh : w.handleOf? r name with
    | none =>
      rw [walk_of_none hh]
      constructor
      · rintro ⟨⟩
      · rintro ⟨_ | ⟨_, before⟩, name', behind, r', handle, heq, hbefore, hsome, -⟩
        · cases heq
          cases hbefore
          rw [hh] at hsome
          cases hsome
        · cases heq
          rw [walk_of_none hh] at hbefore
          cases hbefore
    | some handle =>
      rw [walk_of_some hh, bind_eq_error]
      constructor
      · rintro (herror | ⟨r₁, hr₁, hwalk⟩)
        · exact ⟨[], name, names, r, handle, rfl, rfl, hh, herror⟩
        · obtain ⟨before, name', behind, r', handle', rfl, hbefore, hsome, herror⟩ := ih.1 hwalk
          refine ⟨name :: before, name', behind, r', handle', rfl, ?_, hsome, herror⟩
          rw [walk_of_some hh]
          exact bind_eq_ok.2 ⟨r₁, hr₁, hbefore⟩
      · rintro ⟨_ | ⟨_, before⟩, name', behind, r', handle', heq, hbefore, hsome, herror⟩
        · cases heq
          cases hbefore
          rw [hh] at hsome
          cases hsome
          exact .inl herror
        · cases heq
          rw [walk_of_some hh] at hbefore
          obtain ⟨r₁, hr₁, hbefore⟩ := bind_eq_ok.1 hbefore
          exact .inr ⟨r₁, hr₁, ih.2 ⟨before, name', behind, r', handle', rfl, hbefore, hsome, herror⟩⟩

/-! ## The way of a chain -/

theorem chainStep_some (handle : Handle) (name : String) :
    w.chainStep readings t (some handle) name =
      (do return w.handleOf? (← readings.result handle t) name) := by
  dsimp only [chainStep]
  cases readings.result handle t with
  | error f => rfl
  | ok r =>
    cases r with
    | entity e => cases e <;> rfl
    | _ => rfl

/-- What is read at the handle that a chain has come to, along the names that remain. -/
theorem foldlM_chainStep (names : List String) (handle : Option Handle) :
    (names.foldlM (w.chainStep readings t) handle >>= fun last => match last with
      | none => .ok none
      | some last => do return some (← readings.result last t)) =
      match handle with
      | none => .ok none
      | some handle => readings.result handle t >>= fun r => w.walk readings t r names := by
  induction names generalizing handle with
  | nil => cases handle <;> rfl
  | cons name names ih =>
    cases handle with
    | none =>
      rw [List.foldlM_cons]
      exact ih none
    | some handle =>
      rw [List.foldlM_cons, chainStep_some]
      dsimp only
      cases readings.result handle t with
      | error f => rfl
      | ok r => exact ih (w.handleOf? r name)

theorem chainResult_eq_walk (w : World) (c : OutputChain) (t : Float) :
    w.chainResult c t =
      w.walk w.readings t (.entity (some c.root)) (c.firstName :: c.remaining) :=
  foldlM_chainStep c.remaining (w.handle? c.root c.firstName)

/-! ## The way of an expression -/

section

variable {target : Expr} {steps : List (String × Nat)}

theorem handleOf?_eq_none_iff {r : Result} {name : String} : w.handleOf? r name = none ↔
    ∃ fault, Expr.NoOutput (w.envWith readings this everywhere t) name r fault := by
  constructor
  · intro h
    cases r with
    | entity e =>
      cases e with
      | none => exact ⟨_, .nullEntity⟩
      | some e => exact ⟨_, .outputNotFound (Option.map_eq_none_iff.2 h)⟩
    | _ => exact ⟨_, .notAnEntity nofun⟩
  · rintro ⟨fault, h⟩
    cases h with
    | notAnEntity hkind =>
      cases r with
      | entity e => exact absurd rfl hkind
      | _ => rfl
    | nullEntity => rfl
    | outputNotFound hread => exact Option.map_eq_none_iff.1 hread

theorem handleOf?_eq_some {r : Result} {name : String} {handle : Handle}
    (h : w.handleOf? r name = some handle) : ∃ e, r = .entity (some e) ∧
      (w.envWith readings this everywhere t).read e name = some (readings.result handle t) := by
  cases r with
  | entity e =>
    cases e with
    | none => cases h
    | some e => exact ⟨e, rfl, Option.map_eq_some_iff.2 ⟨handle, h, rfl⟩⟩
  | _ => cases h

/-- Expression and way come to the same results. -/
theorem eval_follow_eq_ok {r r' : Result}
    (htarget : target.eval (w.envWith readings this everywhere t) = .ok r) :
    (target.follow steps).eval (w.envWith readings this everywhere t) = .ok r' ↔
      w.walk readings t r (steps.map Prod.fst) = .ok (some r') := by
  induction steps generalizing target r with
  | nil =>
    rw [show target.follow [] = target from rfl, htarget]
    constructor
    · rintro ⟨⟩
      rfl
    · rintro ⟨⟩
      rfl
  | cons step steps ih =>
    obtain ⟨name, pos⟩ := step
    rw [List.map_cons]
    cases hh : w.handleOf? r name with
    | none =>
      obtain ⟨fault, hno⟩ := handleOf?_eq_none_iff.1 hh
      have hbreaks : Expr.BreaksAt _ target ((name, pos) :: steps) pos fault :=
        ⟨[], name, steps, r, rfl, htarget, hno⟩
      rw [hbreaks.eval_follow, walk_of_none hh]
      exact ⟨nofun, nofun⟩
    | some handle =>
      obtain ⟨e, rfl, hread⟩ := handleOf?_eq_some hh
      rw [walk_of_some hh]
      cases hresult : readings.result handle t with
      | error failure =>
        rw [hresult] at hread
        have hfails : Expr.FailsAt _ target ((name, pos) :: steps) pos failure :=
          ⟨[], name, steps, e, rfl, htarget, hread⟩
        rw [hfails.eval_follow]
        exact ⟨nofun, nofun⟩
      | ok r₁ =>
        rw [hresult] at hread
        have hstep : (Expr.output target name pos).eval (w.envWith readings this everywhere t) =
            .ok r₁ := by
          rw [Expr.eval_output, htarget]
          exact Expr.evalOutput_eq_ok.2 hread
        exact ih hstep

/-- The way ends in nothing where the evaluation comes to a reference without an output. -/
theorem walk_eq_none_iff_breaksAt {r : Result}
    (htarget : target.eval (w.envWith readings this everywhere t) = .ok r) :
    w.walk readings t r (steps.map Prod.fst) = .ok none ↔
      ∃ pos fault, Expr.BreaksAt (w.envWith readings this everywhere t) target steps pos fault := by
  rw [walk_eq_none_iff]
  constructor
  · rintro ⟨before, name, behind, r', hsteps, hwalk, hnone⟩
    obtain ⟨before, rest, rfl, rfl, hrest⟩ := List.map_eq_append_iff.1 hsteps
    obtain ⟨⟨name, pos⟩, behind, rfl, rfl, rfl⟩ := List.map_eq_cons_iff.1 hrest
    obtain ⟨fault, hno⟩ := handleOf?_eq_none_iff.1 hnone
    exact ⟨pos, fault, before, name, behind, r', rfl, (eval_follow_eq_ok htarget).2 hwalk, hno⟩
  · rintro ⟨pos, fault, before, name, behind, r', rfl, heval, hno⟩
    exact ⟨before.map Prod.fst, name, behind.map Prod.fst, r', List.map_append,
      (eval_follow_eq_ok htarget).1 heval, handleOf?_eq_none_iff.2 ⟨fault, hno⟩⟩

/-- The way fails where the evaluation comes to an output that fails. -/
theorem walk_eq_error_iff_failsAt {r : Result} {failure : Failure}
    (htarget : target.eval (w.envWith readings this everywhere t) = .ok r) :
    w.walk readings t r (steps.map Prod.fst) = .error failure ↔
      ∃ pos, Expr.FailsAt (w.envWith readings this everywhere t) target steps pos failure := by
  rw [walk_eq_error_iff]
  constructor
  · rintro ⟨before, name, behind, r', handle, hsteps, hwalk, hsome, herror⟩
    obtain ⟨before, rest, rfl, rfl, hrest⟩ := List.map_eq_append_iff.1 hsteps
    obtain ⟨⟨name, pos⟩, behind, rfl, rfl, rfl⟩ := List.map_eq_cons_iff.1 hrest
    obtain ⟨e, rfl, hread⟩ := handleOf?_eq_some hsome
    rw [herror] at hread
    exact ⟨pos, before, name, behind, e, rfl, (eval_follow_eq_ok htarget).2 hwalk, hread⟩
  · rintro ⟨pos, before, name, behind, e, rfl, heval, hread⟩
    obtain ⟨handle, hhandle, herror⟩ := Option.map_eq_some_iff.1 hread
    exact ⟨before.map Prod.fst, name, behind.map Prod.fst, .entity (some e), handle,
      List.map_append, (eval_follow_eq_ok htarget).1 heval, hhandle, herror⟩

end

/-! ## Chains and expressions -/

section

variable {c : OutputChain} {steps : List (String × Nat)} {pos : Nat} {source : String}

theorem eval_entity_root (hname : w.named? (w.nameOf c.root) = some c.root)
    (hknown : (everywhere || w.hasNamespace this) = true) :
    (Expr.entity (some (w.nameOf c.root)) pos).eval (w.envWith readings this everywhere t) =
      .ok (.entity (some c.root)) := by
  have hlookup : (w.envWith readings this everywhere t).lookup (w.nameOf c.root) = some c.root :=
    (if_pos hknown).trans hname
  show Expr.evalEntity _ _ _ = _
  dsimp only [Expr.evalEntity]
  rw [hlookup]

theorem evaluate_of_breaksAt {target : Expr} {p : Nat} {fault : ExprFault}
    (h : Expr.BreaksAt (w.envWith w.readings this everywhere t) target steps p fault) :
    w.evaluate ⟨source, target.follow steps⟩ this t everywhere =
      .error (.expression ⟨fault, p, some source⟩) := by
  dsimp only [evaluate, evaluateWith]
  rw [h.eval_follow]
  rfl

/-- What the evaluation of a text makes of the failure of an output that it refers to. -/
def reportedAt (source : String) (p : Nat) : Failure → Failure
  | .expression error => .expression ⟨error.fault, p, some source⟩
  | .tooDeep => .expression ⟨.selfReference, 0, some source⟩
  | failure => failure

theorem reportedAt_of_other {failure : Failure} {p : Nat}
    (hother : ∀ error, failure ≠ .expression error) (hdeep : failure ≠ .tooDeep) :
    reportedAt source p failure = failure := by
  cases failure with
  | expression error => exact absurd rfl (hother error)
  | tooDeep => exact absurd rfl hdeep
  | _ => rfl

theorem eq_of_reportedAt {failure failure' : Failure} {p : Nat}
    (hother : ∀ error, failure ≠ .expression error)
    (h : reportedAt source p failure' = failure) : failure' = failure := by
  cases failure' with
  | expression | tooDeep => exact absurd h.symm (hother _)
  | _ => exact h

theorem evaluate_of_failsAt {target : Expr} {p : Nat} {failure : Failure}
    (h : Expr.FailsAt (w.envWith w.readings this everywhere t) target steps p failure) :
    w.evaluate ⟨source, target.follow steps⟩ this t everywhere =
      .error (reportedAt source p failure) := by
  dsimp only [evaluate, evaluateWith]
  rw [h.eval_follow]
  cases failure <;> rfl

theorem chainNumber_eq (w : World) (c : OutputChain) (t default : Float) :
    w.chainNumber w.readings c t default = (do
      match ← w.chainResult c t with
      | some (.number x _) => return x
      | _ => return default) := by
  unfold chainNumber chainResult
  cases w.chainEnd w.readings c t with
  | error f => rfl
  | ok last =>
    cases last with
    | none => rfl
    | some handle =>
      cases hr : w.readings.result handle t with
      | error f =>
        show (w.readings.result handle t >>= _) = ((w.readings.result handle t >>= _) >>= _)
        rw [hr]
        rfl
      | ok r =>
        show (w.readings.result handle t >>= _) = ((w.readings.result handle t >>= _) >>= _)
        rw [hr]
        cases r <;> rfl

/-- **A chain yields what the expression yields** that reads the same outputs from the root by its
name: the same result. The chain ends in nothing where the expression ends at a reference to an
output that is not there. Where an output fails with an error of an expression, the chain fails with
that error and the expression with the same cause at the reference; any other failure that is not an
endless one is the same. The chain is read as the number of the result, or as the default where
there is none. -/
theorem chainResult_agrees (hname : w.named? (w.nameOf c.root) = some c.root)
    (hknown : (everywhere || w.hasNamespace this) = true)
    (hsteps : steps.map Prod.fst = c.firstName :: c.remaining) (t : Float) (pos : Nat)
    (source : String) :
    let env := w.envWith w.readings this everywhere t
    let root := Expr.entity (some (w.nameOf c.root)) pos
    let outcome := w.evaluate ⟨source, root.follow steps⟩ this t everywhere
    (∀ r, w.chainResult c t = .ok (some r) ↔ outcome = .ok r) ∧
    (w.chainResult c t = .ok none ↔ ∃ p fault, Expr.BreaksAt env root steps p fault ∧
      outcome = .error (.expression ⟨fault, p, some source⟩)) ∧
    (∀ error, w.chainResult c t = .error (.expression error) ↔
      ∃ p, Expr.FailsAt env root steps p (.expression error) ∧
        outcome = .error (.expression ⟨error.fault, p, some source⟩)) ∧
    (∀ failure, (∀ error, failure ≠ .expression error) → failure ≠ .tooDeep →
      (w.chainResult c t = .error failure ↔ outcome = .error failure)) ∧
    ∀ default,
      (∀ x u, outcome = .ok (.number x u) → w.chainNumber w.readings c t default = .ok x) ∧
      (∀ r, outcome = .ok r → r.kind ≠ .number →
        w.chainNumber w.readings c t default = .ok default) ∧
      (w.chainResult c t = .ok none → w.chainNumber w.readings c t default = .ok default) := by
  intro env root outcome
  have hroot : root.eval env = .ok (.entity (some c.root)) := eval_entity_root hname hknown
  have hok : ∀ r, w.chainResult c t = .ok (some r) ↔ outcome = .ok r := by
    intro r
    rw [chainResult_eq_walk, ← hsteps, ← eval_follow_eq_ok hroot]
    dsimp only [outcome, evaluate]
    rw [evaluateWith_eq_ok]
  have hnone : w.chainResult c t = .ok none ↔ ∃ p fault, Expr.BreaksAt env root steps p fault := by
    rw [chainResult_eq_walk, ← hsteps, walk_eq_none_iff_breaksAt hroot]
  have herror : ∀ failure, w.chainResult c t = .error failure ↔
      ∃ p, Expr.FailsAt env root steps p failure := by
    intro failure
    rw [chainResult_eq_walk, ← hsteps, walk_eq_error_iff_failsAt hroot]
  refine ⟨hok, ?_, fun error => ?_, fun failure hother hdeep => ?_, fun default => ⟨?_, ?_, ?_⟩⟩
  · rw [hnone]
    constructor
    · rintro ⟨p, fault, hbreaks⟩
      exact ⟨p, fault, hbreaks, evaluate_of_breaksAt hbreaks⟩
    · rintro ⟨p, fault, hbreaks, -⟩
      exact ⟨p, fault, hbreaks⟩
  · rw [herror]
    constructor
    · rintro ⟨p, hfails⟩
      exact ⟨p, hfails, evaluate_of_failsAt hfails⟩
    · rintro ⟨p, hfails, -⟩
      exact ⟨p, hfails⟩
  · constructor
    · intro hchain
      obtain ⟨p, hfails⟩ := (herror failure).1 hchain
      refine (evaluate_of_failsAt hfails).trans ?_
      rw [reportedAt_of_other hother hdeep]
    · intro houtcome
      cases hchain : w.chainResult c t with
      | error failure' =>
        obtain ⟨p, hfails⟩ := (herror failure').1 hchain
        have heq := (evaluate_of_failsAt hfails).symm.trans houtcome
        rw [eq_of_reportedAt hother (Except.error.inj heq)]
      | ok result =>
        cases result with
        | none =>
          obtain ⟨p, fault, hbreaks⟩ := hnone.1 hchain
          cases (evaluate_of_breaksAt hbreaks).symm.trans houtcome
          exact absurd rfl (hother _)
        | some r => cases ((hok r).1 hchain).symm.trans houtcome
  · intro x u houtcome
    rw [chainNumber_eq, (hok _).2 houtcome]
    rfl
  · intro r houtcome hkind
    rw [chainNumber_eq, (hok _).2 houtcome]
    cases r with
    | number x u => exact absurd rfl hkind
    | _ => rfl
  · intro hchain
    rw [chainNumber_eq, hchain]
    rfl

/-- The speed of the next component of the server, read from the server by its name. -/
def readSpeedOfNext : Expression :=
  ⟨"[S].Next.Speed", (Expr.entity (some "S") 0).follow [("Next", 4), ("Speed", 9)]⟩

set_option maxRecDepth 20000 in
theorem parse?_readSpeedOfNext :
    Expression.parse? "[S].Next.Speed" true = .ok readSpeedOfNext := by
  cbv

/-- The server is registered under its name, so the text of the chain of its next component yields
what the chain yields. -/
theorem chainResult_agrees_speedOfNext :
    serving.named? (serving.nameOf speedOfNextChain.root) = some speedOfNextChain.root ∧
      (false || serving.hasNamespace (some ⟨0⟩)) = true ∧
      Expression.parse? "[S].Next.Speed" true = .ok readSpeedOfNext ∧
      serving.chainResult speedOfNextChain 1.0 = .ok (some (.number 2.0 .speed)) ∧
      serving.evaluate readSpeedOfNext (some ⟨0⟩) 1.0 = .ok (.number 2.0 .speed) ∧
      serving.chainNumber serving.readings speedOfNextChain 1.0 0.0 = .ok 2.0 := by
  have hname : serving.named? (serving.nameOf speedOfNextChain.root) =
      some speedOfNextChain.root := rfl
  have hknown : (false || serving.hasNamespace (some ⟨0⟩)) = true := rfl
  have hsteps : [("Next", 4), ("Speed", 9)].map Prod.fst =
      speedOfNextChain.firstName :: speedOfNextChain.remaining := rfl
  have hresult := serving_servesItself.chainResult_speedOfNext (t := 1.0)
  obtain ⟨hok, -, -, -, hnumber⟩ := chainResult_agrees hname hknown hsteps 1.0 0 "[S].Next.Speed"
  have heval := (hok _).1 hresult
  exact ⟨hname, hknown, parse?_readSpeedOfNext, hresult, heval, (hnumber 0.0).1 _ _ heval⟩

end

end World

end ModelInputs
