import ModelInputs.Proofs.Reading.Asking

/-!
# What a reading comes to

To read an output may take other readings. Only those are taken whose turn comes: of a choice those
of the branch that is taken, of a logical operator those of the right side if the left one does not
decide, of a chain those of the next output if there is an entity to have it, and none after a
failure.

* `Expr.Reads`: the outputs that an evaluation comes to read;
* `World.EvaluationReads`, `World.ComesTo`: the readings that an evaluation, and another reading,
  come to;
* `World.evaluateWith_asks`, `World.chainEnd_asks` and their like: these are what is asked for;
* **`World.outcomeOver_asks`**: one reading over others asks for the readings that it comes to.
-/

namespace ModelInputs

/-! ## Expressions -/

/-- An operator goes on to its right operand after this left one. -/
def BinaryOp.GoesOn (left : Result) : BinaryOp → Prop
  | .and => left.truth = .ok true
  | .or => left.truth = .ok false
  | _ => True

namespace Expr

mutual

/-- The evaluation comes to read an output for which `P` holds. -/
def Reads (env : Env) (P : EntityId → String → Prop) : Expr → Prop
  | literal .. | entity .. => False
  | output target name _ =>
    Reads env P target ∨ ∃ e, eval env target = .ok (.entity (some e)) ∧ P e name
  | index target i _ =>
    Reads env P target ∨ (∃ r, eval env target = .ok r) ∧ Reads env P i
  | binary op left right _ =>
    Reads env P left ∨ (∃ r, eval env left = .ok r ∧ op.GoesOn r) ∧ Reads env P right
  | unary _ operand _ => Reads env P operand
  | cond condition thenExpr elseExpr _ =>
    Reads env P condition ∨
      (∃ r, eval env condition = .ok r ∧ r.truth = .ok true) ∧ Reads env P thenExpr ∨
      (∃ r, eval env condition = .ok r ∧ r.truth = .ok false) ∧ Reads env P elseExpr
  | call _ args _ => ItemsRead env P args
  | array items _ => ItemsRead env P items
  | map entries _ => EntriesRead env P entries

/-- The evaluation of one of the expressions, from left to right, comes to read such an output. -/
def ItemsRead (env : Env) (P : EntityId → String → Prop) : List Expr → Prop
  | [] => False
  | item :: items =>
    Reads env P item ∨ (∃ r, eval env item = .ok r) ∧ ItemsRead env P items

/-- The evaluation of one of the entries, from left to right, comes to read such an output. -/
def EntriesRead (env : Env) (P : EntityId → String → Prop) : List (String × Expr) → Prop
  | [] => False
  | (_, value) :: entries =>
    Reads env P value ∨ (∃ r, eval env value = .ok r) ∧ EntriesRead env P entries

end

mutual

/-- Only an output for which `P` holds is read. -/
theorem exists_of_reads {env : Env} {P : EntityId → String → Prop} :
    ∀ e : Expr, Reads env P e → ∃ e' name, P e' name
  | .output target name _, h =>
    h.elim (exists_of_reads target) fun ⟨e, _, he⟩ => ⟨e, name, he⟩
  | .index target i _, h => h.elim (exists_of_reads target) fun h => exists_of_reads i h.2
  | .binary _ left right _, h => h.elim (exists_of_reads left) fun h => exists_of_reads right h.2
  | .unary _ operand _, h => exists_of_reads operand h
  | .cond condition a b _, h =>
    h.elim (exists_of_reads condition) fun h =>
      h.elim (fun h => exists_of_reads a h.2) fun h => exists_of_reads b h.2
  | .call _ args _, h => exists_of_itemsRead args h
  | .array items _, h => exists_of_itemsRead items h
  | .map entries _, h => exists_of_entriesRead entries h

theorem exists_of_itemsRead {env : Env} {P : EntityId → String → Prop} :
    ∀ items : List Expr, ItemsRead env P items → ∃ e' name, P e' name
  | item :: items, h => h.elim (exists_of_reads item) fun h => exists_of_itemsRead items h.2

theorem exists_of_entriesRead {env : Env} {P : EntityId → String → Prop} :
    ∀ entries : List (String × Expr), EntriesRead env P entries → ∃ e' name, P e' name
  | (_, value) :: entries, h =>
    h.elim (exists_of_reads value) fun h => exists_of_entriesRead entries h.2

end

end Expr

namespace World

variable (w : World) (r : Readings)

/-- The evaluation of an expression comes to the reading. -/
def EvaluationReads (exp : Expression) (this : Option EntityId) (everywhere : Bool) (t : Float)
    (q : Reading) : Prop :=
  exp.root.Reads (w.envWith r this everywhere t) fun e name =>
    ∃ h, w.handle? e name = some h ∧ q = .result h t

/-! ## Chains and inputs -/

/-- The way along the outputs, from a handle on, comes to the reading. -/
def HopsRead (t : Float) (q : Reading) : Option Handle → List String → Prop
  | none, _ => False
  | some _, [] => False
  | some h, name :: names =>
    q = .result h t ∨ ∃ h', w.chainStep r t (some h) name = .ok h' ∧ HopsRead t q h' names

/-- A chain comes to the reading, on its way or at its end, where it takes the reading `last`. -/
def ChainReads (c : OutputChain) (t : Float) (last : Handle → Reading) (q : Reading) : Prop :=
  w.HopsRead r t q (w.handle? c.root c.firstName) c.remaining ∨
    ∃ h, w.chainEnd r c t = .ok (some h) ∧ q = last h

/-- The unit type of a chain takes the reading. -/
def ChainUnitReads (c : OutputChain) (t : Float) (q : Reading) : Prop :=
  if c.remaining.isEmpty then q = .unit c.firstHandle else w.ChainReads r c t .unit q

/-- A sampler comes to the reading. -/
def SampleReads (t : Float) (q : Reading) : Sampler → Prop
  | .constant .. => False
  | .expression exp this _ => w.EvaluationReads r exp this false t q
  | .chain c _ => w.ChainReads r c t (.result · t) q

/-- A provider comes to the reading. -/
def ProvideReads (t : Float) (q : Reading) : Provider → Prop
  | .constant _ => False
  | .expression exp this _ => w.EvaluationReads r exp this false t q

/-- An input of that kind and with that value comes to the reading when its value is asked for. -/
def InputReads (t : Float) (q : Reading) : InputKind → Value → Prop
  | .output _, .chain c => w.ChainReads r c t (.value · t) q
  | .sample .., v => ∃ s, w.samplerOf v = .ok s ∧ w.SampleReads r t q s
  | .provider .., .provider p => w.ProvideReads r t q p
  | _, _ => False

/-- An input of that kind and with that value comes to the reading when its unit type is asked
for. -/
def InputUnitReads (q : Reading) : InputKind → Value → Prop
  | .output none, .chain c => w.ChainUnitReads r c 0.0 q
  | _, _ => False

/-! ## Handles -/

/-- The value of a handle comes to the reading. -/
def ValueReads (t : Float) (q : Reading) : Handle → Prop
  | .output .. => False
  | .attribute a => ∃ x exp, w.attribute? a = some x ∧ x.value = none ∧ x.expression = some exp ∧
    w.EvaluationReads r exp (some x.entity) false t q
  | .custom o => w.EvaluationReads r o.expression (some o.entity) false t q
  | .input id => ∃ i v, w.input? id = some i ∧ w.valueOf id = .ok v ∧ w.InputReads r t q i.kind v

/-- The unit type of a handle comes to the reading. -/
def UnitReads (q : Reading) : Handle → Prop
  | .input id => ∃ i v, w.input? id = some i ∧ w.valueOf id = .ok v ∧ w.InputUnitReads r q i.kind v
  | _ => False

/-- The first reading comes to the second one. A result is made of a value and, behind it, of a unit
type. -/
def ComesTo : Reading → Reading → Prop
  | .result h t, q => w.ValueReads r t q h ∨ (∃ v, w.valueWith r t h = .ok v) ∧ w.UnitReads r q h
  | .value h t, q => w.ValueReads r t q h
  | .unit h, q => w.UnitReads r q h

end World

/-! ## Evaluations ask for what they read -/

section

variable {G : Prop} {w : World} {this : Option EntityId} {everywhere : Bool} {t : Float}

namespace Expr

theorem evalEntity_not_endless (env : Env) (name : Option String) (pos : Nat) :
    ¬ Endless (evalEntity env name pos) := by
  unfold evalEntity
  split
  · split
    · exact not_endless_ok _
    · exact not_endless_failAt nofun
  · split
    · exact not_endless_ok _
    · exact not_endless_failAt nofun

theorem evalOutput_asks (target : Result) (name : String) (pos : Nat) :
    Asks G (fun r => evalOutput (w.envWith r this everywhere t) target name pos)
      fun _ q => ∃ e, target = .entity (some e) ∧ ∃ h, w.handle? e name = some h ∧
        q = .result h t := by
  have hother {x : Except Failure Result} (hx : ¬ Endless x)
      (hne : ∀ e, target ≠ .entity (some e)) : Asks G (fun _ => x) fun _ q =>
        ∃ e, target = .entity (some e) ∧ ∃ h, w.handle? e name = some h ∧ q = .result h t :=
    .nothing hx fun _ _ ⟨e, htarget, _⟩ => hne e htarget
  cases target with
  | entity target =>
    cases target with
    | none => exact hother (not_endless_failAt nofun) nofun
    | some e =>
      unfold evalOutput World.envWith
      dsimp only
      cases hh : w.handle? e name with
      | none =>
        refine .nothing (not_endless_failAt ?_) ?_
        · nofun
        · rintro _ _ ⟨_, ⟨⟩, _, hh', -⟩
          rw [hh] at hh'
          cases hh'
      | some h =>
        refine ((Asks.read (.result h t)).relocated pos).of_iff fun r q => ?_
        constructor
        · rintro ⟨_, ⟨⟩, _, hh', rfl⟩
          rw [hh] at hh'
          cases hh'
          rfl
        · rintro rfl
          exact ⟨e, rfl, h, hh, rfl⟩
  | _ => exact hother (not_endless_failAt nofun) nofun

section

variable {f g : Readings → Except Failure Result} {asked askedElse : Readings → Reading → Prop}

/-- Of two branches the one is asked for that is taken. -/
theorem branch_asks (pos : Nat) (c : Result) (hf : Asks G f asked) (hg : Asks G g askedElse) :
    Asks G (fun r => placed pos c.truth >>= fun b => if b then f r else g r)
      fun r q => c.truth = .ok true ∧ asked r q ∨ c.truth = .ok false ∧ askedElse r q := by
  have hbranch : ∀ b : Bool, Asks G (fun r => if b then f r else g r)
      fun r q => b = true ∧ asked r q ∨ b = false ∧ askedElse r q := by
    rintro (_ | _)
    · exact hg.of_iff fun r q => by simp
    · exact hf.of_iff fun r q => by simp
  refine (Asks.after (c.truth_noLoop.not_endless pos) hbranch).of_iff fun r q => ?_
  have hplaced : ∀ b, placed pos c.truth = .ok b ↔ c.truth = .ok b := fun _ => mapError_eq_ok
  simp [hplaced, and_or_left, exists_or]

/-- The truth value of the right operand. -/
theorem rightTruth_asks (pos : Nat) (h : Asks G f asked) :
    Asks G (fun r => f r >>= fun x => placed pos x.truth >>= fun b =>
      (.ok (Result.ofBool b) : Except Failure Result)) asked :=
  h.andThen fun x => not_endless_bind (x.truth_noLoop.not_endless pos) fun _ => not_endless_ok _

/-- The right operand of a logical operator is asked for if the left one does not decide. -/
theorem evalAnd_asks (pos : Nat) (left : Result) (h : Asks G f asked) :
    Asks G (fun r => evalAnd pos left fun _ => f r)
      fun r q => left.truth = .ok true ∧ asked r q :=
  (branch_asks pos left (rightTruth_asks pos h) (.const fun _ => not_endless_ok _)).of_iff
    fun r q => by simp

theorem evalOr_asks (pos : Nat) (left : Result) (h : Asks G f asked) :
    Asks G (fun r => evalOr pos left fun _ => f r)
      fun r q => left.truth = .ok false ∧ asked r q :=
  (branch_asks pos left (.const fun _ => not_endless_ok _) (rightTruth_asks pos h)).of_iff
    fun r q => by simp

/-- An operator asks for its right operand if it goes on to it. -/
theorem operator_asks (op : BinaryOp) (pos : Nat) (left : Result) (h : Asks G f asked) :
    Asks G (fun r => match op with
      | .and => evalAnd pos left fun _ => f r
      | .or => evalOr pos left fun _ => f r
      | op => f r >>= fun right => placed pos (op.apply left right))
      fun r q => op.GoesOn left ∧ asked r q := by
  cases op with
  | and => exact evalAnd_asks pos left h
  | or => exact evalOr_asks pos left h
  | _ =>
    refine (h.andThen fun right => ?_).of_iff fun r q => and_iff_right trivial
    exact (BinaryOp.apply_noLoop _ left right).not_endless pos

end

mutual

/-- An evaluation asks for the results of the outputs that it comes to read. -/
theorem eval_asks : ∀ e : Expr, Asks G (fun r => e.eval (w.envWith r this everywhere t))
    fun r q => e.Reads (w.envWith r this everywhere t) fun e name =>
      ∃ h, w.handle? e name = some h ∧ q = .result h t
  | .literal _ _ => .const fun _ => not_endless_ok _
  | .entity name pos => by
    show Asks G (fun _ => evalEntity (w.envWith .none this everywhere t) name pos) _
    exact .nothing (evalEntity_not_endless _ name pos) fun _ _ => id
  | .output target name pos => by
    refine ((eval_asks target).bind fun a => evalOutput_asks a name pos).of_iff fun r q => ?_
    refine or_congr_right ?_
    constructor
    · rintro ⟨e, he, hh⟩
      exact ⟨_, he, e, rfl, hh⟩
    · rintro ⟨_, he, e, rfl, hh⟩
      exact ⟨e, he, hh⟩
  | .index target i pos => by
    refine ((eval_asks target).bind fun a => (eval_asks i).andThen fun b =>
      itemAt_not_endless w.nameOf a b pos).of_iff fun r q => ?_
    exact or_congr_right exists_and_right.symm
  | .binary op left right pos => by
    refine ((eval_asks left).bind fun l =>
      operator_asks op pos l (eval_asks right)).of_iff fun r q => ?_
    refine or_congr_right ?_
    constructor
    · rintro ⟨⟨l, hl, hop⟩, hq⟩
      exact ⟨l, hl, hop, hq⟩
    · rintro ⟨l, hl, hop, hq⟩
      exact ⟨⟨l, hl, hop⟩, hq⟩
  | .unary op operand pos =>
    (eval_asks operand).andThen fun a => (op.apply_noLoop a).not_endless pos
  | .cond condition a b pos => by
    refine ((eval_asks condition).bind fun c =>
      branch_asks pos c (eval_asks a) (eval_asks b)).of_iff fun r q => ?_
    refine or_congr_right ?_
    constructor
    · rintro (⟨⟨c, hc, ht⟩, hq⟩ | ⟨⟨c, hc, ht⟩, hq⟩)
      · exact ⟨c, hc, .inl ⟨ht, hq⟩⟩
      · exact ⟨c, hc, .inr ⟨ht, hq⟩⟩
    · rintro ⟨c, hc, ⟨ht, hq⟩ | ⟨ht, hq⟩⟩
      · exact .inl ⟨⟨c, hc, ht⟩, hq⟩
      · exact .inr ⟨⟨c, hc, ht⟩, hq⟩
  | .call f args pos => (evalItems_asks args).andThen fun as => (f.apply_noLoop as).not_endless pos
  | .array items _ => (evalItems_asks items).andThen fun _ => not_endless_ok _
  | .map entries _ => (evalEntries_asks entries).andThen fun _ => not_endless_ok _

theorem evalItems_asks : ∀ items : List Expr,
    Asks G (fun r => evalItems (w.envWith r this everywhere t) items)
      fun r q => ItemsRead (w.envWith r this everywhere t) (fun e name =>
        ∃ h, w.handle? e name = some h ∧ q = .result h t) items
  | [] => .const fun _ => not_endless_ok _
  | item :: items => by
    refine ((eval_asks item).bind fun a => (evalItems_asks items).andThen fun as =>
      not_endless_ok _).of_iff fun r q => ?_
    exact or_congr_right exists_and_right.symm

theorem evalEntries_asks : ∀ entries : List (String × Expr),
    Asks G (fun r => evalEntries (w.envWith r this everywhere t) entries)
      fun r q => EntriesRead (w.envWith r this everywhere t) (fun e name =>
        ∃ h, w.handle? e name = some h ∧ q = .result h t) entries
  | [] => .const fun _ => not_endless_ok _
  | (key, value) :: entries => by
    refine ((eval_asks value).bind fun a => (evalEntries_asks entries).andThen fun as =>
      not_endless_ok _).of_iff fun r q => ?_
    exact or_congr_right exists_and_right.symm

end

end Expr

namespace World

/-- **The evaluation of an expression asks for what it reads.** -/
theorem evaluateWith_asks (exp : Expression) :
    Asks G (fun r => w.evaluateWith r exp this everywhere t)
      fun r q => w.EvaluationReads r exp this everywhere t q := by
  unfold evaluateWith
  simp only [withinExpression_eq_mapError]
  exact ((Expr.eval_asks exp.root).mapError (Failure.isEndless_anchoredIn exp.source)).mapError
    (Failure.isEndless_leaving exp)

/-! ## Chains and inputs -/

theorem chainStep_asks (h : Handle) (name : String) :
    Asks G (fun r => w.chainStep r t (some h) name) fun _ q => q = .result h t := by
  refine (Asks.read (.result h t)).andThen fun x => ?_
  split <;> exact not_endless_ok _

theorem hops_asks (h : Option Handle) (names : List String) :
    Asks G (fun r => names.foldlM (w.chainStep r t) h) fun r q => w.HopsRead r t q h names := by
  induction names generalizing h with
  | nil => cases h <;> exact .const fun _ => not_endless_ok _
  | cons name names ih =>
    simp only [List.foldlM_cons]
    cases h with
    | none => exact (Asks.after (not_endless_ok none) ih).of_iff fun r q => by simp [HopsRead]
    | some h => exact (chainStep_asks h name).bind ih

theorem chainEnd_asks (c : OutputChain) :
    Asks G (fun r => w.chainEnd r c t)
      fun r q => w.HopsRead r t q (w.handle? c.root c.firstName) c.remaining :=
  hops_asks _ _

/-- What a chain asks for on its way and at its end. -/
theorem atChainEnd_asks {α : Type} (c : OutputChain) (last : Handle → Reading)
    {x : Except Failure α} (hx : ¬ Endless x) {k : Handle → Readings → Except Failure α}
    (hk : ∀ h, Asks G (k h) fun _ q => q = last h) :
    Asks G (fun r => w.chainEnd r c t >>= fun h => match h with
      | none => x
      | some h => k h r) fun r q => w.ChainReads r c t last q := by
  have hnext : ∀ h : Option Handle, Asks G (fun r => match h with
      | none => x
      | some h => k h r) fun _ q => ∃ h', h = some h' ∧ q = last h' := by
    rintro (_ | h)
    · refine .nothing hx ?_
      rintro r q ⟨_, hnone, -⟩
      cases hnone
    · exact (hk h).of_iff fun r q => by simp
  refine ((chainEnd_asks c).bind hnext).of_iff fun r q => or_congr_right ?_
  constructor
  · rintro ⟨h, hh, hq⟩
    exact ⟨_, hh, h, rfl, hq⟩
  · rintro ⟨_, hh, h, rfl, hq⟩
    exact ⟨h, hh, hq⟩

theorem chainNumber_asks (c : OutputChain) (default : Float) :
    Asks G (fun r => w.chainNumber r c t default)
      fun r q => w.ChainReads r c t (.result · t) q := by
  refine atChainEnd_asks c _ (not_endless_ok _) fun h => ?_
  refine (Asks.read (.result h t)).andThen fun x => ?_
  split <;> exact not_endless_ok _

theorem chainValue_asks (c : OutputChain) :
    Asks G (fun r => w.chainValue r c t) fun r q => w.ChainReads r c t (.value · t) q :=
  atChainEnd_asks c _ (not_endless_ok _) fun h => .read (.value h t)

theorem chainUnit_asks (c : OutputChain) :
    Asks G (fun r => w.chainUnit r c t) fun r q => w.ChainUnitReads r c t q := by
  unfold chainUnit ChainUnitReads
  cases c.remaining.isEmpty with
  | true => exact Asks.read (.unit c.firstHandle)
  | false => exact atChainEnd_asks c _ (not_endless_ok _) fun h => .read (.unit h)

theorem sampleWith_asks (s : Sampler) :
    Asks G (fun r => w.sampleWith r t s) fun r q => w.SampleReads r t q s := by
  cases s with
  | constant => exact .const fun _ => not_endless_ok _
  | expression exp this unit =>
    refine (evaluateWith_asks exp).andThen fun x => ?_
    split
    · split
      · exact not_endless_ok _
      · exact not_endless_error nofun
    · exact not_endless_error nofun
  | chain c => exact chainNumber_asks c _

theorem provideWith_asks (p : Provider) :
    Asks G (fun r => w.provideWith r t p) fun r q => w.ProvideReads r t q p := by
  cases p with
  | constant => exact .const fun _ => not_endless_ok _
  | expression exp this type =>
    refine (evaluateWith_asks exp).andThen fun x => ?_
    split
    · exact not_endless_ok _
    · split
      · exact not_endless_ok _
      · exact not_endless_error nofun
    · exact not_endless_error nofun

theorem sampleValue_asks (keyword : String) (v : Value) :
    Asks G (fun r => w.sampleValue r keyword t v)
      fun r q => ∃ s, w.samplerOf v = .ok s ∧ w.SampleReads r t q s := by
  by_cases hv : v = .none
  · subst hv
    refine .nothing (not_endless_error (f := .ofFault (.noValue keyword)) nofun) ?_
    rintro _ _ ⟨_, ⟨⟩, -⟩
  · have hnone : v.isNone = false := by
      cases v <;> first | rfl | exact absurd rfl hv
    unfold sampleValue
    rw [hnone]
    exact Asks.after (w.samplerOf_not_endless v) sampleWith_asks

theorem inputSample_asks (keyword : String) (range : NumberRange) (v : Value) :
    Asks G (fun r => w.inputSample r keyword range t v)
      fun r q => ∃ s, w.samplerOf v = .ok s ∧ w.SampleReads r t q s := by
  refine (sampleValue_asks keyword v).andThen fun x => ?_
  split
  · exact not_endless_bind (not_endless_input _) fun _ => not_endless_ok _
  · exact not_endless_ok _

theorem inputValue_asks (id : InputId) (kind : InputKind) :
    Asks G (fun r => w.inputValue r id kind t)
      fun r q => ∃ v, w.valueOf id = .ok v ∧ w.InputReads r t q kind v := by
  refine Asks.after (w.valueOf_not_endless id) fun v => ?_
  have hother : ¬ Endless (.error .noSuchPart : Except Failure Value) := not_endless_error nofun
  cases kind with
  | output unit =>
    cases v with
    | none => exact .const fun _ => not_endless_ok _
    | chain c => exact chainValue_asks c
    | _ => exact .const fun _ => hother
  | sample unit range =>
    have hsample (v : Value) : Asks G (fun r => w.inputSample r id.keyword range t v >>= fun x =>
        .ok (Value.float x)) fun r q => ∃ s, w.samplerOf v = .ok s ∧ w.SampleReads r t q s :=
      (inputSample_asks id.keyword range v).andThen fun _ => not_endless_ok _
    cases v with
    | none =>
      refine .nothing (not_endless_ok _) ?_
      rintro _ _ ⟨_, ⟨⟩, -⟩
    | _ => exact hsample _
  | provider type invalid =>
    cases v with
    | none => exact .const fun _ => not_endless_ok _
    | provider p => exact provideWith_asks p
    | _ => exact .const fun _ => hother
  | _ => exact .const fun _ => not_endless_ok _

theorem valueUnit_asks (v : Value) :
    Asks G (fun r => w.valueUnit r v) fun r q => w.InputUnitReads r q (.output none) v := by
  have hsampler (v : Value) : Asks G (fun _ => w.samplerOf v >>= fun s => .ok s.unitType)
      fun _ _ => False :=
    .const fun _ => not_endless_bind (w.samplerOf_not_endless v) fun _ => not_endless_ok _
  cases v with
  | none => exact .const fun _ => not_endless_ok _
  | chain c => exact chainUnit_asks c
  | _ => exact hsampler _

theorem inputUnit_asks (id : InputId) (kind : InputKind) :
    Asks G (fun r => w.inputUnit r id kind)
      fun r q => ∃ v, w.valueOf id = .ok v ∧ w.InputUnitReads r q kind v := by
  have hother : ∀ kind : InputKind, ¬ Endless (.ok kind.unitType : Except Failure UnitType) :=
    fun _ => not_endless_ok _
  cases kind with
  | output unit =>
    cases unit with
    | none => exact Asks.after (w.valueOf_not_endless id) valueUnit_asks
    | some u =>
      refine .nothing (hother (.output (some u))) ?_
      rintro _ _ ⟨_, -, ⟨⟩⟩
  | _ =>
    refine .nothing (hother _) ?_
    rintro _ _ ⟨_, -, ⟨⟩⟩

/-! ## Handles -/

theorem unitWith_asks (h : Handle) :
    Asks G (fun r => w.unitWith r h) fun r q => w.UnitReads r q h := by
  unfold unitWith
  obtain ⟨e, name⟩ | _ | _ | id := h
  · refine .const fun _ => ?_
    split
    · exact not_endless_ok _
    · exact not_endless_error nofun
  · exact .const fun _ => not_endless_ok _
  · exact .const fun _ => not_endless_ok _
  · dsimp only
    cases hi : w.input? id with
    | none =>
      refine .nothing (not_endless_ok _) ?_
      rintro _ _ ⟨i, _, hi', -⟩
      rw [hi] at hi'
      cases hi'
    | some i =>
      refine (inputUnit_asks id i.kind).of_iff fun r q => ?_
      constructor
      · rintro ⟨_, v, hi', hv, hq⟩
        rw [hi] at hi'
        cases hi'
        exact ⟨v, hv, hq⟩
      · rintro ⟨v, hv, hq⟩
        exact ⟨i, v, hi, hv, hq⟩

theorem inputOutputWith_asks (id : InputId) :
    Asks G (fun r => w.inputOutputWith r id t) fun r q => w.ValueReads r t q (.input id) := by
  unfold inputOutputWith
  cases hi : w.input? id with
  | none =>
    refine .nothing (not_endless_ok _) ?_
    rintro _ _ ⟨i, _, hi', -⟩
    rw [hi] at hi'
    cases hi'
  | some i =>
    refine (inputValue_asks id i.kind).of_iff fun r q => ?_
    constructor
    · rintro ⟨_, v, hi', hv, hq⟩
      rw [hi] at hi'
      cases hi'
      exact ⟨v, hv, hq⟩
    · rintro ⟨v, hv, hq⟩
      exact ⟨i, v, hi, hv, hq⟩

theorem customResult_asks (o : CustomOutput) :
    Asks G (fun r => w.customResult r o t) fun r q => w.ValueReads r t q (.custom o) := by
  refine (evaluateWith_asks o.expression).andThen fun x => ?_
  split
  · split
    · exact not_endless_ok _
    · exact not_endless_error nofun
  · exact not_endless_ok _

theorem attribute_asks (a : AttributeId) :
    Asks G (fun r => w.resultWith r t (.attribute a))
      fun r q => w.ValueReads r t q (.attribute a) := by
  unfold resultWith
  dsimp only
  cases ha : w.attribute? a with
  | none =>
    refine .nothing (not_endless_error nofun) ?_
    rintro _ _ ⟨x, _, hx, -⟩
    rw [ha] at hx
    cases hx
  | some x =>
    dsimp only
    unfold attributeResult
    have hreads : ∀ r q, w.ValueReads r t q (.attribute a) ↔
        ∃ exp, x.value = none ∧ x.expression = some exp ∧
          w.EvaluationReads r exp (some x.entity) false t q := by
      intro r q
      constructor
      · rintro ⟨_, exp, hx, h⟩
        rw [ha] at hx
        cases hx
        exact ⟨exp, h⟩
      · rintro ⟨exp, h⟩
        exact ⟨x, exp, ha, h⟩
    refine Asks.of_iff ?_ hreads
    cases x.value with
    | some result =>
      refine .nothing (not_endless_ok _) ?_
      rintro _ _ ⟨_, ⟨⟩, -⟩
    | none =>
      cases x.expression with
      | none =>
        refine .nothing (not_endless_error nofun) ?_
        rintro _ _ ⟨_, -, ⟨⟩, -⟩
      | some exp => exact (evaluateWith_asks exp).of_iff fun r q => by simp

/-- The value of a handle asks for the readings that it comes to, if the outputs of classes do not
fail by self-reference. -/
theorem valueWith_asks (h : Handle) :
    Asks w.GettersPlain (fun r => w.valueWith r t h) fun r q => w.ValueReads r t q h := by
  match h with
  | .output e name => exact .const fun hG => hG e name t
  | .attribute a => exact (attribute_asks a).andThen fun _ => not_endless_ok _
  | .custom o => exact (customResult_asks o).andThen fun _ => not_endless_ok _
  | .input id => exact inputOutputWith_asks id

theorem resultWith_asks (h : Handle) :
    Asks w.GettersPlain (fun r => w.resultWith r t h)
      fun r q => w.ValueReads r t q h ∨ (∃ v, w.valueWith r t h = .ok v) ∧ w.UnitReads r q h := by
  have hresult (h : Handle) : Asks w.GettersPlain
      (fun r => w.valueWith r t h >>= fun v => w.unitWith r h >>= (v.toResult w.names ·))
      fun r q => w.ValueReads r t q h ∨ (∃ v, w.valueWith r t h = .ok v) ∧ w.UnitReads r q h :=
    ((valueWith_asks h).bind fun v => (unitWith_asks h).andThen fun u =>
      v.toResult_not_endless w.names u).of_iff fun r q => or_congr_right exists_and_right.symm
  match h with
  | .output e name => exact hresult (.output e name)
  | .attribute a => exact (attribute_asks a).of_iff fun r q => by simp [UnitReads]
  | .custom o => exact (customResult_asks o).of_iff fun r q => by simp [UnitReads]
  | .input id => exact hresult (.input id)

/-- **One reading over others asks for the readings that it comes to**, if the outputs of classes do
not fail by self-reference. -/
theorem outcomeOver_asks (q : Reading) :
    Asks w.GettersPlain (fun r => q.outcomeOver w r) fun r => w.ComesTo r q := by
  cases q with
  | result h t => exact resultWith_asks h
  | value h t => exact valueWith_asks h
  | unit h => exact unitWith_asks h

end World

end

end ModelInputs
