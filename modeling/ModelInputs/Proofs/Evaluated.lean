import ModelInputs.Proofs.Meaning
import ModelInputs.Proofs.Reading.Reads
import ModelInputs.Proofs.Unit.Inference

/-!
# The parts that are evaluated

A part of an expression is known by its place, which has the number of a child for every step down
from the root. The evaluation of a node turns to its children from left to right, to the right
operand of a logical operator only if the left one leaves it open, and of a choice only to the
branch that is taken; it goes no further than a failure. So it comes to some places and not to
others. What happens at a place that it comes to decides how it goes on from there, and what stands
at any other place does not matter.

* `Expr.Holds`, `BinaryOp.stop?`: truth values, and where logical operators stop;
* `Expr.partAt?`, `Expr.replaceAt`: the part at a place, and another one in its stead;
* `Expr.TurnsTo`, `Expr.Evaluates`: the children, and the places, that an evaluation comes to;
* `Expr.exists_eval_withChildren`: all nodes but choices and logical operators evaluate their
  children in a row;
* `Expr.exists_eval_withChild`, `Expr.eval_withChild`: one child;
* **`Expr.evaluates_iff`**: an evaluation comes to a place exactly if every failure there is its
  own.
-/

namespace ModelInputs

/-! ## Conditions -/

/-- The truth value of its left operand at which a logical operator stops. -/
def BinaryOp.stop? : BinaryOp → Option Bool
  | .and => some false
  | .or => some true
  | _ => none

theorem BinaryOp.goesOn_iff {op : BinaryOp} {stop : Bool} (hop : op.stop? = some stop)
    (left : Result) : op.GoesOn left ↔ left.truth = .ok !stop := by
  cases op with
  | and | or =>
    cases hop
    exact Iff.rfl
  | _ => cases hop

theorem BinaryOp.goesOn_of_stop?_eq_none {op : BinaryOp} (hop : op.stop? = none) (left : Result) :
    op.GoesOn left := by
  cases op with
  | and | or => cases hop
  | _ => trivial

namespace Expr

variable {env : Env}

/-- The expression has a truth value, and it is this one. -/
def Holds (env : Env) (e : Expr) (b : Bool) : Prop :=
  ∃ r, e.eval env = .ok r ∧ r.truth = .ok b

/-- Truth values are those of numbers, whatever the unit type: all but zero are true. -/
theorem holds_iff {e : Expr} {b : Bool} :
    e.Holds env b ↔ ∃ x u, e.eval env = .ok (.number x u) ∧ (x != 0.0) = b := by
  constructor
  · rintro ⟨r, hr, hb⟩
    cases r with
    | number x u =>
      cases hb
      exact ⟨x, u, hr, rfl⟩
    | _ => cases hb
  · rintro ⟨x, u, hr, rfl⟩
    exact ⟨.number x u, hr, rfl⟩

/-- The truth value of an expression, which a node at that position asks for. -/
def test (env : Env) (pos : Nat) (e : Expr) : Except Failure Bool := do
  placed pos (← e.eval env).truth

theorem test_eq_ok {e : Expr} {pos : Nat} {b : Bool} : e.test env pos = .ok b ↔ e.Holds env b := by
  rw [test, bind_eq_ok]
  exact exists_congr fun r => and_congr_right fun _ => mapError_eq_ok

theorem eval_cond_eq (condition a b : Expr) (pos : Nat) :
    (cond condition a b pos).eval env = (do
      if ← condition.test env pos then a.eval env else b.eval env) := by
  rw [eval_cond, test, bind_assoc]

/-- Conjunctions and disjunctions differ only in where they stop. -/
theorem eval_logical {op : BinaryOp} {stop : Bool} (hop : op.stop? = some stop)
    (left right : Expr) (pos : Nat) :
    (binary op left right pos).eval env = (do
      if (← left.test env pos) = stop then return .ofBool stop
      else return .ofBool (← right.test env pos)) := by
  simp only [eval_binary, test, bind_assoc]
  cases left.eval env with
  | error f => rfl
  | ok l =>
    rw [ok_bind, ok_bind]
    cases op with
    | and =>
      cases hop
      show evalAnd pos l _ = _
      rw [evalAnd]
      cases placed pos l.truth with
      | error f => rfl
      | ok b => cases b <;> rfl
    | or =>
      cases hop
      rfl
    | _ => cases hop

theorem eval_binary_of_stop?_eq_none {op : BinaryOp} (hop : op.stop? = none)
    (left right : Expr) (pos : Nat) :
    (binary op left right pos).eval env = (do
      placed pos (op.apply (← left.eval env) (← right.eval env))) := by
  cases op with
  | and | or => cases hop
  | _ => rfl

/-! ## Places -/

/-- The part at a place. -/
def partAt? (e : Expr) : List Nat → Option Expr
  | [] => some e
  | i :: place => e.children[i]?.bind fun c => c.partAt? place

/-- The node over other children, of which there are as many. -/
def withChildren : Expr → List Expr → Expr
  | output _ name pos, [target] => output target name pos
  | index _ _ pos, [target, i] => index target i pos
  | binary op _ _ pos, [left, right] => binary op left right pos
  | unary op _ pos, [operand] => unary op operand pos
  | cond _ _ _ pos, [condition, a, b] => cond condition a b pos
  | call f _ pos, args => call f args pos
  | array _ pos, items => array items pos
  | map entries pos, values => map ((entries.map (·.1)).zip values) pos
  | e, _ => e

/-- The node with another child of that number. -/
def withChild (e : Expr) (i : Nat) (c : Expr) : Expr :=
  e.withChildren (e.children.set i c)

/-- The expression with another part at a place. -/
def replaceAt (e : Expr) (place : List Nat) (c : Expr) : Expr :=
  match place with
  | [] => c
  | i :: place =>
    match e.children[i]? with
    | some child => e.withChild i (child.replaceAt place c)
    | none => e

/-- The evaluation of the node turns to the child of that number. -/
def TurnsTo (env : Env) : Expr → Nat → Prop
  | binary op left _ _, 1 => ∃ r, left.eval env = .ok r ∧ op.GoesOn r
  | cond condition _ _ _, 1 => condition.Holds env true
  | cond condition _ _ _, 2 => condition.Holds env false
  | e, i => ∀ c ∈ e.children.take i, ∃ r, c.eval env = .ok r

/-- The evaluation comes to the place. -/
def Evaluates (env : Env) (e : Expr) : List Nat → Prop
  | [] => True
  | i :: place => e.TurnsTo env i ∧ ∃ c, e.children[i]? = some c ∧ c.Evaluates env place

/-! ## Several expressions in a row -/

/-- Where all items in front have results, the next one decides how the evaluation goes on. -/
theorem exists_evalItems_set {items : List Expr} {i : Nat} (hi : i < items.length)
    (hfront : ∀ c ∈ items.take i, ∃ r, c.eval env = .ok r) :
    ∃ k : Result → Except Failure (List Result), ∀ c : Expr,
      evalItems env (items.set i c) = c.eval env >>= k := by
  induction items generalizing i with
  | nil => exact absurd hi (Nat.not_lt_zero i)
  | cons item items ih =>
    cases i with
    | zero =>
      refine ⟨fun first => evalItems env items >>= fun rest => .ok (first :: rest), fun c => ?_⟩
      rfl
    | succ i =>
      rw [List.take_succ_cons, List.forall_mem_cons] at hfront
      obtain ⟨⟨r, hr⟩, hfront⟩ := hfront
      obtain ⟨k, hk⟩ := ih (Nat.lt_of_succ_lt_succ hi) hfront
      refine ⟨fun x => k x >>= fun rest => .ok (r :: rest), fun c => ?_⟩
      rw [List.set_cons_succ, evalItems_cons, hr, ok_bind, hk, bind_assoc]
      rfl

/-- Behind an item without a result nothing matters. -/
theorem evalItems_set {items : List Expr} {i : Nat}
    (hfront : ¬ ∀ c ∈ items.take i, ∃ r, c.eval env = .ok r) (c : Expr) :
    evalItems env (items.set i c) = evalItems env items := by
  induction items generalizing i with
  | nil => rfl
  | cons item items ih =>
    cases i with
    | zero => exact absurd (List.forall_mem_nil _) hfront
    | succ i =>
      rw [List.set_cons_succ, evalItems_cons, evalItems_cons]
      cases hitem : item.eval env with
      | error f => rfl
      | ok r =>
        rw [List.take_succ_cons, List.forall_mem_cons, not_and] at hfront
        rw [ih (hfront ⟨r, hitem⟩)]

/-- The entries of a map are evaluated as their expressions in a row. -/
theorem evalEntries_zip {keys : List String} {values : List Expr}
    (h : values.length = keys.length) :
    evalEntries env (keys.zip values) = (evalItems env values).map (keys.zip ·) := by
  induction keys generalizing values with
  | nil =>
    obtain rfl := List.length_eq_zero_iff.1 h
    rfl
  | cons key keys ih =>
    obtain ⟨value, values, rfl⟩ := List.exists_cons_of_length_eq_add_one h
    rw [List.zip_cons_cons, evalEntries_cons, ih (Nat.succ_inj.1 h), evalItems_cons]
    cases value.eval env with
    | error f => rfl
    | ok r => cases evalItems env values <;> rfl

/-! ## Nodes that evaluate all their children -/

/-- The evaluation of the node goes through all its children. -/
def IsStrict : Expr → Prop
  | binary op .. => op.stop? = none
  | cond .. => False
  | _ => True

/-- A strict node makes its result out of those of its children. -/
theorem exists_eval_withChildren {e : Expr} (h : e.IsStrict) (env : Env) :
    ∃ k : List Result → Except Failure Result, ∀ items : List Expr,
      items.length = e.children.length →
        (e.withChildren items).eval env = evalItems env items >>= k := by
  cases e with
  | literal value pos =>
    refine ⟨fun _ => .ok value, fun items hitems => ?_⟩
    obtain rfl := List.length_eq_zero_iff.1 hitems
    rfl
  | entity name pos =>
    refine ⟨fun _ => evalEntity env name pos, fun items hitems => ?_⟩
    obtain rfl := List.length_eq_zero_iff.1 hitems
    rfl
  | output target name pos =>
    refine ⟨fun rs => evalOutput env rs.head! name pos, fun items hitems => ?_⟩
    obtain ⟨target', rfl⟩ := List.length_eq_one_iff.1 hitems
    rw [withChildren, eval_output, evalItems_cons, bind_assoc]
    rfl
  | unary op operand pos =>
    refine ⟨fun rs => placed pos (op.apply rs.head!), fun items hitems => ?_⟩
    obtain ⟨operand', rfl⟩ := List.length_eq_one_iff.1 hitems
    rw [withChildren, eval_unary, evalItems_cons, bind_assoc]
    rfl
  | index target i pos =>
    refine ⟨fun rs => (itemAt env.nameOf rs.head! rs.tail.head!).mapError (.exprAt pos),
      fun items hitems => ?_⟩
    obtain ⟨target', i', rfl⟩ := List.length_eq_two.1 hitems
    simp only [withChildren, eval_index, evalItems_cons, bind_assoc]
    rfl
  | binary op left right pos =>
    refine ⟨fun rs => placed pos (op.apply rs.head! rs.tail.head!), fun items hitems => ?_⟩
    obtain ⟨left', right', rfl⟩ := List.length_eq_two.1 hitems
    simp only [withChildren, eval_binary_of_stop?_eq_none h, evalItems_cons, bind_assoc]
    rfl
  | cond => exact absurd h id
  | call f args pos => exact ⟨fun rs => placed pos (f.apply rs), fun items _ => rfl⟩
  | array items pos => exact ⟨fun rs => .ok (.array rs), fun items _ => rfl⟩
  | map entries pos =>
    refine ⟨fun rs => .ok (.map ((entries.map (·.1)).zip rs)), fun values hvalues => ?_⟩
    rw [withChildren, eval_map, evalEntries_zip (hvalues.trans (by simp [children]))]
    cases evalItems env values <;> rfl

/-! ## One child -/

theorem withChildren_children (e : Expr) : e.withChildren e.children = e := by
  cases e with
  | map entries pos => exact congrArg (map · pos) (List.zip_of_prod rfl rfl).symm
  | _ => rfl

theorem withChild_self {e c : Expr} {i : Nat} (h : e.children[i]? = some c) :
    e.withChild i c = e := by
  obtain ⟨hi, rfl⟩ := List.getElem?_eq_some_iff.1 h
  rw [withChild, List.set_getElem_self hi, withChildren_children]

theorem turnsTo_of_isStrict {e : Expr} (h : e.IsStrict) (i : Nat) :
    e.TurnsTo env i ↔ ∀ c ∈ e.children.take i, ∃ r, c.eval env = .ok r := by
  cases e with
  | binary op left right pos =>
    match i with
    | 0 | i + 2 => exact Iff.rfl
    | 1 =>
      have hleft : (∀ c ∈ [left], ∃ r, c.eval env = .ok r) ↔ ∃ r, left.eval env = .ok r :=
        List.forall_mem_singleton
      refine Iff.trans ?_ hleft.symm
      exact exists_congr fun l => and_iff_left (op.goesOn_of_stop?_eq_none h l)
  | cond => exact absurd h id
  | _ => exact Iff.rfl

theorem turnsTo_right {op : BinaryOp} {stop : Bool} (hop : op.stop? = some stop)
    (left right : Expr) (pos : Nat) :
    (binary op left right pos).TurnsTo env 1 ↔ left.Holds env !stop :=
  exists_congr fun l => and_congr_right fun _ => op.goesOn_iff hop l

/-- Where the evaluation turns to a child, that child decides how it goes on. -/
theorem exists_eval_withChild {e : Expr} {i : Nat} (hi : i < e.children.length)
    (hturn : e.TurnsTo env i) :
    ∃ k : Result → Except Failure Result, ∀ c : Expr,
      (e.withChild i c).eval env = c.eval env >>= k := by
  by_cases hstrict : e.IsStrict
  · obtain ⟨whole, hwhole⟩ := exists_eval_withChildren hstrict env
    obtain ⟨row, hrow⟩ := exists_evalItems_set hi ((turnsTo_of_isStrict hstrict i).1 hturn)
    refine ⟨fun r => row r >>= whole, fun c => ?_⟩
    rw [withChild, hwhole _ List.length_set, hrow, bind_assoc]
  · cases e with
    | binary op left right pos =>
      obtain ⟨stop, hop⟩ := Option.ne_none_iff_exists'.1 hstrict
      match i, hturn with
      | 0, _ => exact ⟨_, fun c => rfl⟩
      | 1, hturn =>
        refine ⟨fun r => do return .ofBool (← placed pos r.truth), fun c => ?_⟩
        show (binary op left c pos).eval env = _
        rw [eval_logical hop, test_eq_ok.2 ((turnsTo_right hop ..).1 hturn), ok_bind,
          if_neg (Bool.not_eq_self stop).1, test, bind_assoc]
    | cond condition a b pos =>
      match i, hturn with
      | 0, _ => exact ⟨_, fun c => rfl⟩
      | 1, hturn | 2, hturn =>
        refine ⟨.ok, fun c => ?_⟩
        show (cond condition _ _ pos).eval env = _
        rw [eval_cond_eq, test_eq_ok.2 hturn]
        exact (bind_pure _).symm
    | _ => exact absurd trivial hstrict

/-- Where the evaluation does not turn to a child, the child does not matter. -/
theorem eval_withChild {e : Expr} {i : Nat} (hturn : ¬ e.TurnsTo env i) (c : Expr) :
    (e.withChild i c).eval env = e.eval env := by
  by_cases hstrict : e.IsStrict
  · obtain ⟨whole, hwhole⟩ := exists_eval_withChildren hstrict env
    rw [turnsTo_of_isStrict hstrict] at hturn
    calc (e.withChild i c).eval env
      _ = evalItems env (e.children.set i c) >>= whole := hwhole _ List.length_set
      _ = evalItems env e.children >>= whole := by rw [evalItems_set hturn]
      _ = (e.withChildren e.children).eval env := (hwhole _ rfl).symm
      _ = e.eval env := by rw [withChildren_children]
  · cases e with
    | binary op left right pos =>
      obtain ⟨stop, hop⟩ := Option.ne_none_iff_exists'.1 hstrict
      match i with
      | 0 => exact absurd (List.forall_mem_nil _) hturn
      | 1 =>
        rw [turnsTo_right hop] at hturn
        show (binary op left c pos).eval env = _
        rw [eval_logical hop, eval_logical hop]
        cases hl : left.test env pos with
        | error f => rfl
        | ok v =>
          have hv : v = stop := by
            by_contra hne
            exact hturn (test_eq_ok.1 (Bool.eq_not.2 hne ▸ hl))
          rw [ok_bind, ok_bind, if_pos hv, if_pos hv]
      | i + 2 => rfl
    | cond condition a b pos =>
      match i with
      | 0 => exact absurd (List.forall_mem_nil _) hturn
      | 1 | 2 =>
        show (cond condition _ _ pos).eval env = _
        rw [eval_cond_eq, eval_cond_eq]
        cases hv : condition.test env pos with
        | error f => rfl
        | ok v =>
          cases v with
          | true | false => first | rfl | exact absurd (test_eq_ok.1 hv) hturn
      | i + 3 => rfl
    | _ => exact absurd trivial hstrict

/-! ## Any place -/

/-- What happens at a place that the evaluation comes to decides how it goes on. -/
theorem exists_eval_replaceAt {e : Expr} {place : List Nat} (h : e.Evaluates env place) :
    ∃ k : Result → Except Failure Result, ∀ c : Expr,
      (e.replaceAt place c).eval env = c.eval env >>= k := by
  induction place generalizing e with
  | nil => exact ⟨.ok, fun c => (bind_pure _).symm⟩
  | cons i place ih =>
    obtain ⟨hturn, child, hchild, h⟩ := h
    obtain ⟨inner, hinner⟩ := ih h
    obtain ⟨outer, houter⟩ :=
      exists_eval_withChild (List.getElem?_eq_some_iff.1 hchild).1 hturn
    refine ⟨fun r => inner r >>= outer, fun c => ?_⟩
    simp only [replaceAt, hchild]
    rw [houter, hinner, bind_assoc]

/-- What stands at a place that the evaluation does not come to does not matter. -/
theorem eval_replaceAt {e : Expr} {place : List Nat} (h : ¬ e.Evaluates env place) (c : Expr) :
    (e.replaceAt place c).eval env = e.eval env := by
  induction place generalizing e with
  | nil => exact absurd trivial h
  | cons i place ih =>
    rw [replaceAt]
    cases hchild : e.children[i]? with
    | none => rfl
    | some child =>
      by_cases hturn : e.TurnsTo env i
      · have hinner := ih fun h' => h ⟨hturn, child, hchild, h'⟩
        obtain ⟨outer, houter⟩ :=
          exists_eval_withChild (List.getElem?_eq_some_iff.1 hchild).1 hturn
        calc (e.withChild i (child.replaceAt place c)).eval env
          _ = child.eval env >>= outer := by rw [houter, hinner]
          _ = (e.withChild i child).eval env := (houter child).symm
          _ = e.eval env := by rw [withChild_self hchild]
      · exact eval_withChild hturn _

/-- An evaluation comes to a place if and only if every failure there is its own failure. -/
theorem evaluates_iff {e : Expr} {place : List Nat} :
    e.Evaluates env place ↔
      ∀ c f, c.eval env = .error f → (e.replaceAt place c).eval env = .error f := by
  constructor
  · intro h c f hc
    obtain ⟨k, hk⟩ := exists_eval_replaceAt h
    rw [hk, hc]
    rfl
  · intro h
    by_contra hnot
    -- two failures at different positions cannot both be the failure of `e`
    have hfail (pos : Nat) : e.eval env = failAt pos (.notAnEntity "" .text) := by
      rw [← eval_replaceAt hnot (output (literal (.text "") 0) "" pos)]
      exact h _ _ rfl
    cases (hfail 0).symm.trans (hfail 1)

end Expr

end ModelInputs
