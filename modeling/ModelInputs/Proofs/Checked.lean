import ModelInputs.Proofs.Units

/-!
# What a check has seen

An expression is checked before it is kept. The check goes through all of its parts, also those that
are never evaluated, and looks up every reference as an evaluation does. So once it has passed, each
reference yields an entity in the same world, and after a strict check an output that is read at a
reference is one that this entity has.

* `Expr.inferUnit_of_mem_children`: a node is checked with all its children;
* `Expr.Part.inferUnit_eq_ok`: an expression is checked with all its parts;
* **`World.checkExpression_references`**: the references of an expression that passes the check.
-/

namespace ModelInputs

namespace Expr

variable {env : Env} {strict : Bool}

/-! ## Parts -/

theorem inferUnit_of_mem_items {items : List Expr} {units : List (Option UnitType)} {item : Expr}
    (h : inferUnits env strict items = .ok units) (hi : item ∈ items) :
    ∃ unit, item.inferUnit env strict = .ok unit := by
  induction items generalizing units with
  | nil => cases hi
  | cons first items ih =>
    obtain ⟨unit, hfirst, h⟩ := bind_eq_ok.1 h
    obtain ⟨units', hunits', -⟩ := bind_eq_ok.1 h
    obtain rfl | hi := List.mem_cons.1 hi
    · exact ⟨unit, hfirst⟩
    · exact ih hunits' hi

theorem inferUnit_of_mem_entries {entries : List (String × Expr)} {entry : String × Expr}
    (h : inferEntries env strict entries = .ok ()) (he : entry ∈ entries) :
    ∃ unit, entry.2.inferUnit env strict = .ok unit := by
  induction entries with
  | nil => cases he
  | cons first entries ih =>
    obtain ⟨unit, hfirst, h⟩ := bind_eq_ok.1 h
    obtain rfl | he := List.mem_cons.1 he
    · exact ⟨unit, hfirst⟩
    · exact ih h he

theorem inferUnit_entity {name : Option String} {pos : Nat} {e : EntityId}
    (h : resolve env name pos = .ok e) : (entity name pos).inferUnit env strict = .ok none :=
  bind_eq_ok.2 ⟨e, h, rfl⟩

/-- **A node that passes the check has children that pass it**, whatever the node is. -/
theorem inferUnit_of_mem_children {e c : Expr} {unit : Option UnitType}
    (h : e.inferUnit env strict = .ok unit) (hc : c ∈ e.children) :
    ∃ unit', c.inferUnit env strict = .ok unit' := by
  cases e with
  | literal | entity => cases hc
  | output target name pos =>
    obtain rfl := List.mem_singleton.1 hc
    cases c with
    | entity ent entPos =>
      obtain ⟨e, he, -⟩ := bind_eq_ok.1 h
      exact ⟨none, inferUnit_entity he⟩
    | _ =>
      obtain ⟨unit', h, -⟩ := bind_eq_ok.1 h
      exact ⟨unit', h⟩
  | index target i pos =>
    obtain ⟨u, htarget, h⟩ := bind_eq_ok.1 h
    obtain ⟨v, hi, -⟩ := bind_eq_ok.1 h
    simp only [children, List.mem_cons, List.not_mem_nil, or_false] at hc
    obtain rfl | rfl := hc
    · exact ⟨u, htarget⟩
    · exact ⟨v, hi⟩
  | binary op left right pos =>
    obtain ⟨u, hleft, h⟩ := bind_eq_ok.1 h
    obtain ⟨v, hright, -⟩ := bind_eq_ok.1 h
    simp only [children, List.mem_cons, List.not_mem_nil, or_false] at hc
    obtain rfl | rfl := hc
    · exact ⟨u, hleft⟩
    · exact ⟨v, hright⟩
  | unary op operand pos =>
    obtain ⟨u, hoperand, -⟩ := bind_eq_ok.1 h
    obtain rfl := List.mem_singleton.1 hc
    exact ⟨u, hoperand⟩
  | cond condition thenExpr elseExpr pos =>
    obtain ⟨t, hcondition, h⟩ := bind_eq_ok.1 h
    obtain ⟨u, hthen, h⟩ := bind_eq_ok.1 h
    obtain ⟨v, helse, -⟩ := bind_eq_ok.1 h
    simp only [children, List.mem_cons, List.not_mem_nil, or_false] at hc
    obtain rfl | rfl | rfl := hc
    · exact ⟨t, hcondition⟩
    · exact ⟨u, hthen⟩
    · exact ⟨v, helse⟩
  | call f args pos =>
    obtain ⟨units, hargs, -⟩ := bind_eq_ok.1 h
    exact inferUnit_of_mem_items hargs hc
  | array items pos =>
    obtain ⟨units, hitems, -⟩ := bind_eq_ok.1 h
    exact inferUnit_of_mem_items hitems hc
  | map entries pos =>
    obtain ⟨⟨⟩, hentries, -⟩ := bind_eq_ok.1 h
    obtain ⟨entry, hentry, rfl⟩ := List.mem_map.1 hc
    exact inferUnit_of_mem_entries hentries hentry

/-- **An expression that passes the check has parts that pass it.** -/
theorem Part.inferUnit_eq_ok {e p : Expr} (hp : e.Part p) {unit : Option UnitType}
    (h : e.inferUnit env strict = .ok unit) : ∃ unit', p.inferUnit env strict = .ok unit' := by
  induction hp with
  | self => exact ⟨unit, h⟩
  | child _ hc ih =>
    obtain ⟨unit', h⟩ := ih
    exact inferUnit_of_mem_children h hc

/-! ## References -/

theorem exists_resolve {name : Option String} {pos : Nat} {unit : Option UnitType}
    (h : (entity name pos).inferUnit env strict = .ok unit) :
    ∃ e, resolve env name pos = .ok e := by
  obtain ⟨e, he, -⟩ := bind_eq_ok.1 h
  exact ⟨e, he⟩

/-- After a strict check an output of a reference is one that the entity has. -/
theorem isSome_unitOf {name : Option String} {output : String} {namePos pos : Nat}
    {unit : Option UnitType} {e : EntityId}
    (h : (Expr.output (entity name namePos) output pos).inferUnit env true = .ok unit)
    (he : resolve env name namePos = .ok e) : (env.unitOf e output).isSome := by
  obtain ⟨e', he', h⟩ := bind_eq_ok.1 h
  cases he.symm.trans he'
  unfold inferOutput at h
  split at h
  · next hunit =>
    rw [hunit]
    rfl
  · cases h

end Expr

namespace World

variable {w : World} {this : Option EntityId} {everywhere strict : Bool}

theorem exists_inferUnit_of_checkExpression {exp : Expression} {expected : Option UnitType}
    (h : w.checkExpression exp this expected everywhere strict = .ok ()) :
    ∃ unit, exp.root.inferUnit (w.checkEnv this everywhere) strict = .ok unit := by
  obtain ⟨unit, hunit, -⟩ := bind_eq_ok.1 h
  exact ⟨unit, anchored_eq_ok.1 hunit⟩

/-- **Every reference of an expression that passes the check yields an entity**, wherever it stands
in the expression, at any time in the same world and for the same entity. If the check is strict,
each output that is read directly at the reference is one of that entity. -/
theorem checkExpression_references {exp : Expression} {expected : Option UnitType}
    (h : w.checkExpression exp this expected everywhere strict = .ok ()) {name : Option String}
    {namePos : Nat} (hp : exp.root.Part (.entity name namePos)) :
    ∃ e, (∀ t, w.evaluate ⟨exp.source, .entity name namePos⟩ this t everywhere =
        .ok (.entity (some e))) ∧
      (strict = true → ∀ output pos, exp.root.Part (.output (.entity name namePos) output pos) →
        ∃ handle, w.handle? e output = some handle) := by
  obtain ⟨unit, hroot⟩ := exists_inferUnit_of_checkExpression h
  obtain ⟨_, hreference⟩ := hp.inferUnit_eq_ok hroot
  obtain ⟨e, he⟩ := Expr.exists_resolve hreference
  refine ⟨e, fun t => ?_, ?_⟩
  · -- an evaluation looks references up as the check does
    have heq : Expr.resolve (w.checkEnv this everywhere) name namePos =
        Expr.resolve (w.envWith w.readings this everywhere t) name namePos :=
      Expr.resolve_congr rfl rfl name namePos
    rw [evaluate, evaluateWith_eq_ok, Expr.eval_entity, ← heq, he]
    rfl
  · rintro rfl output pos houtput
    obtain ⟨_, hread⟩ := houtput.inferUnit_eq_ok hroot
    have hunit := Expr.isSome_unitOf hread he
    exact Option.isSome_iff_exists.1 (Option.isSome_map.symm.trans hunit)

/-! ## A reference that is not taken -/

/-- The server by its name, under a condition that is never met, or else its attribute. -/
def serverOrAttribute : Expression :=
  ⟨"this==null?[S]:this.A",
    .cond (.binary .eq (.entity none 0) (.literal .null 6) 4) (.entity (some "S") 11)
      (.output (.entity none 15) "A" 20) 10⟩

set_option maxRecDepth 20000 in
theorem parse?_serverOrAttribute :
    Expression.parse? "this==null?[S]:this.A" true = .ok serverOrAttribute := by
  cbv

theorem checkExpression_serverOrAttribute :
    withSpeed.checkExpression serverOrAttribute (some ⟨0⟩) none false true = .ok () :=
  rfl

/-- The strict check of an expression with two references: the server that is named in the branch
that is never taken is found, and so is the attribute that is read at the other one. -/
theorem checkExpression_references_serverOrAttribute :
    Expression.parse? "this==null?[S]:this.A" true = .ok serverOrAttribute ∧
      withSpeed.checkExpression serverOrAttribute (some ⟨0⟩) none false true = .ok () ∧
      serverOrAttribute.root.Part (.entity (some "S") 11) ∧
      (∃ e, ∀ t, withSpeed.evaluate ⟨serverOrAttribute.source, .entity (some "S") 11⟩ (some ⟨0⟩) t =
        .ok (.entity (some e))) ∧
      serverOrAttribute.root.Part (.output (.entity none 15) "A" 20) ∧
      ∃ e, (∀ t, withSpeed.evaluate ⟨serverOrAttribute.source, .entity none 15⟩ (some ⟨0⟩) t =
          .ok (.entity (some e))) ∧
        ∃ handle, withSpeed.handle? e "A" = some handle := by
  have hnamed : serverOrAttribute.root.Part (.entity (some "S") 11) :=
    .child .self (.tail _ (.head _))
  have hread : serverOrAttribute.root.Part (.output (.entity none 15) "A" 20) :=
    .child .self (.tail _ (.tail _ (.head _)))
  obtain ⟨e, he, -⟩ := checkExpression_references checkExpression_serverOrAttribute hnamed
  obtain ⟨e', he', hstrict⟩ := checkExpression_references checkExpression_serverOrAttribute
    (hread.child (.head _))
  exact ⟨parse?_serverOrAttribute, checkExpression_serverOrAttribute, hnamed, ⟨e, he⟩, hread,
    e', he', hstrict rfl "A" 20 hread⟩

end World

end ModelInputs
