import ModelInputs.Proofs.Unit.Operations

/-!
# Unit types known before evaluation

What is inferred of an expression is compared with its result. An expression is sound if a number
that it yields has the unit type that is inferred, and it is faithful if nothing at its own node
stands against this. There are three places where a node decides by itself: an output of an entity
may yield another number than the entity declares, a choice may take the branch of which nothing is
known, and the greatest or smallest item of an array has the unit type of the items. Everywhere
else the unit type follows from those of the children.

* `Expr.children`, `Expr.Part`: the expressions of which an expression is made;
* `Expr.UnitSound`, `Expr.UnitFaithful`;
* `Expr.UnitSound.of_children`, `Expr.UnitSound.faithful`: one node;
* **`Expr.forall_part_unitSound_iff`**: all parts are sound if and only if all are faithful.
-/

namespace ModelInputs

open Result (fits_none fits_number)

namespace Expr

/-! ## Parts -/

/-- The expressions of which a node is made. -/
def children : Expr → List Expr
  | literal .. | entity .. => []
  | output target _ _ => [target]
  | index target i _ => [target, i]
  | binary _ left right _ => [left, right]
  | unary _ operand _ => [operand]
  | cond condition thenExpr elseExpr _ => [condition, thenExpr, elseExpr]
  | call _ args _ => args
  | array items _ => items
  | map entries _ => entries.map (·.2)

/-- The expressions of which an expression is made, the expression itself among them. -/
inductive Part (e : Expr) : Expr → Prop where
  | self : Part e e
  | child {p c : Expr} : Part e p → c ∈ p.children → Part e c

/-- An output of an entity has two parts. -/
theorem Part.of_output_entity {entityName : Option String} {name : String} {i j : Nat} {p : Expr}
    (h : (output (entity entityName i) name j).Part p) :
    p = output (entity entityName i) name j ∨ p = entity entityName i := by
  induction h with
  | self => exact .inl rfl
  | child _ hc ih =>
    rcases ih with rfl | rfl
    · exact .inr (List.mem_singleton.1 hc)
    · cases hc

theorem sizeOf_lt_of_mem_children {e c : Expr} (h : c ∈ e.children) : sizeOf c < sizeOf e := by
  cases e with
  | literal | entity => cases h
  | output | index | unary | binary | cond =>
    simp only [children, List.mem_cons, List.not_mem_nil, or_false] at h
    rcases h with rfl | rfl | rfl <;> decreasing_tactic
  | call f args pos =>
    have hlt : sizeOf c < sizeOf args := List.sizeOf_lt_of_mem h
    rw [call.sizeOf_spec]
    omega
  | array items pos =>
    have hlt : sizeOf c < sizeOf items := List.sizeOf_lt_of_mem h
    rw [array.sizeOf_spec]
    omega
  | map entries pos =>
    obtain ⟨⟨key, value⟩, hentry, rfl⟩ := List.mem_map.1 h
    have hlt := List.sizeOf_lt_of_mem hentry
    rw [Prod.mk.sizeOf_spec] at hlt
    rw [map.sizeOf_spec]
    dsimp only
    omega

/-- Induction on expressions: what holds of a node if it holds of all its children holds of all
expressions. -/
theorem of_children {P : Expr → Prop} (h : ∀ e, (∀ c ∈ e.children, P c) → P e) (e : Expr) : P e :=
  h e fun c hc =>
    have := sizeOf_lt_of_mem_children hc
    of_children h c
termination_by e

/-! ## Soundness -/

section

variable (check env : Env) (strict : Bool)

/-- A number that the expression yields has the unit type that is inferred, if one is. -/
def UnitSound (e : Expr) : Prop :=
  ∀ unit r, e.inferUnit check strict = .ok unit → e.eval env = .ok r → r.Fits unit

/-- Nothing at the node itself stands against the unit type that is inferred: an output of an entity
yields numbers of the unit type that is known of it, a branch without a known unit type that is
taken yields numbers of the unit type of the other branch, and so does an array in which a number is
looked for. -/
def UnitFaithful : Expr → Prop
  | output (entity name at_) outputName _ =>
    ∀ e unit r, resolve env name at_ = .ok e → check.unitOf e outputName = some (.ok unit) →
      env.read e outputName = some (.ok r) → r.Fits unit
  | cond condition thenExpr elseExpr pos =>
    ∀ unit test b r,
      (cond condition thenExpr elseExpr pos).inferUnit check strict = .ok unit →
      condition.eval env = .ok test → test.truth = .ok b →
      (if b then thenExpr else elseExpr).inferUnit check strict = .ok none →
      (if b then thenExpr else elseExpr).eval env = .ok r → r.Fits unit
  | call f args _ =>
    ∀ units rs r, inferUnits check strict args = .ok units → evalItems env args = .ok rs →
      f.ChoosesItem rs → f.apply rs = .ok r → r.Fits (f.unitRule units)
  | _ => True

end

variable {check env : Env} {strict : Bool}

/-! ## One node -/

theorem inferUnits_fits {items : List Expr} (hs : ∀ item ∈ items, UnitSound check env strict item)
    {units : List (Option UnitType)} {rs : List Result}
    (hi : inferUnits check strict items = .ok units) (hr : evalItems env items = .ok rs) :
    List.Forall₂ (fun u r => r.Fits u) units rs := by
  induction items generalizing units rs with
  | nil =>
    cases hi
    cases hr
    exact .nil
  | cons item items ih =>
    obtain ⟨u, hu, hi₁⟩ := bind_eq_ok.1 hi
    obtain ⟨us, hus, hi₂⟩ := bind_eq_ok.1 hi₁
    obtain ⟨r, hr₀, hr₁⟩ := bind_eq_ok.1 hr
    obtain ⟨rs, hrs, hr₂⟩ := bind_eq_ok.1 hr₁
    cases hi₂
    cases hr₂
    rw [List.forall_mem_cons] at hs
    exact .cons (hs.1 u r hu hr₀) (ih hs.2 hus hrs)

theorem eval_entity (name : Option String) (pos : Nat) :
    (entity name pos).eval env = (resolve env name pos).map fun e => .entity (some e) := by
  show evalEntity env name pos = _
  unfold evalEntity resolve
  cases name with
  | none => cases env.this <;> rfl
  | some name => dsimp only; cases env.lookup name <;> rfl

theorem resolve_congr (hthis : check.this = env.this) (hlookup : check.lookup = env.lookup)
    (name : Option String) (pos : Nat) : resolve check name pos = resolve env name pos := by
  unfold resolve
  rw [hthis, hlookup]

theorem inferOutput_eq_ok {e : EntityId} {name : String} {pos : Nat} {unit : Option UnitType}
    (h : inferOutput check strict e name pos = .ok unit) :
    check.unitOf e name = some (.ok unit) ∨ unit = none := by
  unfold inferOutput at h
  split at h
  · next x hx =>
    subst h
    exact .inl hx
  · split at h
    · cases h
    · cases h
      exact .inr rfl

theorem evalOutput_eq_ok {e : EntityId} {name : String} {pos : Nat} {r : Result} :
    evalOutput env (.entity (some e)) name pos = .ok r ↔ env.read e name = some (.ok r) := by
  unfold evalOutput
  dsimp only
  cases env.read e name with
  | none =>
    constructor
    · rintro ⟨⟩
    · rintro ⟨⟩
  | some x => exact mapError_eq_ok.trans Option.some_inj.symm

theorem checkSameUnit_eq_ok {pos : Nat} {u v : UnitType} :
    checkSameUnit pos (some u) (some v) = .ok () ↔ u = v := by
  unfold checkSameUnit
  dsimp only
  split
  · next h => exact ⟨fun _ => h, fun _ => rfl⟩
  · next h => exact ⟨nofun, fun h' => absurd h' h⟩

/-- A choice is sound if its branches are and the branch of which nothing is known is not taken. -/
theorem taken_fits {pos : Nat} {u v : Option UnitType} {b : Bool} {r : Result}
    (hsame : checkSameUnit pos u v = .ok ()) (hr : r.Fits (if b then u else v))
    (hknown : (if b then u else v) = none → r.Fits (u <|> v)) : r.Fits (u <|> v) := by
  cases b with
  | true =>
    cases u with
    | none => exact hknown rfl
    | some c => exact hr
  | false =>
    cases v with
    | none => exact hknown rfl
    | some d =>
      cases u with
      | none => exact hr
      | some c =>
        obtain rfl := checkSameUnit_eq_ok.1 hsame
        exact hr

/-- A node is sound if its children are and nothing stands against it at the node itself. -/
theorem UnitSound.of_children (hthis : check.this = env.this) (hlookup : check.lookup = env.lookup)
    {e : Expr} (hc : ∀ c ∈ e.children, UnitSound check env strict c)
    (hf : UnitFaithful check env strict e) : UnitSound check env strict e := by
  intro unit r hi hr
  cases e with
  | literal value pos =>
    cases hr
    cases r with
    | number x u =>
      cases hi
      exact fits_number.2 rfl
    | _ =>
      cases hi
      exact fits_none _
  | entity name pos =>
    obtain ⟨e, -, hi₁⟩ := bind_eq_ok.1 hi
    cases hi₁
    exact fits_none _
  | output target name pos =>
    cases target with
    | entity ent entPos =>
      obtain ⟨e, he, hi₁⟩ := bind_eq_ok.1 hi
      obtain ⟨t, ht, hr₁⟩ := bind_eq_ok.1 hr
      rw [resolve_congr hthis hlookup] at he
      rw [eval_entity, he] at ht
      cases ht
      rcases inferOutput_eq_ok hi₁ with hunit | rfl
      · exact hf e unit r he hunit (evalOutput_eq_ok.1 hr₁)
      · exact fits_none _
    | _ =>
      obtain ⟨u, -, hi₁⟩ := bind_eq_ok.1 hi
      cases hi₁
      exact fits_none _
  | index target i pos =>
    obtain ⟨u, -, hi₁⟩ := bind_eq_ok.1 hi
    obtain ⟨v, -, hi₂⟩ := bind_eq_ok.1 hi₁
    cases hi₂
    exact fits_none _
  | binary op left right pos =>
    obtain ⟨u, hu, hi₁⟩ := bind_eq_ok.1 hi
    obtain ⟨v, hv, hi₂⟩ := bind_eq_ok.1 hi₁
    obtain ⟨l, hl, hr₁⟩ := bind_eq_ok.1 hr
    have hleft : l.Fits u := hc left (.head _) u l hu hl
    -- a logical operator yields a truth value, whatever its operands are
    cases op with
    | and =>
      cases hi₂
      exact evalAnd_fits hr₁
    | or =>
      cases hi₂
      exact evalOr_fits hr₁
    | _ =>
      obtain ⟨x, hx, hr₂⟩ := bind_eq_ok.1 hr₁
      have hright : x.Fits v := hc right (.tail _ (.head _)) v x hv hx
      exact BinaryOp.apply_fits hleft hright hi₂ (mapError_eq_ok.1 hr₂)
  | unary op operand pos =>
    obtain ⟨u, hu, hi₁⟩ := bind_eq_ok.1 hi
    obtain ⟨o, ho, hr₁⟩ := bind_eq_ok.1 hr
    cases hi₁
    exact UnaryOp.apply_fits (hc operand (.head _) u o hu ho) (mapError_eq_ok.1 hr₁)
  | cond c a b pos =>
    obtain ⟨_, -, hi₁⟩ := bind_eq_ok.1 hi
    obtain ⟨u, hu, hi₂⟩ := bind_eq_ok.1 hi₁
    obtain ⟨v, hv, hi₃⟩ := bind_eq_ok.1 hi₂
    obtain ⟨⟨⟩, hsame, hi₄⟩ := bind_eq_ok.1 hi₃
    obtain ⟨test, htest, hr₁⟩ := bind_eq_ok.1 hr
    obtain ⟨taken, htaken, hr₂⟩ := bind_eq_ok.1 hr₁
    rw [placed, mapError_eq_ok] at htaken
    cases hi₄
    cases taken with
    | true =>
      have hfits : r.Fits u := hc a (.tail _ (.head _)) u r hu hr₂
      refine taken_fits (b := true) hsame hfits ?_
      rintro rfl
      exact hf _ test true r hi htest htaken hu hr₂
    | false =>
      have hfits : r.Fits v := hc b (.tail _ (.tail _ (.head _))) v r hv hr₂
      refine taken_fits (b := false) hsame hfits ?_
      rintro rfl
      exact hf _ test false r hi htest htaken hv hr₂
  | call f args pos =>
    obtain ⟨us, hus, hi₁⟩ := bind_eq_ok.1 hi
    obtain ⟨rs, hrs, hr₁⟩ := bind_eq_ok.1 hr
    cases hi₁
    by_cases hitem : f.ChoosesItem rs
    · exact hf us rs r hus hrs hitem (mapError_eq_ok.1 hr₁)
    · exact Function.apply_fits (inferUnits_fits hc hus hrs) hitem (mapError_eq_ok.1 hr₁)
  | array items pos =>
    obtain ⟨us, -, hi₁⟩ := bind_eq_ok.1 hi
    cases hi₁
    exact fits_none _
  | map entries pos =>
    obtain ⟨us, -, hi₁⟩ := bind_eq_ok.1 hi
    cases hi₁
    exact fits_none _

/-- What stands against a node at the node itself makes the node unsound. -/
theorem UnitSound.faithful (hthis : check.this = env.this) (hlookup : check.lookup = env.lookup)
    {e : Expr} (hs : UnitSound check env strict e) : UnitFaithful check env strict e := by
  cases e with
  | output target name pos =>
    cases target with
    | entity ent entPos =>
      intro e unit r he hunit hread
      refine hs unit r (bind_eq_ok.2 ⟨e, ?_, ?_⟩) (bind_eq_ok.2 ⟨.entity (some e), ?_, ?_⟩)
      · rw [resolve_congr hthis hlookup, he]
      · rw [inferOutput, hunit]
      · rw [eval_entity, he]
        rfl
      · exact evalOutput_eq_ok.2 hread
    | _ => trivial
  | cond c a b pos =>
    intro unit test taken r hi htest htaken _ hr
    refine hs unit r hi (bind_eq_ok.2 ⟨test, htest, ?_⟩)
    refine bind_eq_ok.2 ⟨taken, mapError_eq_ok.2 htaken, ?_⟩
    cases taken with
    | true => exact hr
    | false => exact hr
  | call f args pos =>
    intro units rs r hunits hrs _ hr
    exact hs _ r (bind_eq_ok.2 ⟨units, hunits, rfl⟩) (bind_eq_ok.2 ⟨rs, hrs, mapError_eq_ok.2 hr⟩)
  | _ => trivial

/-! ## All nodes -/

/-- **All parts of an expression are sound if and only if all are faithful.** -/
theorem forall_part_unitSound_iff (hthis : check.this = env.this)
    (hlookup : check.lookup = env.lookup) (e : Expr) :
    (∀ p, Part e p → UnitSound check env strict p) ↔
      ∀ p, Part e p → UnitFaithful check env strict p := by
  constructor
  · intro h p hp
    exact (h p hp).faithful hthis hlookup
  · intro h p
    induction p using of_children with
    | h p ih =>
      intro hp
      exact .of_children hthis hlookup (fun c hc => ih c hc (hp.child hc)) (h p hp)

end Expr

end ModelInputs
