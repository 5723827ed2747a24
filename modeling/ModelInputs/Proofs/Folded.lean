import ModelInputs.Proofs.Meaning
import ModelInputs.Proofs.Outcome
import ModelInputs.Proofs.Unit.Inference

/-!
# Folding a tree

An expression can be folded from the inside out. A constant, which contains no reference and all of
whose parts have values, becomes its value. What fails with an error of an expression is kept, so
that the error comes when the expression is evaluated. A remainder or an angle function that has no
value on its constant operands is no such error: it stops the folding of the whole expression.

* `Expr.folded`: the expression with its constant parts folded;
* `Expr.IsConstant`, `Expr.IsUndefined`: constants, and operations without a value on constants;
* `Expr.FoldsTo`, `Expr.NodeFoldsTo`: a tree and a node with what they are folded to;
* **`Expr.foldsTo_of_folded_eq_ok`**, **`Expr.folded_eq_error_iff`**: what folding yields, and when
  it stops.
-/

namespace ModelInputs

namespace Expr

/-! ## Constants -/

/-- The expression refers to something outside of it, or takes an item of such a thing. -/
def IsReference : Expr → Prop
  | entity .. | output .. | index .. => True
  | _ => False

/-- No part of the expression is a reference, and each of them has a value. -/
def IsConstant (e : Expr) : Prop :=
  ∀ p, e.Part p → ¬ p.IsReference ∧ ∃ value, p.eval .empty = .ok value

/-- An operation on constants that has no value on them, though they are of the right kinds. -/
def IsUndefined (e : Expr) : Prop :=
  ¬ e.IsReference ∧ (∀ c ∈ e.children, c.IsConstant) ∧ e.eval .empty = .error .mathDomain

theorem Part.trans {e p q : Expr} (hp : e.Part p) (hq : p.Part q) : e.Part q := by
  induction hq with
  | self => exact hp
  | child _ hc ih => exact ih.child hc

/-- A part is the expression itself or a part of one of its children. -/
theorem part_iff {e p : Expr} : e.Part p ↔ p = e ∨ ∃ c ∈ e.children, c.Part p := by
  constructor
  · intro h
    induction h with
    | self => exact .inl rfl
    | child _ hc ih =>
      obtain rfl | ⟨c, hmem, hpart⟩ := ih
      · exact .inr ⟨_, hc, .self⟩
      · exact .inr ⟨c, hmem, hpart.child hc⟩
  · rintro (rfl | ⟨c, hc, hp⟩)
    · exact .self
    · exact (Part.self.child hc).trans hp

theorem isConstant_iff {e : Expr} : e.IsConstant ↔
    ¬ e.IsReference ∧ (∃ value, e.eval .empty = .ok value) ∧ ∀ c ∈ e.children, c.IsConstant := by
  constructor
  · intro h
    obtain ⟨href, hvalue⟩ := h e .self
    exact ⟨href, hvalue, fun c hc p hp => h p (part_iff.2 (.inr ⟨c, hc, hp⟩))⟩
  · rintro ⟨href, hvalue, hchildren⟩ p hp
    obtain rfl | ⟨c, hc, hp⟩ := part_iff.1 hp
    · exact ⟨href, hvalue⟩
    · exact hchildren c hc p hp

/-! ## Folding -/

mutual

/-- The expression with its constant parts folded, from the inside out. -/
def folded : Expr → Except Failure Expr
  | literal value pos => .ok (literal value pos)
  | entity name pos => .ok (entity name pos)
  | output target name pos => do
    return output (← folded target) name pos
  | index target i pos => do
    let target ← folded target
    return index target (← folded i) pos
  | binary op left right pos => do
    let left ← folded left
    let right ← folded right
    (binary op left right pos).fold true
  | unary op operand pos => do
    let operand ← folded operand
    (unary op operand pos).fold true
  | cond condition thenExpr elseExpr pos => do
    let condition ← folded condition
    let thenExpr ← folded thenExpr
    let elseExpr ← folded elseExpr
    (cond condition thenExpr elseExpr pos).fold true
  | call function args pos => do
    let args ← foldedItems args
    (call function args pos).fold true
  | array items pos => do
    let items ← foldedItems items
    (array items pos).fold true
  | map entries pos => do
    let entries ← foldedEntries entries
    (map entries pos).fold true

/-- Some expressions with their constant parts folded. -/
def foldedItems : List Expr → Except Failure (List Expr)
  | [] => .ok []
  | item :: items => do
    let first ← folded item
    return first :: (← foldedItems items)

/-- The entries of a map with their constant parts folded. -/
def foldedEntries : List (String × Expr) → Except Failure (List (String × Expr))
  | [] => .ok []
  | (key, value) :: entries => do
    let first ← folded value
    return (key, first) :: (← foldedEntries entries)

end

/-! ## Failures of constants -/

section

variable {α : Type}

/-- A result, an error of an expression, or no value on some numbers. -/
abbrev FailsOrLacksValue (x : Except Failure α) : Prop :=
  YieldsUnless (fun f => f = .mathDomain) (fun _ => True) x

theorem placed_failsOrLacksValue (pos : Nat) (x : Except OpFault α) :
    FailsOrLacksValue (placed pos x) := by
  cases x with
  | ok a => trivial
  | error fault =>
    cases fault with
    | refused fault => exact .inl ⟨_, rfl⟩
    | undefined => exact .inr rfl

end

theorem evalItems_failsOrLacksValue {env : Env} {items : List Expr}
    (h : ∀ e ∈ items, FailsOrLacksValue (e.eval env)) :
    FailsOrLacksValue (evalItems env items) := by
  induction items with
  | nil => trivial
  | cons item items ih =>
    rw [List.forall_mem_cons] at h
    exact h.1.bind fun _ _ _ => (ih h.2).bind fun _ _ _ => trivial

theorem evalEntries_failsOrLacksValue {env : Env} {entries : List (String × Expr)}
    (h : ∀ e ∈ entries.map (·.2), FailsOrLacksValue (e.eval env)) :
    FailsOrLacksValue (evalEntries env entries) := by
  induction entries with
  | nil => trivial
  | cons entry entries ih =>
    rw [List.map_cons, List.forall_mem_cons] at h
    exact h.1.bind fun _ _ _ => (ih h.2).bind fun _ _ _ => trivial

theorem evalOutput_failsOrLacksValue (target : Result) (name : String) (pos : Nat) :
    FailsOrLacksValue (evalOutput .empty target name pos) := by
  unfold evalOutput
  split <;> exact .inl ⟨_, rfl⟩

/-- Where there are no entities, an evaluation fails with an error of an expression, or because an
operation has no value. -/
theorem eval_failsOrLacksValue (e : Expr) : FailsOrLacksValue (e.eval .empty) := by
  induction e using of_children with
  | h e ih =>
    cases e with
    | literal => trivial
    | entity name pos => cases name <;> exact .inl ⟨_, rfl⟩
    | output target name pos =>
      exact (ih target (.head _)).bind fun r _ _ => evalOutput_failsOrLacksValue r name pos
    | index target i pos =>
      refine (ih target (.head _)).bind fun r _ _ => ?_
      refine (ih i (.tail _ (.head _))).bind fun s _ _ => ?_
      cases itemAt Env.empty.nameOf r s with
      | ok a => trivial
      | error fault => exact .inl ⟨_, rfl⟩
    | binary op left right pos =>
      refine (ih left (.head _)).bind fun l _ _ => ?_
      have hright := ih right (.tail _ (.head _))
      cases op with
      | and =>
        refine (placed_failsOrLacksValue pos _).bind fun b _ _ => ?_
        cases b with
        | false => trivial
        | true =>
          exact hright.bind fun _ _ _ => (placed_failsOrLacksValue pos _).bind fun _ _ _ => trivial
      | or =>
        refine (placed_failsOrLacksValue pos _).bind fun b _ _ => ?_
        cases b with
        | false =>
          exact hright.bind fun _ _ _ => (placed_failsOrLacksValue pos _).bind fun _ _ _ => trivial
        | true => trivial
      | _ => exact hright.bind fun _ _ _ => placed_failsOrLacksValue pos _
    | unary op operand pos =>
      exact (ih operand (.head _)).bind fun _ _ _ => placed_failsOrLacksValue pos _
    | cond condition a b pos =>
      refine (ih condition (.head _)).bind fun _ _ _ => ?_
      refine (placed_failsOrLacksValue pos _).bind fun taken _ _ => ?_
      cases taken with
      | true => exact ih a (.tail _ (.head _))
      | false => exact ih b (.tail _ (.tail _ (.head _)))
    | call f args pos =>
      exact (evalItems_failsOrLacksValue ih).bind fun _ _ _ => placed_failsOrLacksValue pos _
    | array items pos => exact (evalItems_failsOrLacksValue ih).bind fun _ _ _ => trivial
    | map entries pos => exact (evalEntries_failsOrLacksValue ih).bind fun _ _ _ => trivial

/-! ## One node -/

/-- What an expression is folded to: it means the same, it is a constant if the expression is made
of constants alone, and there was nothing to stop at. -/
structure FoldsTo (e e' : Expr) : Prop where
  sameMeaning : SameMeaning e e'
  isLiteral_iff : e'.isLiteral = true ↔ e.IsConstant
  no_part : ∀ p, e.Part p → ¬ p.IsUndefined

/-- A node follows another one whose children are folded to its own. -/
structure NodeFoldsTo (node node' : Expr) : Prop where
  sameMeaning : SameMeaning node node'
  constant_iff : node'.hasConstantChildren = true ↔
    ¬ node.IsReference ∧ ∀ c ∈ node.children, c.IsConstant
  isLiteral : node'.isLiteral = false
  no_part : ∀ c ∈ node.children, ∀ p, c.Part p → ¬ p.IsUndefined

namespace NodeFoldsTo

variable {node node' : Expr} (h : NodeFoldsTo node node')
include h

theorem no_part_of_not (hnode : ¬ node.IsUndefined) : ∀ p, node.Part p → ¬ p.IsUndefined := by
  intro p hp
  obtain rfl | ⟨c, hc, hp⟩ := part_iff.1 hp
  · exact hnode
  · exact h.no_part c hc p hp

/-- A node is folded to its value, or kept. -/
theorem of_fold_eq_ok {e : Expr} (he : node'.fold true = .ok e) : FoldsTo node e := by
  have hm : SameMeaning node e := fun env =>
    (h.sameMeaning env).trans (SameMeaning.of_fold he env).symm
  rw [fold, Bool.true_and] at he
  split at he
  · next hc =>
    obtain ⟨href, hchildren⟩ := h.constant_iff.1 hc
    split at he
    · next value hv =>
      cases he
      have hvalue : node.eval .empty = .ok value := (h.sameMeaning _).trans hv
      refine ⟨hm, iff_of_true rfl (isConstant_iff.2 ⟨href, ⟨value, hvalue⟩, hchildren⟩), ?_⟩
      refine h.no_part_of_not fun hu => ?_
      cases hu.2.2.symm.trans hvalue
    · next error herror =>
      cases he
      have herror' : node.eval .empty = .error (.expression error) :=
        (h.sameMeaning _).trans herror
      refine ⟨hm, iff_of_false (by simp [h.isLiteral]) ?_, ?_⟩
      · intro hconstant
        obtain ⟨value, hvalue⟩ := (hconstant node .self).2
        cases herror'.symm.trans hvalue
      · refine h.no_part_of_not fun hu => ?_
        cases hu.2.2.symm.trans herror'
    · cases he
  · next hc =>
    cases he
    refine ⟨hm, iff_of_false (by simp [h.isLiteral]) ?_, ?_⟩
    · intro hconstant
      obtain ⟨href, -, hchildren⟩ := isConstant_iff.1 hconstant
      exact hc (h.constant_iff.2 ⟨href, hchildren⟩)
    · exact h.no_part_of_not fun hu => hc (h.constant_iff.2 ⟨hu.1, hu.2.1⟩)

/-- Folding stops at a node that is undefined. -/
theorem of_fold_eq_error {f : Failure} (he : node'.fold true = .error f) :
    f = .mathDomain ∧ node.IsUndefined := by
  rw [fold, Bool.true_and] at he
  split at he
  · next hc =>
    have hf := eval_failsOrLacksValue node'
    split at he
    · cases he
    · cases he
    · next failure hnot heval =>
      cases he
      rw [heval] at hf
      obtain ⟨error, rfl⟩ | rfl := hf
      · exact absurd rfl (hnot error)
      · obtain ⟨href, hchildren⟩ := h.constant_iff.1 hc
        exact ⟨rfl, href, hchildren, (h.sameMeaning _).trans heval⟩
  · cases he

end NodeFoldsTo

section

variable {target target' i i' left left' right right' operand operand' c c' a a' b b' : Expr}
  {pos : Nat}

theorem FoldsTo.output (h : FoldsTo target target') (name : String) :
    NodeFoldsTo (output target name pos) (output target' name pos) where
  sameMeaning := h.sameMeaning.output name pos
  constant_iff := by simp [hasConstantChildren, IsReference]
  isLiteral := rfl
  no_part := List.forall_mem_singleton.2 h.no_part

theorem FoldsTo.index (h : FoldsTo target target') (hi : FoldsTo i i') :
    NodeFoldsTo (index target i pos) (index target' i' pos) where
  sameMeaning := h.sameMeaning.index hi.sameMeaning pos
  constant_iff := by simp [hasConstantChildren, IsReference]
  isLiteral := rfl
  no_part := List.forall_mem_cons.2 ⟨h.no_part, List.forall_mem_singleton.2 hi.no_part⟩

theorem FoldsTo.binary (op : BinaryOp) (hl : FoldsTo left left') (hr : FoldsTo right right') :
    NodeFoldsTo (binary op left right pos) (binary op left' right' pos) where
  sameMeaning := .binary op hl.sameMeaning hr.sameMeaning pos
  constant_iff := by
    simp [hasConstantChildren, IsReference, children, hl.isLiteral_iff, hr.isLiteral_iff]
  isLiteral := rfl
  no_part := List.forall_mem_cons.2 ⟨hl.no_part, List.forall_mem_singleton.2 hr.no_part⟩

theorem FoldsTo.unary (op : UnaryOp) (h : FoldsTo operand operand') :
    NodeFoldsTo (unary op operand pos) (unary op operand' pos) where
  sameMeaning := h.sameMeaning.unary op pos
  constant_iff := by simp [hasConstantChildren, IsReference, children, h.isLiteral_iff]
  isLiteral := rfl
  no_part := List.forall_mem_singleton.2 h.no_part

theorem FoldsTo.cond (hc : FoldsTo c c') (ha : FoldsTo a a') (hb : FoldsTo b b') :
    NodeFoldsTo (cond c a b pos) (cond c' a' b' pos) where
  sameMeaning := hc.sameMeaning.cond ha.sameMeaning hb.sameMeaning pos
  constant_iff := by
    simp [hasConstantChildren, IsReference, children, hc.isLiteral_iff, ha.isLiteral_iff,
      hb.isLiteral_iff, and_assoc]
  isLiteral := rfl
  no_part := List.forall_mem_cons.2
    ⟨hc.no_part, List.forall_mem_cons.2 ⟨ha.no_part, List.forall_mem_singleton.2 hb.no_part⟩⟩

end

section

variable {items items' : List Expr} (h : List.Forall₂ FoldsTo items items') {pos : Nat}
include h

theorem FoldsTo.all_isLiteral_iff :
    items'.all isLiteral = true ↔ ∀ item ∈ items, item.IsConstant := by
  induction h with
  | nil => simp
  | cons hi _ ih =>
    rw [List.all_cons, Bool.and_eq_true, hi.isLiteral_iff, ih, List.forall_mem_cons]

theorem FoldsTo.no_part_of_items : ∀ item ∈ items, ∀ p, item.Part p → ¬ p.IsUndefined := by
  induction h with
  | nil => nofun
  | cons hi _ ih => exact List.forall_mem_cons.2 ⟨hi.no_part, ih⟩

theorem FoldsTo.call (f : Function) :
    NodeFoldsTo (Expr.call f items pos) (Expr.call f items' pos) where
  sameMeaning := .call f (h.imp fun _ _ hi => hi.sameMeaning) pos
  constant_iff := by simp [hasConstantChildren, IsReference, children, ← all_isLiteral_iff h]
  isLiteral := rfl
  no_part := no_part_of_items h

theorem FoldsTo.array : NodeFoldsTo (Expr.array items pos) (Expr.array items' pos) where
  sameMeaning := .array (h.imp fun _ _ hi => hi.sameMeaning) pos
  constant_iff := by simp [hasConstantChildren, IsReference, children, ← all_isLiteral_iff h]
  isLiteral := rfl
  no_part := no_part_of_items h

end

/-- Entries with the same keys, whose values are folded. -/
abbrev EntriesFoldTo : List (String × Expr) → List (String × Expr) → Prop :=
  List.Forall₂ fun entry entry' => entry.1 = entry'.1 ∧ FoldsTo entry.2 entry'.2

theorem EntriesFoldTo.values {entries entries' : List (String × Expr)}
    (h : EntriesFoldTo entries entries') :
    List.Forall₂ FoldsTo (entries.map (·.2)) (entries'.map (·.2)) := by
  rw [List.forall₂_map_left_iff, List.forall₂_map_right_iff]
  exact h.imp fun _ _ hi => hi.2

theorem EntriesFoldTo.map {entries entries' : List (String × Expr)} {pos : Nat}
    (h : EntriesFoldTo entries entries') :
    NodeFoldsTo (Expr.map entries pos) (Expr.map entries' pos) where
  sameMeaning := .map (h.imp fun _ _ hi => ⟨hi.1, hi.2.sameMeaning⟩) pos
  constant_iff := by
    have hiff := FoldsTo.all_isLiteral_iff h.values
    rw [List.all_map] at hiff
    simp only [hasConstantChildren, IsReference, children, not_false_eq_true, true_and]
    exact hiff
  isLiteral := rfl
  no_part := FoldsTo.no_part_of_items h.values

/-! ## All nodes -/

theorem foldsTo_items {items items' : List Expr} (h : foldedItems items = .ok items')
    (hitems : ∀ item ∈ items, ∀ {item'}, item.folded = .ok item' → FoldsTo item item') :
    List.Forall₂ FoldsTo items items' := by
  induction items generalizing items' with
  | nil =>
    cases h
    exact .nil
  | cons item items ih =>
    obtain ⟨first, hfirst, h⟩ := bind_eq_ok.1 h
    obtain ⟨rest, hrest, ⟨⟩⟩ := bind_eq_ok.1 h
    exact .cons (hitems item (.head _) hfirst) (ih hrest fun c hc => hitems c (.tail _ hc))

theorem foldedItems_eq_error {items : List Expr} {f : Failure} (h : foldedItems items = .error f) :
    ∃ item ∈ items, item.folded = .error f := by
  induction items with
  | nil => cases h
  | cons item items ih =>
    obtain h | ⟨first, -, h⟩ := bind_eq_error.1 h
    · exact ⟨item, .head _, h⟩
    · obtain h | ⟨rest, -, ⟨⟩⟩ := bind_eq_error.1 h
      obtain ⟨item', hmem, h⟩ := ih h
      exact ⟨item', .tail _ hmem, h⟩

theorem foldsTo_entries {entries entries' : List (String × Expr)}
    (h : foldedEntries entries = .ok entries')
    (hentries : ∀ c ∈ entries.map (·.2), ∀ {c'}, c.folded = .ok c' → FoldsTo c c') :
    EntriesFoldTo entries entries' := by
  induction entries generalizing entries' with
  | nil =>
    cases h
    exact .nil
  | cons entry entries ih =>
    obtain ⟨first, hfirst, h⟩ := bind_eq_ok.1 h
    obtain ⟨rest, hrest, ⟨⟩⟩ := bind_eq_ok.1 h
    exact .cons ⟨rfl, hentries _ (.head _) hfirst⟩
      (ih hrest fun c hc => hentries c (.tail _ hc))

theorem foldedEntries_eq_error {entries : List (String × Expr)} {f : Failure}
    (h : foldedEntries entries = .error f) :
    ∃ c ∈ entries.map (·.2), c.folded = .error f := by
  induction entries with
  | nil => cases h
  | cons entry entries ih =>
    obtain h | ⟨first, -, h⟩ := bind_eq_error.1 h
    · exact ⟨entry.2, .head _, h⟩
    · obtain h | ⟨rest, -, ⟨⟩⟩ := bind_eq_error.1 h
      obtain ⟨c, hc, h⟩ := ih h
      exact ⟨c, .tail _ hc, h⟩

theorem foldsTo_literal (value : Result) (pos : Nat) :
    FoldsTo (literal value pos) (literal value pos) where
  sameMeaning := .refl _
  isLiteral_iff := iff_of_true rfl (isConstant_iff.2 ⟨id, ⟨value, rfl⟩, nofun⟩)
  no_part p hp hu := by
    obtain rfl | ⟨c, hc, -⟩ := part_iff.1 hp
    · cases hu.2.2
    · cases hc

theorem foldsTo_entity (name : Option String) (pos : Nat) :
    FoldsTo (entity name pos) (entity name pos) where
  sameMeaning := .refl _
  isLiteral_iff := iff_of_false nofun fun hconstant => (isConstant_iff.1 hconstant).1 trivial
  no_part p hp hu := by
    obtain rfl | ⟨c, hc, -⟩ := part_iff.1 hp
    · exact hu.1 trivial
    · cases hc

/-- **A tree that is folded means the same as before**, is a constant exactly if it was made of
constants, and had no undefined part. -/
theorem foldsTo_of_folded_eq_ok {e e' : Expr} (h : e.folded = .ok e') : FoldsTo e e' := by
  induction e using of_children generalizing e' with
  | h e ih =>
    cases e with
    | literal value pos =>
      cases h
      exact foldsTo_literal value pos
    | entity name pos =>
      cases h
      exact foldsTo_entity name pos
    | output target name pos =>
      obtain ⟨target', ht, h⟩ := bind_eq_ok.1 h
      exact ((ih target (.head _) ht).output name).of_fold_eq_ok h
    | index target i pos =>
      obtain ⟨target', ht, h⟩ := bind_eq_ok.1 h
      obtain ⟨i', hi, h⟩ := bind_eq_ok.1 h
      exact ((ih target (.head _) ht).index (ih i (.tail _ (.head _)) hi)).of_fold_eq_ok h
    | binary op left right pos =>
      obtain ⟨left', hl, h⟩ := bind_eq_ok.1 h
      obtain ⟨right', hr, h⟩ := bind_eq_ok.1 h
      exact (FoldsTo.binary op (ih left (.head _) hl)
        (ih right (.tail _ (.head _)) hr)).of_fold_eq_ok h
    | unary op operand pos =>
      obtain ⟨operand', ho, h⟩ := bind_eq_ok.1 h
      exact (FoldsTo.unary op (ih operand (.head _) ho)).of_fold_eq_ok h
    | cond c a b pos =>
      obtain ⟨c', hc, h⟩ := bind_eq_ok.1 h
      obtain ⟨a', ha, h⟩ := bind_eq_ok.1 h
      obtain ⟨b', hb, h⟩ := bind_eq_ok.1 h
      exact (FoldsTo.cond (ih c (.head _) hc) (ih a (.tail _ (.head _)) ha)
        (ih b (.tail _ (.tail _ (.head _))) hb)).of_fold_eq_ok h
    | call f args pos =>
      obtain ⟨args', hargs, h⟩ := bind_eq_ok.1 h
      exact (FoldsTo.call (foldsTo_items hargs ih) f).of_fold_eq_ok h
    | array items pos =>
      obtain ⟨items', hitems, h⟩ := bind_eq_ok.1 h
      exact (FoldsTo.array (foldsTo_items hitems ih)).of_fold_eq_ok h
    | map entries pos =>
      obtain ⟨entries', hentries, h⟩ := bind_eq_ok.1 h
      exact (foldsTo_entries hentries ih).map.of_fold_eq_ok h

/-- A node stops folding if one of its children does, or it is undefined itself. -/
theorem folded_eq_error_cases {e : Expr} {f : Failure} (h : e.folded = .error f) :
    (∃ c ∈ e.children, c.folded = .error f) ∨ f = .mathDomain ∧ e.IsUndefined := by
  cases e with
  | literal | entity => cases h
  | output target name pos =>
    obtain h | ⟨target', -, ⟨⟩⟩ := bind_eq_error.1 h
    exact .inl ⟨target, .head _, h⟩
  | index target i pos =>
    obtain h | ⟨target', -, h⟩ := bind_eq_error.1 h
    · exact .inl ⟨target, .head _, h⟩
    · obtain h | ⟨i', -, ⟨⟩⟩ := bind_eq_error.1 h
      exact .inl ⟨i, .tail _ (.head _), h⟩
  | binary op left right pos =>
    obtain h | ⟨left', hl, h⟩ := bind_eq_error.1 h
    · exact .inl ⟨left, .head _, h⟩
    · obtain h | ⟨right', hr, h⟩ := bind_eq_error.1 h
      · exact .inl ⟨right, .tail _ (.head _), h⟩
      · exact .inr <| (FoldsTo.binary op (foldsTo_of_folded_eq_ok hl)
          (foldsTo_of_folded_eq_ok hr)).of_fold_eq_error h
  | unary op operand pos =>
    obtain h | ⟨operand', ho, h⟩ := bind_eq_error.1 h
    · exact .inl ⟨operand, .head _, h⟩
    · exact .inr <| (FoldsTo.unary op (foldsTo_of_folded_eq_ok ho)).of_fold_eq_error h
  | cond c a b pos =>
    obtain h | ⟨c', hc, h⟩ := bind_eq_error.1 h
    · exact .inl ⟨c, .head _, h⟩
    · obtain h | ⟨a', ha, h⟩ := bind_eq_error.1 h
      · exact .inl ⟨a, .tail _ (.head _), h⟩
      · obtain h | ⟨b', hb, h⟩ := bind_eq_error.1 h
        · exact .inl ⟨b, .tail _ (.tail _ (.head _)), h⟩
        · exact .inr <| (FoldsTo.cond (foldsTo_of_folded_eq_ok hc) (foldsTo_of_folded_eq_ok ha)
            (foldsTo_of_folded_eq_ok hb)).of_fold_eq_error h
  | call g args pos =>
    obtain h | ⟨args', hargs, h⟩ := bind_eq_error.1 h
    · exact .inl (foldedItems_eq_error h)
    · have hall := foldsTo_items hargs fun c _ {_} hc => foldsTo_of_folded_eq_ok hc
      exact .inr ((FoldsTo.call hall g).of_fold_eq_error h)
  | array items pos =>
    obtain h | ⟨items', hitems, h⟩ := bind_eq_error.1 h
    · exact .inl (foldedItems_eq_error h)
    · have hall := foldsTo_items hitems fun c _ {_} hc => foldsTo_of_folded_eq_ok hc
      exact .inr ((FoldsTo.array hall).of_fold_eq_error h)
  | map entries pos =>
    obtain h | ⟨entries', hentries, h⟩ := bind_eq_error.1 h
    · exact .inl (foldedEntries_eq_error h)
    · have hall := foldsTo_entries hentries fun c _ {_} hc => foldsTo_of_folded_eq_ok hc
      exact .inr (hall.map.of_fold_eq_error h)

/-- **Folding stops only because of an undefined part.** -/
theorem of_folded_eq_error {e : Expr} {f : Failure} (h : e.folded = .error f) :
    f = .mathDomain ∧ ∃ p, e.Part p ∧ p.IsUndefined := by
  induction e using of_children with
  | h e ih =>
    obtain ⟨c, hc, h⟩ | ⟨rfl, hu⟩ := folded_eq_error_cases h
    · obtain ⟨rfl, p, hp, hu⟩ := ih c hc h
      exact ⟨rfl, p, part_iff.2 (.inr ⟨c, hc, hp⟩), hu⟩
    · exact ⟨rfl, e, .self, hu⟩

/-- **A tree with an undefined part can not be folded.** -/
theorem folded_eq_error_iff {e : Expr} :
    e.folded = .error .mathDomain ↔ ∃ p, e.Part p ∧ p.IsUndefined := by
  constructor
  · intro h
    exact (of_folded_eq_error h).2
  · rintro ⟨p, hp, hu⟩
    cases h : e.folded with
    | ok e' => exact absurd hu ((foldsTo_of_folded_eq_ok h).no_part p hp)
    | error f => rw [(of_folded_eq_error h).1]

end Expr

end ModelInputs
