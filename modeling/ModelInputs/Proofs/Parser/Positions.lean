import ModelInputs.Proofs.Parser.Readers
import ModelInputs.Proofs.Unit.Inference

/-!
# Positions in a text

Every token of a text starts within the text or at its end, and so does everything that is made of
tokens: the nodes of the tree that is read, and the errors of reading it. No position is made up: a
reader takes it from a token, and a folded node keeps its own.

* `Failure.Within`, `StaysWithin`: an error without a text, at a position up to a bound;
* `Expr.Within`: all nodes are at positions up to a bound;
* **`Token.tokensFrom_within`**: the tokens of a text;
* **`exprFrom_within`** and its like: the readers;
* **`ofTokens?_within`**: the tree of some tokens.
-/

namespace ModelInputs

/-! ## Bounded positions -/

/-- An error of an expression has no text yet and is at a position up to `n`. -/
def Failure.Within (n : Nat) : Failure → Prop
  | .expression error => error.source = none ∧ error.pos ≤ n
  | _ => True

/-- A result has the property, and an error of an expression is at a position up to `n`. -/
def StaysWithin {α : Type} (n : Nat) (P : α → Prop) : Except Failure α → Prop
  | .ok a => P a
  | .error f => f.Within n

section StaysWithin

variable {α β : Type} {n : Nat} {P : α → Prop} {Q : β → Prop}

theorem StaysWithin.mono {P' : α → Prop} {x : Except Failure α} (h : StaysWithin n P x)
    (hp : ∀ a, P a → P' a) : StaysWithin n P' x := by
  cases x with
  | error f => exact h
  | ok a => exact hp a h

theorem StaysWithin.bind {x : Except Failure α} {k : α → Except Failure β}
    (h : StaysWithin n P x) (hk : ∀ a, x = .ok a → P a → StaysWithin n Q (k a)) :
    StaysWithin n Q (x >>= k) := by
  cases x with
  | error f => exact h
  | ok a => exact hk a rfl h

theorem staysWithin_failAt {pos : Nat} {fault : ExprFault} (h : pos ≤ n) :
    StaysWithin n P (failAt pos fault) :=
  ⟨rfl, h⟩

end StaysWithin

namespace Expr

/-- All nodes are at positions up to `n`. -/
inductive Within (n : Nat) : Expr → Prop where
  | node {e : Expr} (hpos : e.pos ≤ n) (hc : ∀ c ∈ e.children, Within n c) : Within n e

variable {n : Nat}

theorem Within.pos_le {e : Expr} (h : e.Within n) : e.pos ≤ n := by
  cases h with
  | node hpos _ => exact hpos

theorem Within.children {e c : Expr} (h : e.Within n) (hc : c ∈ e.children) : c.Within n := by
  cases h with
  | node _ h => exact h c hc

theorem Within.literal {value : Result} {pos : Nat} (h : pos ≤ n) :
    (literal value pos).Within n :=
  .node h nofun

theorem Within.entity {name : Option String} {pos : Nat} (h : pos ≤ n) :
    (entity name pos).Within n :=
  .node h nofun

/-- A folded node keeps its position. -/
theorem Within.fold {e : Expr} (h : e.Within n) (wanted : Bool) :
    StaysWithin n (Within n) (e.fold wanted) := by
  unfold Expr.fold
  split
  · split
    · exact .literal h.pos_le
    · exact h
    · next f hf _ =>
      cases f with
      | expression error => exact absurd rfl (hf error)
      | _ => trivial
  · exact h

end Expr

/-! ## Tokens -/

namespace Token

/-- All tokens are at positions up to `n`. -/
abbrev AllWithin (n : Nat) (tokens : List Token) : Prop :=
  ∀ t ∈ tokens, t.pos ≤ n

theorem AllWithin.cons {n : Nat} {t : Token} {tokens : List Token} (ht : t.pos ≤ n)
    (h : AllWithin n tokens) : AllWithin n (t :: tokens) :=
  List.forall_mem_cons.2 ⟨ht, h⟩

theorem AllWithin.head {n : Nat} {t : Token} {tokens : List Token}
    (h : AllWithin n (t :: tokens)) : t.pos ≤ n :=
  h t List.mem_cons_self

theorem AllWithin.tail {n : Nat} {t : Token} {tokens : List Token}
    (h : AllWithin n (t :: tokens)) : AllWithin n tokens :=
  fun u hu => h u (List.mem_cons_of_mem t hu)

open Text

/-- A separator and what stands before and after it make up the text. -/
theorem length_add_of_cut? {sep : Char} {cs before after : List Char}
    (h : cut? sep cs = some (before, after)) : before.length + after.length + 1 = cs.length := by
  induction cs generalizing before with
  | nil => cases h
  | cons c cs ih =>
    unfold cut? at h
    split at h
    · cases h
      simp only [List.length_nil, List.length_cons]
      omega
    · obtain ⟨p, hp, he⟩ := Option.map_eq_some_iff.1 h
      obtain ⟨rfl, rfl⟩ := Prod.mk.injEq .. ▸ he
      have := ih hp
      simp only [List.length_cons]
      omega

/-- An exponent without digits is noticed within the text. -/
theorem offset_le_of_numberExtent {cs : List Char} {offset : Nat}
    (h : numberExtent cs = .error offset) : offset ≤ cs.length := by
  have hd := congrArg List.length (append_decimalExtent cs)
  unfold numberExtent at h
  generalize decimalExtent cs = d at h hd
  obtain ⟨decimal, behind⟩ := d
  rw [List.length_append] at hd
  cases behind with
  | nil => cases h
  | cons e behind =>
    simp only at h
    split at h
    · split at h
      · cases h
        dsimp only at hd
        omega
      · cases h
    · cases h

theorem length_of_longSymbol?_eq {cs rest : List Char} {s : String}
    (h : longSymbol? cs = some (s, rest)) : rest.length + 2 = cs.length := by
  unfold longSymbol? at h
  split at h
  · obtain ⟨-, h⟩ := Option.ite_none_right_eq_some.1 h
    cases h
    rfl
  · cases h

theorem fail_within {α : Type} {P : α → Prop} {n pos : Nat} {fault : ExprFault} (h : pos ≤ n) :
    StaysWithin n P ((fail pos fault).mapError Failure.expression) :=
  ⟨rfl, h⟩

theorem cons_within {n : Nat} {t : Token} {x : Except ExprError (List Token)} (ht : t.pos ≤ n)
    (h : StaysWithin n (AllWithin n) (x.mapError Failure.expression)) :
    StaysWithin n (AllWithin n)
      ((do return t :: (← x) : Except ExprError (List Token)).mapError Failure.expression) := by
  cases x with
  | error f => exact h
  | ok tokens => exact h.cons ht

/-- **The tokens of a text are within the text or at its end, and so is an error.** -/
theorem tokensFrom_within {n : Nat} (pos : Nat) (cs : List Char) (hn : pos + cs.length ≤ n) :
    StaysWithin n (AllWithin n) ((tokensFrom pos cs).mapError Failure.expression) := by
  have split (p : Char → Bool) (cs : List Char) :
      (cs.takeWhile p).length + (cs.dropWhile p).length = cs.length := by
    rw [← List.length_append, List.takeWhile_append_dropWhile]
  fun_induction tokensFrom pos cs with
  | case1 => exact AllWithin.cons hn nofun
  | case2 =>
    rename_i ih
    rw [List.length_cons] at hn
    exact ih (by omega)
  | case3 | case8 | case11 | case15 =>
    refine fail_within ?_
    omega
  | case4 =>
    rename_i hcut _ ih
    have := length_add_of_cut? hcut
    rw [List.length_cons] at hn
    exact ih (by omega)
  | case5 =>
    rename_i he
    have := offset_le_of_numberExtent he
    exact fail_within (by omega)
  | case6 =>
    rename_i he ih
    have := congrArg List.length (append_numberExtent he)
    rw [List.length_append] at this
    exact cons_within (by dsimp only; omega) (ih (by omega))
  | case7 =>
    rename_i cs _ _ _ _ read ih
    have := split isWordChar cs
    have hread : read.length = (cs.takeWhile isWordChar).length + 1 := rfl
    rw [List.length_cons] at hn
    exact cons_within (by dsimp only; omega) (ih (by omega))
  | case9 =>
    rename_i cs inside _ _ _ _ _ hrest
    have := split (fun d => d != ']' && d != '[') cs
    rw [hrest] at this
    rw [List.length_cons] at hn this
    have hinside : inside.length = (cs.takeWhile fun d => d != ']' && d != '[').length := rfl
    exact fail_within (by omega)
  | case10 =>
    rename_i cs inside _ _ hrest _ _ _ _ _ ih
    have := split (fun d => d != ']' && d != '[') cs
    rw [hrest] at this
    rw [List.length_cons] at hn this
    have hinside : inside.length = (cs.takeWhile fun d => d != ']' && d != '[').length := rfl
    exact cons_within (by dsimp only; omega) (ih (by omega))
  | case12 =>
    rename_i hcut _ _ _ _ _ ih
    have := length_add_of_cut? hcut
    rw [List.length_cons] at hn
    exact cons_within (by dsimp only; omega) (ih (by omega))
  | case13 =>
    rename_i hlong ih
    have := length_of_longSymbol?_eq hlong
    exact cons_within (by dsimp only; omega) (ih (by omega))
  | case14 =>
    rename_i ih
    rw [List.length_cons] at hn
    exact cons_within (by dsimp only; omega) (ih (by omega))

end Token

namespace Parser

open Token (AllWithin)

/-! ## Readers -/

/-- What is read has the property, and the tokens that are left are at positions up to `n`. -/
def Kept {α : Type} (n : Nat) (P : α → Prop) : α × List Token → Prop
  | (a, rest) => P a ∧ AllWithin n rest

section

variable {n : Nat} {fold : Bool}

theorem behind_within {s : String} {tokens : List Token} (h : AllWithin n tokens) :
    StaysWithin n (AllWithin n) (behind s tokens) := by
  cases tokens with
  | nil => exact staysWithin_failAt (Nat.zero_le n)
  | cons t rest =>
    rw [behind_cons]
    split
    · exact h.tail
    split
    · exact staysWithin_failAt h.head
    · exact staysWithin_failAt h.head

theorem checkArity_within {f : Function} {given pos : Nat} (h : pos ≤ n) :
    StaysWithin n (fun _ => True) (checkArity f given pos) := by
  unfold checkArity
  split
  · exact staysWithin_failAt h
  split
  · split
    · exact staysWithin_failAt h
    · trivial
  · trivial

theorem numberFrom_within {t : Token} {rest : List Token} (h : AllWithin n (t :: rest)) :
    StaysWithin n (Kept n (Expr.Within n)) (numberFrom t rest) := by
  rw [numberFrom_eq]
  cases Number.readFloat? t.value with
  | none => trivial
  | some x =>
    cases rest with
    | nil => exact ⟨.literal h.head, h.tail⟩
    | cons u rest =>
      simp only
      split
      · cases PhysicalUnit.find? u.value with
        | none => exact staysWithin_failAt h.tail.head
        | some unit => exact ⟨.literal h.head, h.tail.tail⟩
      · exact ⟨.literal h.head, h.tail⟩

/-- A node that is folded behind the tokens of its children. -/
theorem fold_within {e : Expr} {rest : List Token} (he : e.Within n) (h : AllWithin n rest) :
    StaysWithin n (Kept n (Expr.Within n))
      (do return (← e.fold fold, rest) : Except Failure (Expr × List Token)) := by
  refine (he.fold fold).bind ?_
  intro e' _ he'
  exact ⟨he', h⟩

end

variable {n : Nat} {fold : Bool}

mutual

/-- **The nodes of an expression are where its tokens are, and so is an error of reading it.** -/
theorem exprFrom_within (least : Nat) {tokens : List Token} (h : AllWithin n tokens) :
    StaysWithin n (Kept n (Expr.Within n)) (exprFrom fold least tokens) := by
  rw [exprFrom_eq]
  refine (operandFrom_within h).bind ?_
  rintro ⟨left, rest⟩ hread ⟨hleft, hrest⟩
  have := length_operandFrom hread
  exact operatorsFrom_within least hleft hrest
termination_by (tokens.length, 2)

theorem operatorsFrom_within (least : Nat) {left : Expr} (hleft : left.Within n) :
    ∀ {tokens : List Token}, AllWithin n tokens →
      StaysWithin n (Kept n (Expr.Within n)) (operatorsFrom fold least left tokens)
  | [], h => by
    rw [operatorsFrom_nil]
    exact ⟨hleft, h⟩
  | t :: rest, h => by
    rw [operatorsFrom_cons]
    split
    · exact ⟨hleft, h⟩
    split
    · split
      · exact ⟨hleft, h⟩
      · refine (exprFrom_within 0 h.tail).bind ?_
        rintro ⟨a, rest₁⟩ h₁ ⟨ha, hrest₁⟩
        have := length_exprFrom h₁
        refine (behind_within hrest₁).bind ?_
        intro rest₂ h₂ hrest₂
        have := length_behind h₂
        refine (exprFrom_within 0 hrest₂).bind ?_
        rintro ⟨b, rest₃⟩ - ⟨hb, hrest₃⟩
        refine fold_within (.node h.head ?_) hrest₃
        exact List.forall_mem_cons.2 ⟨hleft, List.forall_mem_cons.2 ⟨ha,
          List.forall_mem_singleton.2 hb⟩⟩
    · cases BinaryOp.ofSymbol? t.value with
      | none => exact ⟨hleft, h⟩
      | some op =>
        simp only
        split
        · exact ⟨hleft, h⟩
        · refine (exprFrom_within op.rightStrength h.tail).bind ?_
          rintro ⟨right, rest₁⟩ h₁ ⟨hright, hrest₁⟩
          have := length_exprFrom h₁
          have hnode : (Expr.binary op left right t.pos).Within n :=
            .node h.head (List.forall_mem_cons.2 ⟨hleft, List.forall_mem_singleton.2 hright⟩)
          refine (hnode.fold fold).bind ?_
          intro e _ he
          exact operatorsFrom_within least he hrest₁
termination_by tokens => (tokens.length, 0)

theorem operandFrom_within {tokens : List Token} (h : AllWithin n tokens) :
    StaysWithin n (Kept n (Expr.Within n)) (operandFrom fold tokens) := by
  cases tokens with
  | nil =>
    rw [operandFrom_nil]
    exact staysWithin_failAt (Nat.zero_le n)
  | cons t rest =>
    rw [operandFrom_cons]
    cases t.kind with
    | number => exact numberFrom_within h
    | text => exact ⟨.literal h.head, h.tail⟩
    | square =>
      simp only
      split
      · exact staysWithin_failAt h.head
      · exact chainFrom_within (.entity h.head) h.tail
    | word =>
      simp only
      split
      · exact chainFrom_within (.entity h.head) h.tail
      split
      · exact ⟨.literal h.head, h.tail⟩
      · cases Function.ofName? t.value with
        | none => exact staysWithin_failAt h.head
        | some f =>
          refine (argsFrom_within h.tail).bind ?_
          rintro ⟨args, rest'⟩ - ⟨hargs, hrest'⟩
          refine (checkArity_within h.head).bind ?_
          rintro - - -
          exact fold_within (.node h.head hargs) hrest'
    | symbol =>
      simp only
      split
      · refine (exprFrom_within 0 h.tail).bind ?_
        rintro ⟨e, rest₁⟩ - ⟨he, hrest₁⟩
        refine (behind_within hrest₁).bind ?_
        intro rest₂ _ hrest₂
        exact ⟨he, hrest₂⟩
      · cases UnaryOp.ofSymbol? t.value with
        | some op =>
          refine (exprFrom_within UnaryOp.strength h.tail).bind ?_
          rintro ⟨operand, rest'⟩ - ⟨hoperand, hrest'⟩
          exact fold_within (.node h.head (List.forall_mem_singleton.2 hoperand)) hrest'
        | none =>
          simp only
          split
          · exact collectionFrom_within h.head h.tail
          · exact staysWithin_failAt h.head
    | finish => exact staysWithin_failAt h.head
termination_by (tokens.length, 1)

theorem chainFrom_within {target : Expr} (htarget : target.Within n) :
    ∀ {tokens : List Token}, AllWithin n tokens →
      StaysWithin n (Kept n (Expr.Within n)) (chainFrom fold target tokens)
  | [], h => by
    rw [chainFrom_nil]
    exact ⟨htarget, h⟩
  | t :: rest, h => by
    rw [chainFrom_cons]
    split
    · cases rest with
      | nil => exact staysWithin_failAt (Nat.zero_le n)
      | cons name rest =>
        simp only
        split
        · have hnode : (Expr.output target name.value name.pos).Within n :=
            .node h.tail.head (List.forall_mem_singleton.2 htarget)
          exact chainFrom_within hnode h.tail.tail
        · exact staysWithin_failAt h.tail.head
    split
    · refine (exprFrom_within 0 h.tail).bind ?_
      rintro ⟨i, rest₁⟩ h₁ ⟨hi, hrest₁⟩
      have := length_exprFrom h₁
      refine (behind_within hrest₁).bind ?_
      intro rest₂ h₂ hrest₂
      have := length_behind h₂
      have hnode : (Expr.index target i t.pos).Within n :=
        .node h.head (List.forall_mem_cons.2 ⟨htarget, List.forall_mem_singleton.2 hi⟩)
      exact chainFrom_within hnode hrest₂
    · exact ⟨htarget, h⟩
termination_by tokens => (tokens.length, 0)

theorem argsFrom_within {tokens : List Token} (h : AllWithin n tokens) :
    StaysWithin n (Kept n fun args => ∀ e ∈ args, e.Within n) (argsFrom fold tokens) := by
  rw [argsFrom_eq]
  refine (behind_within h).bind ?_
  intro rest hread hrest
  have := length_behind hread
  split
  · refine (behind_within hrest).bind ?_
    intro rest' _ hrest'
    exact ⟨nofun, hrest'⟩
  · refine (itemsFrom_within hrest).bind ?_
    rintro ⟨args, rest₁⟩ - ⟨hargs, hrest₁⟩
    refine (behind_within hrest₁).bind ?_
    intro rest₂ _ hrest₂
    exact ⟨hargs, hrest₂⟩
termination_by (tokens.length, 0)

theorem collectionFrom_within {pos : Nat} (hpos : pos ≤ n) :
    ∀ {tokens : List Token}, AllWithin n tokens →
      StaysWithin n (Kept n (Expr.Within n)) (collectionFrom fold pos tokens)
  | [], _ => by
    rw [collectionFrom_nil]
    exact staysWithin_failAt (Nat.zero_le n)
  | t :: rest, h => by
    rw [collectionFrom_cons]
    split
    · exact ⟨.literal hpos, h.tail⟩
    split
    · refine (entriesFrom_within [] h).bind ?_
      rintro ⟨entries, rest₁⟩ - ⟨hentries, hrest₁⟩
      refine (behind_within hrest₁).bind ?_
      intro rest₂ _ hrest₂
      exact fold_within (.node hpos hentries) hrest₂
    · refine (itemsFrom_within h).bind ?_
      rintro ⟨items, rest₁⟩ - ⟨hitems, hrest₁⟩
      refine (behind_within hrest₁).bind ?_
      intro rest₂ _ hrest₂
      exact fold_within (.node hpos hitems) hrest₂
termination_by tokens => (tokens.length, 4)

theorem itemsFrom_within {tokens : List Token} (h : AllWithin n tokens) :
    StaysWithin n (Kept n fun items => ∀ e ∈ items, e.Within n) (itemsFrom fold tokens) := by
  rw [itemsFrom_eq]
  refine (exprFrom_within 0 h).bind ?_
  rintro ⟨item, rest⟩ hread ⟨hitem, hrest⟩
  have := length_exprFrom hread
  cases rest with
  | nil => exact ⟨List.forall_mem_singleton.2 hitem, hrest⟩
  | cons t rest =>
    simp only
    split
    · have : rest.length < tokens.length := by
        simp only [List.length_cons] at this
        omega
      refine (itemsFrom_within hrest.tail).bind ?_
      rintro ⟨items, rest'⟩ - ⟨hitems, hrest'⟩
      exact ⟨List.forall_mem_cons.2 ⟨hitem, hitems⟩, hrest'⟩
    · exact ⟨List.forall_mem_singleton.2 hitem, hrest⟩
termination_by (tokens.length, 3)

theorem entriesFrom_within (seen : List String) :
    ∀ {tokens : List Token}, AllWithin n tokens →
      StaysWithin n
        (Kept n fun entries : List (String × Expr) => ∀ e ∈ entries.map (·.2), e.Within n)
        (entriesFrom fold seen tokens)
  | [], _ => by
    rw [entriesFrom_nil]
    exact staysWithin_failAt (Nat.zero_le n)
  | key :: rest, h => by
    rw [entriesFrom_cons]
    split
    · exact staysWithin_failAt h.head
    split
    · exact staysWithin_failAt h.head
    · refine (behind_within h.tail).bind ?_
      intro rest₁ h₁ hrest₁
      have := length_behind h₁
      refine (exprFrom_within 0 hrest₁).bind ?_
      rintro ⟨value, rest₂⟩ h₂ ⟨hvalue, hrest₂⟩
      have := length_exprFrom h₂
      cases rest₂ with
      | nil => exact ⟨List.forall_mem_singleton.2 hvalue, hrest₂⟩
      | cons t rest₃ =>
        simp only
        split
        · have : rest₃.length < rest.length := by
            simp only [List.length_cons] at this
            omega
          refine (entriesFrom_within (key.value :: seen) hrest₂.tail).bind ?_
          rintro ⟨entries, rest₄⟩ - ⟨hentries, hrest₄⟩
          exact ⟨List.forall_mem_cons.2 ⟨hvalue, hentries⟩, hrest₄⟩
        · exact ⟨List.forall_mem_singleton.2 hvalue, hrest₂⟩
termination_by tokens => (tokens.length, 0)

end

/-- **The nodes of the tree of some tokens are where the tokens are, and so is an error.** -/
theorem ofTokens?_within {tokens : List Token} (h : AllWithin n tokens) :
    StaysWithin n (Expr.Within n) (Expr.ofTokens? fold tokens) := by
  rw [ofTokens?_eq]
  refine (exprFrom_within 0 h).bind ?_
  rintro ⟨e, rest⟩ - ⟨he, hrest⟩
  cases rest with
  | nil => exact he
  | cons t rest =>
    simp only
    split
    · exact he
    · exact staysWithin_failAt hrest.head

end Parser

end ModelInputs
