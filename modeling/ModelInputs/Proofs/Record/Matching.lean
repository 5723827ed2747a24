import Mathlib.Combinatorics.Enumerative.DyckWord
import ModelInputs.Proofs.Record.Groups

/-!
# Matching braces

The braces of a token list are steps up and down. They match if the steps form a Dyck word, which is
what the count of open groups decides. The token lists whose braces match are those that trees are
written as, each of them by one list of trees only.

* `steps`, `Matched`: the braces of a token list, and that they form a Dyck word;
* `depthAfter?_eq_some_iff`, `isBalanced_iff`: the count of open groups decides it;
* `Matched.append_iff`, `matched_cons_iff`, `Matched.braced_iff`: parts of token lists;
* `group?_eq_some_iff`, `matched_iff_exists_flatten`: the token lists of trees;
* **`trees?_exact`**: tokens are read as trees if and only if their braces match, and reading and
  writing trees undo each other.
-/

namespace ModelInputs.Record

open DyckStep

/-! ## Dyck words -/

/-- The step that a token is: up if it opens a group, down if it closes one. -/
def step? (token : String) : Option DyckStep :=
  if token = "\x7b" then some U else if token = "\x7d" then some D else none

/-- The braces of a token list. -/
def steps (tokens : List String) : List DyckStep :=
  tokens.filterMap step?

/-- Every brace has its partner: the braces form a Dyck word. -/
def Matched (tokens : List String) : Prop :=
  ∃ word : DyckWord, word.toList = steps tokens

section

variable (tokens : List String)

@[simp]
theorem steps_open : steps ("\x7b" :: tokens) = U :: steps tokens :=
  rfl

@[simp]
theorem steps_close : steps ("\x7d" :: tokens) = D :: steps tokens :=
  rfl

theorem steps_word {token : String} (h : isBrace token = false) :
    steps (token :: tokens) = steps tokens := by
  obtain ⟨hopen, hclose⟩ := ne_of_not_isBrace h
  exact List.filterMap_cons_none (by rw [step?, if_neg hopen, if_neg hclose])

end

/-- A prefix of the steps is empty, or the first step with a prefix of the others. -/
theorem forall_take_cons_iff {step : DyckStep} {rest : List DyckStep} {depth : Nat} :
    (∀ i, ((step :: rest).take i).count D ≤ depth + ((step :: rest).take i).count U) ↔
      ∀ i, (step :: rest.take i).count D ≤ depth + (step :: rest.take i).count U := by
  refine ⟨fun h i => h (i + 1), fun h i => ?_⟩
  cases i with
  | zero => simp
  | succ i => exact h i

/-- The number of open groups is the height that the steps lead to, if they never lead below the
ground. -/
theorem depthAfter?_eq_some_iff {depth n : Nat} {tokens : List String} :
    depthAfter? depth tokens = some n ↔
      depth + (steps tokens).count U = n + (steps tokens).count D ∧
        ∀ i, ((steps tokens).take i).count D ≤ depth + ((steps tokens).take i).count U := by
  induction tokens generalizing depth with
  | nil => simp [steps]
  | cons token tokens ih =>
    obtain rfl | rfl | hword := brace_cases token
    · rw [depthAfter?_open, ih, steps_open, forall_take_cons_iff]
      refine and_congr (by simp; omega) (forall_congr' fun i => ?_)
      simp [Nat.add_assoc, Nat.add_comm 1]
    · rw [steps_close, forall_take_cons_iff]
      cases depth with
      | zero =>
        rw [depthAfter?_close_zero]
        exact ⟨nofun, fun h => absurd (h.2 0) (by simp)⟩
      | succ depth =>
        rw [depthAfter?_close, ih]
        refine and_congr (by simp; omega) (forall_congr' fun i => ?_)
        simp
        omega
    · rw [depthAfter?_word _ _ hword, steps_word _ hword, ih]

theorem matched_iff_depthAfter? {tokens : List String} :
    Matched tokens ↔ depthAfter? 0 tokens = some 0 := by
  rw [depthAfter?_eq_some_iff]
  simp only [Nat.zero_add]
  constructor
  · rintro ⟨word, hword⟩
    rw [← hword]
    exact ⟨word.count_U_eq_count_D, word.count_D_le_count_U⟩
  · rintro ⟨hcount, hprefix⟩
    exact ⟨⟨steps tokens, hcount, hprefix⟩, rfl⟩

/-- The count of open groups decides whether the braces match. -/
theorem isBalanced_iff {tokens : List String} : isBalanced tokens = true ↔ Matched tokens := by
  rw [isBalanced, beq_iff_eq, matched_iff_depthAfter?]

instance (tokens : List String) : Decidable (Matched tokens) :=
  decidable_of_iff _ isBalanced_iff

/-! ## Parts of token lists -/

theorem matched_nil : Matched [] :=
  ⟨0, rfl⟩

/-- Tokens with matching braces leave the groups around them open. -/
theorem Matched.depthAfter?_append {args : List String} (h : Matched args) (depth : Nat)
    (rest : List String) : depthAfter? depth (args ++ rest) = depthAfter? depth rest := by
  have hargs : depthAfter? depth args = some depth := by
    obtain ⟨word, hword⟩ := h
    rw [depthAfter?_eq_some_iff, ← hword]
    refine ⟨congrArg (depth + ·) word.count_U_eq_count_D, fun i => ?_⟩
    exact (word.count_D_le_count_U i).trans (Nat.le_add_left _ _)
  rw [Record.depthAfter?_append, hargs, Option.bind_some]

theorem Matched.append_iff {as bs : List String} (h : Matched as) :
    Matched (as ++ bs) ↔ Matched bs := by
  rw [matched_iff_depthAfter?, h.depthAfter?_append, ← matched_iff_depthAfter?]

theorem matched_cons_iff {token : String} (h : isBrace token = false) {tokens : List String} :
    Matched (token :: tokens) ↔ Matched tokens := by
  rw [matched_iff_depthAfter?, depthAfter?_word _ _ h, ← matched_iff_depthAfter?]

theorem Matched.braced_iff {args rest : List String} (h : Matched args) :
    Matched ("\x7b" :: args ++ "\x7d" :: rest) ↔ Matched rest := by
  rw [matched_iff_depthAfter?, List.cons_append, depthAfter?_open, h.depthAfter?_append,
    depthAfter?_close, ← matched_iff_depthAfter?]

/-! ## Trees -/

theorem noBraceLeaf_append (ts us : List Tree) :
    noBraceLeaf (ts ++ us) = (noBraceLeaf ts && noBraceLeaf us) := by
  induction ts with
  | nil => rfl
  | cons t ts ih => rw [List.cons_append, noBraceLeaf, noBraceLeaf, ih, Bool.and_assoc]

/-- No token that is read as a leaf is a brace. -/
theorem noBraceLeaf_of_groupFrom? {done : List Tree} {around : List (List Tree)}
    {tokens : List String} {trees : List Tree} (h : groupFrom? done around tokens = some trees)
    (hdone : noBraceLeaf done = true) (haround : ∀ outer ∈ around, noBraceLeaf outer = true) :
    noBraceLeaf trees = true := by
  induction tokens generalizing done around with
  | nil =>
    cases around with
    | nil =>
      cases h
      exact hdone
    | cons outer around => cases h
  | cons token tokens ih =>
    obtain rfl | rfl | hword := brace_cases token
    · rw [groupFrom?_open] at h
      exact ih h rfl (List.forall_mem_cons.2 ⟨hdone, haround⟩)
    · cases around with
      | nil => cases h
      | cons outer around =>
        obtain ⟨houter, haround⟩ := List.forall_mem_cons.1 haround
        rw [groupFrom?_close] at h
        refine ih h ?_ haround
        rw [noBraceLeaf_append, houter]
        simp [noBraceLeaf, Tree.noBraceLeaf, hdone]
    · rw [groupFrom?_word _ _ _ hword] at h
      refine ih h ?_ haround
      rw [noBraceLeaf_append, hdone]
      simp [noBraceLeaf, Tree.noBraceLeaf, hword]

/-- Tokens are read as the trees that are written as them. -/
theorem group?_eq_some_iff {tokens : List String} {trees : List Tree} :
    group? tokens = some trees ↔ noBraceLeaf trees = true ∧ flatten trees = tokens := by
  constructor
  · intro h
    exact ⟨noBraceLeaf_of_groupFrom? h rfl (List.forall_mem_nil _), flatten_groupFrom? h⟩
  · rintro ⟨hleaf, rfl⟩
    exact group?_flatten hleaf

/-- The token lists of trees are those whose braces match. -/
theorem matched_iff_exists_flatten {tokens : List String} :
    Matched tokens ↔ ∃ trees, noBraceLeaf trees = true ∧ flatten trees = tokens := by
  rw [← isBalanced_iff]
  constructor
  · intro h
    obtain ⟨trees, hread, -⟩ := flatten_group? h
    exact ⟨trees, group?_eq_some_iff.1 hread⟩
  · rintro ⟨trees, hleaf, rfl⟩
    exact isBalanced_flatten hleaf

theorem group?_eq_none_iff {tokens : List String} : group? tokens = none ↔ ¬ Matched tokens := by
  rw [matched_iff_exists_flatten, Option.eq_none_iff_forall_not_mem, not_exists]
  exact forall_congr' fun trees => not_congr group?_eq_some_iff

theorem trees?_eq_ok_iff {tokens : List String} {trees : List Tree} :
    trees? tokens = .ok trees ↔ group? tokens = some trees := by
  unfold trees?
  cases group? tokens with
  | none => exact ⟨nofun, nofun⟩
  | some trees' => simp

/-- **Tokens are read as trees if and only if their braces form a Dyck word, and else they are
refused as they stand.** The trees that are read are those that are written as the tokens: what is
read is written back token by token, and trees without lone braces are read back as they are. -/
theorem trees?_exact (tokens : List String) :
    ((∃ trees, trees? tokens = .ok trees) ↔ Matched tokens) ∧
      (∀ e, trees? tokens = .error e ↔
        ¬ Matched tokens ∧ e = .common .braces [formatTokens tokens]) ∧
      ∀ trees, trees? tokens = .ok trees ↔ noBraceLeaf trees = true ∧ flatten trees = tokens := by
  refine ⟨?_, fun e => ?_, fun trees => ?_⟩
  · rw [matched_iff_exists_flatten]
    exact exists_congr fun trees => trees?_eq_ok_iff.trans group?_eq_some_iff
  · rw [← group?_eq_none_iff]
    unfold trees?
    cases group? tokens with
    | none => simp [eq_comm]
    | some trees => exact ⟨nofun, fun h => nomatch h.1⟩
  · exact trees?_eq_ok_iff.trans group?_eq_some_iff

/-- Groups may be empty and stand side by side. -/
example : trees? ["a", "\x7b", "\x7d", "\x7b", "b", "\x7d"] =
    .ok [.leaf "a", .group [], .group [.leaf "b"]] := by rfl

end ModelInputs.Record
