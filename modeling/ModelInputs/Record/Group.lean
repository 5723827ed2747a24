import ModelInputs.Error.Input
import ModelInputs.Record.Token

/-!
# Brace groups

Tokens between matching braces form a group, and groups nest. `group?` builds the tree of groups
of a token list and `flatten` writes a tree back as tokens.

* `depthAfter`, `isBalanced`: whether every brace has its partner;
* `Tree`, `group?`, `flatten`;
* `trees?`: the trees of tokens, or the error of braces that do not match;
* **`isBalanced_flatten`**: what a tree writes is balanced.
-/

namespace ModelInputs.Record

/-! ## Balance -/

/-- The number of open groups after the tokens, if no closing brace comes too early. -/
def depthAfter? : Nat → List String → Option Nat
  | depth, [] => some depth
  | depth, token :: tokens =>
    if token = "\x7b" then depthAfter? (depth + 1) tokens
    else if token = "\x7d" then
      match depth with
      | 0 => none
      | depth + 1 => depthAfter? depth tokens
    else depthAfter? depth tokens

/-- Every opening brace has its closing brace. -/
def isBalanced (tokens : List String) : Bool :=
  depthAfter? 0 tokens == some 0

/-- A token opens a group, closes one, or is no brace. -/
theorem brace_cases (token : String) :
    token = "\x7b" ∨ token = "\x7d" ∨ isBrace token = false := by
  rw [isBrace, Bool.or_eq_false_iff, beq_eq_false_iff_ne, beq_eq_false_iff_ne]
  by_cases hopen : token = "\x7b"
  · exact .inl hopen
  by_cases hclose : token = "\x7d"
  · exact .inr (.inl hclose)
  · exact .inr (.inr ⟨hopen, hclose⟩)

theorem ne_of_not_isBrace {token : String} (h : isBrace token = false) :
    token ≠ "\x7b" ∧ token ≠ "\x7d" := by
  rwa [isBrace, Bool.or_eq_false_iff, beq_eq_false_iff_ne, beq_eq_false_iff_ne] at h

section

variable (depth : Nat) (tokens : List String)

@[simp]
theorem depthAfter?_nil : depthAfter? depth [] = some depth :=
  rfl

@[simp]
theorem depthAfter?_open :
    depthAfter? depth ("\x7b" :: tokens) = depthAfter? (depth + 1) tokens := by
  rw [depthAfter?.eq_def]
  exact if_pos rfl

@[simp]
theorem depthAfter?_close :
    depthAfter? (depth + 1) ("\x7d" :: tokens) = depthAfter? depth tokens := by
  rw [depthAfter?.eq_def]
  exact (if_neg (by decide)).trans (if_pos rfl)

@[simp]
theorem depthAfter?_close_zero : depthAfter? 0 ("\x7d" :: tokens) = none := by
  rw [depthAfter?.eq_def]
  exact (if_neg (by decide)).trans (if_pos rfl)

theorem depthAfter?_word {token : String} (h : isBrace token = false) :
    depthAfter? depth (token :: tokens) = depthAfter? depth tokens := by
  obtain ⟨hopen, hclose⟩ := ne_of_not_isBrace h
  rw [depthAfter?.eq_def]
  exact (if_neg hopen).trans (if_neg hclose)

end

theorem depthAfter?_append (depth : Nat) (as bs : List String) :
    depthAfter? depth (as ++ bs) = (depthAfter? depth as).bind fun d => depthAfter? d bs := by
  induction as generalizing depth with
  | nil => rfl
  | cons token as ih =>
    simp only [List.cons_append, depthAfter?]
    split
    · exact ih _
    · split
      · cases depth with
        | zero => rfl
        | succ d => exact ih d
      · exact ih _

/-! ## Trees -/

/-- A token, or the tokens and groups between two braces. -/
inductive Tree where
  | leaf (token : String)
  | group (items : List Tree)

mutual

/-- The tokens of a tree. -/
def Tree.flatten : Tree → List String
  | .leaf token => [token]
  | .group items => "\x7b" :: flatten items ++ ["\x7d"]

/-- The tokens of some trees. -/
def flatten : List Tree → List String
  | [] => []
  | tree :: trees => tree.flatten ++ flatten trees

end

/-- The trees of the tokens, read behind the trees `done` of the group that is open and with the
trees of the groups around it. -/
def groupFrom? (done : List Tree) (around : List (List Tree)) : List String → Option (List Tree)
  | [] => if around.isEmpty then some done else none
  | token :: tokens =>
    if token = "\x7b" then groupFrom? [] (done :: around) tokens
    else if token = "\x7d" then
      match around with
      | [] => none
      | outer :: around => groupFrom? (outer ++ [.group done]) around tokens
    else groupFrom? (done ++ [.leaf token]) around tokens

/-- The trees of a token list whose braces match. -/
def group? (tokens : List String) : Option (List Tree) :=
  groupFrom? [] [] tokens

/-- The trees of a token list, whose braces must match. -/
def trees? (tokens : List String) : Except InputError (List Tree) :=
  match group? tokens with
  | some trees => .ok trees
  | none => .error (.common .braces [formatTokens tokens])

mutual

/-- No leaf of the tree is a lone brace. -/
def Tree.noBraceLeaf : Tree → Bool
  | .leaf token => !isBrace token
  | .group items => noBraceLeaf items

/-- No leaf of the trees is a lone brace. -/
def noBraceLeaf : List Tree → Bool
  | [] => true
  | tree :: trees => tree.noBraceLeaf && noBraceLeaf trees

end

mutual

theorem Tree.depthAfter?_flatten (depth : Nat) :
    ∀ t : Tree, t.noBraceLeaf = true → depthAfter? depth t.flatten = some depth
  | .leaf token, h => by
    simp only [Tree.noBraceLeaf, isBrace, Bool.not_eq_true', Bool.or_eq_false_iff,
      beq_eq_false_iff_ne, ne_eq] at h
    simp [Tree.flatten, depthAfter?, h.1, h.2]
  | .group items, h => by
    have := ModelInputs.Record.depthAfter?_flatten (depth + 1) items h
    simp [Tree.flatten, depthAfter?, depthAfter?_append, this]

theorem depthAfter?_flatten (depth : Nat) :
    ∀ ts : List Tree, noBraceLeaf ts = true → depthAfter? depth (flatten ts) = some depth
  | [], _ => rfl
  | t :: ts, h => by
    simp only [noBraceLeaf, Bool.and_eq_true] at h
    simp [flatten, depthAfter?_append, t.depthAfter?_flatten depth h.1,
      depthAfter?_flatten depth ts h.2]

end

/-- **Trees are written with matching braces.** -/
theorem isBalanced_flatten {ts : List Tree} (h : noBraceLeaf ts = true) :
    isBalanced (flatten ts) = true := by
  simp [isBalanced, depthAfter?_flatten 0 ts h]

end ModelInputs.Record
