import ModelInputs.Record.Arguments

/-!
# Items of a record

A record is a sequence of items, each a keyword followed by its arguments: a group, or a single
token.

* `closeGroup`: the tokens of a group and what follows its closing brace;
* `splitItems`, `splitRecord?`: the items of a token list.
-/

namespace ModelInputs.Record

/-- The tokens up to the closing brace of the group that is open, and those behind it, where
`depth` groups inside it are open. -/
def closeGroup : Nat → List String → List String × List String
  | _, [] => ([], [])
  | depth, token :: tokens =>
    if token = "\x7d" ∧ depth = 0 then ([], tokens)
    else
      let inner :=
        if token = "\x7b" then depth + 1 else if token = "\x7d" then depth - 1 else depth
      let (args, rest) := closeGroup inner tokens
      (token :: args, rest)

theorem length_closeGroup_le (depth : Nat) (tokens : List String) :
    (closeGroup depth tokens).2.length ≤ tokens.length := by
  induction tokens generalizing depth with
  | nil => simp [closeGroup]
  | cons token tokens ih =>
    unfold closeGroup
    split
    · simp
    · exact Nat.le_succ_of_le (ih _)

/-- The items of a token list. -/
def splitItems (origin : Option Origin) : List String → Except InputError (List Arguments)
  | [] => .ok []
  | keyword :: rest =>
    if isBrace keyword then .error ⟨.keywordExpected keyword, origin⟩
    else
      match rest with
      | [] => .error ⟨.valueMissing keyword, origin⟩
      | token :: tokens => do
        let group := if token = "\x7b" then closeGroup 0 tokens else ([token], tokens)
        let first ← Arguments.make? keyword group.1 origin
        let others ← splitItems origin group.2
        return first :: others
termination_by tokens => tokens.length
decreasing_by
  have := length_closeGroup_le 0 tokens
  simp only [List.length_cons]
  split
  · exact Nat.lt_of_le_of_lt this (by omega)
  · show tokens.length < _
    omega

/-- The items of a record, whose braces must match. -/
def splitRecord? (tokens : List String) (origin : Option Origin := none) :
    Except InputError (List Arguments) :=
  if isBalanced tokens then splitItems origin tokens
  else .error (.common .braces [formatTokens tokens])

end ModelInputs.Record
