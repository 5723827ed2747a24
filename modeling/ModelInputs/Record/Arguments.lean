import ModelInputs.Error.Failure
import ModelInputs.Record.Group

/-!
# Arguments of a keyword

The tokens given to one keyword, with matching braces, and where they came from.

* `Arguments`, `Arguments.make?`: the braces of every argument list match;
* `Arguments.slice?`, `Arguments.get?`: positions may be counted from the end;
* `Arguments.subArguments?`: one argument list for each top-level group;
* `Arguments.Asked`, `Arguments.Asked.groups?`: groups that are kept once they have been found;
* `checkCount`, `checkCountRange`, `checkElements` and others: how many values are accepted.
-/

namespace ModelInputs

open Record

/-- The tokens given to a keyword. -/
structure Arguments where
  keyword : String
  args : List String
  origin : Option Origin := none
  balanced : isBalanced args = true

namespace Arguments

/-- The arguments, unless their braces do not match. -/
def make? (keyword : String) (args : List String) (origin : Option Origin := none) :
    Except InputError Arguments :=
  if h : isBalanced args = true then .ok ⟨keyword, args, origin, h⟩
  else .error (.common .braces [formatTokens args])

/-- The number of tokens. -/
def count (a : Arguments) : Nat :=
  a.args.length

/-- The arguments as they stand in a record. -/
def text (a : Arguments) : String :=
  formatTokens a.args

/-- The keyword and the tokens, shown with quotes. -/
def describe (a : Arguments) : String :=
  "KeywordIndex(" ++ Text.literal a.keyword ++ ", "
    ++ Text.literalList (a.args.map Text.literal) ++ ")"

/-- The place of a position that may be counted from the end, kept within the list. -/
def place (size : Nat) (i : Int) : Nat :=
  min size (if i < 0 then i + size else i).toNat

/-- The tokens from one position up to another. -/
def slice? (a : Arguments) (start : Int) (stop : Option Int := none) :
    Except InputError Arguments :=
  let first := place a.count start
  let last := match stop with | some i => place a.count i | none => a.count
  make? a.keyword ((a.args.take last).drop first) a.origin

/-- The token at a position. -/
def get? (a : Arguments) (i : Int) : Option String :=
  let j := if i < 0 then i + a.count else i
  if 0 ≤ j then a.args[j.toNat]? else none

/-- One argument list for each tree, which must be a group. -/
def ofTrees? (a : Arguments) : List Tree → Except InputError (List Arguments)
  | [] => .ok []
  | .leaf _ :: _ => .error ⟨.bracesExpected a.text, a.origin⟩
  | .group items :: trees => do
    let first ← make? a.keyword (flatten items) a.origin
    let others ← a.ofTrees? trees
    return first :: others

/-- The argument lists of the top-level groups. Without braces all tokens form one group, unless
there are none; with braces no token may stand outside them. -/
def subArguments? (a : Arguments) : Except InputError (List Arguments) :=
  if a.args.contains "\x7b" then a.ofTrees? ((group? a.args).getD [])
  else if a.args.isEmpty then .ok []
  else .ok [a]

/-- An argument list that keeps its groups once they have been found. -/
structure Asked where
  arguments : Arguments
  found : Option (List Arguments) := none

/-- The groups, looked for only if they have not been found yet, and what is kept of them. -/
def Asked.groups? (k : Asked) : Except InputError (List Arguments) × Asked :=
  match k.found with
  | some groups => (.ok groups, k)
  | none =>
    match k.arguments.subArguments? with
    | .ok groups => (.ok groups, { k with found := some groups })
    | .error error => (.error error, k)

/-! ## Numbers of values -/

/-- Numbers as alternatives. -/
def joinCounts : List Nat → String
  | [] => ""
  | [n] => toString n
  | [m, n] => toString m ++ " or " ++ toString n
  | n :: ns => toString n ++ ", " ++ joinCounts ns

/-- The number of tokens is one of the given ones. -/
def checkCount (a : Arguments) (counts : List Nat) : Except InputError Unit :=
  if counts.contains a.count then .ok ()
  else .error (.common .count [joinCounts counts, a.text] a.origin)

/-- The greatest bound that is a bound at all. -/
def maxCount : Nat := 0x7FFFFFFFFFFFFFFF

/-- The number of tokens lies between the bounds. -/
def checkCountRange (a : Arguments) (least : Nat) (most : Option Nat) : Except InputError Unit :=
  match most.filter (· < maxCount) with
  | none =>
    if least ≤ a.count then .ok ()
    else .error (.common .countLeast [toString least, a.text] a.origin)
  | some most =>
    if least = most then a.checkCount [least]
    else if least ≤ a.count ∧ a.count ≤ most then .ok ()
    else .error (.common .countRange [toString least, toString most, a.text] a.origin)

/-- The number of tokens is even. -/
def checkEven (a : Arguments) : Except InputError Unit :=
  if a.count % 2 = 0 then .ok () else .error (.common .countEven [a.text] a.origin)

/-- The number of tokens is odd. -/
def checkOdd (a : Arguments) : Except InputError Unit :=
  if a.count % 2 = 1 then .ok () else .error (.common .countOdd [a.text] a.origin)

/-- The number `n` of values read lies between the bounds. -/
def checkElements (a : Arguments) (n least most : Nat) : Except InputError Unit :=
  if least ≤ n ∧ n ≤ most then .ok ()
  else if maxCount ≤ most then .error (.common .countLeast [toString least, a.text] a.origin)
  else .error (.common .countRange [toString least, toString most, a.text] a.origin)

end Arguments

end ModelInputs
