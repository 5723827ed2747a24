import ModelInputs.Error.Expression
import ModelInputs.Text.Blank
import ModelInputs.Text.Letter
import ModelInputs.Text.Split

/-!
# Tokens of expressions

An expression is read as numbers, words, texts between double quotes, names and units between
square brackets, and symbols, each with its position in characters. Blanks and comments between two
`#` are skipped.

* `Token`, `Token.tokenize`: the tokens of a text, with an end token behind them;
* `numberExtent`: the characters of a number, with an optional point and exponent;
* **`append_numberExtent`**: reading a number loses no character.
-/

namespace ModelInputs

/-- The kinds of tokens. -/
inductive TokenKind where
  | number
  | word
  | symbol
  | square
  | text
  | finish
deriving DecidableEq, Repr

/-- A token and the position of its first character. -/
structure Token where
  kind : TokenKind
  value : String
  pos : Nat
deriving DecidableEq, Repr

/-- The name of a kind. -/
def TokenKind.name : TokenKind → String
  | number => "number"
  | word => "ident"
  | symbol => "symbol"
  | square => "square"
  | text => "string"
  | finish => "eof"

namespace Token

open Text

/-- A token shown with its kind, its text between quotes, and its position. -/
def describe (t : Token) : String :=
  "Token(" ++ t.kind.name ++ ", " ++ literal t.value ++ ", pos=" ++ toString t.pos ++ ")"

/-- The token is that symbol. -/
def isSymbol (t : Token) (s : String) : Bool :=
  t.kind == .symbol && t.value == s

/-! ## Numbers -/

/-- The sign at the front, if there is one, and the rest. -/
def signExtent : List Char → List Char × List Char
  | c :: cs => if c = '+' ∨ c = '-' then ([c], cs) else ([], c :: cs)
  | [] => ([], [])

/-- The digits at the front with the point and digits that may follow them, and the rest. -/
def decimalExtent (cs : List Char) : List Char × List Char :=
  let whole := cs.takeWhile isDigit
  match cs.dropWhile isDigit with
  | '.' :: rest => (whole ++ '.' :: rest.takeWhile isDigit, rest.dropWhile isDigit)
  | rest => (whole, rest)

/-- The number at the front and the rest, or the place of an exponent mark without digits. -/
def numberExtent (cs : List Char) : Except Nat (List Char × List Char) :=
  let (decimal, rest) := decimalExtent cs
  match rest with
  | [] => .ok (decimal, [])
  | e :: rest =>
    if e = 'e' ∨ e = 'E' then
      let (sign, rest) := signExtent rest
      let ds := rest.takeWhile isDigit
      if ds.isEmpty then .error decimal.length
      else .ok (decimal ++ e :: sign ++ ds, rest.dropWhile isDigit)
    else .ok (decimal, e :: rest)

theorem append_signExtent (cs : List Char) : (signExtent cs).1 ++ (signExtent cs).2 = cs := by
  unfold signExtent
  split
  · split <;> rfl
  · rfl

theorem append_decimalExtent (cs : List Char) :
    (decimalExtent cs).1 ++ (decimalExtent cs).2 = cs := by
  unfold decimalExtent
  split
  · next h =>
    simp only [List.append_assoc, List.cons_append, List.takeWhile_append_dropWhile]
    rw [← h, List.takeWhile_append_dropWhile]
  · simp

/-- **Reading a number splits the characters.** -/
theorem append_numberExtent {cs read rest : List Char} (h : numberExtent cs = .ok (read, rest)) :
    read ++ rest = cs := by
  have hd := append_decimalExtent cs
  unfold numberExtent at h
  generalize decimalExtent cs = d at h hd
  obtain ⟨decimal, behind⟩ := d
  subst hd
  cases behind with
  | nil => simp_all
  | cons e behind =>
    simp only at h
    split at h
    · have hs := append_signExtent behind
      split at h
      · cases h
      · simp only [Except.ok.injEq, Prod.mk.injEq] at h
        rw [← h.1, ← h.2]
        simp [hs]
    · simp_all

/-! ## The tokens of a text -/

/-- The symbols of two characters. -/
def longSymbols : List String :=
  ["==", "!=", "<=", ">=", "&&", "||"]

/-- The symbols of one character. -/
def shortSymbols : List Char :=
  ['+', '-', '*', '/', '%', '^', '<', '>', '!', '?', ':', '.', ',', '(', ')', '\x7b', '\x7d']

/-- A digit, or a point in front of one. -/
def startsNumber : List Char → Bool
  | c :: cs => isDigit c || (c == '.' && (cs.head?.any isDigit))
  | [] => false

/-- The two characters at the front make a symbol. -/
def longSymbol? : List Char → Option (String × List Char)
  | c :: d :: cs =>
    let s := String.ofList [c, d]
    if longSymbols.contains s then some (s, cs) else none
  | _ => none

theorem length_of_longSymbol? {cs rest : List Char} {s : String}
    (h : longSymbol? cs = some (s, rest)) : rest.length < cs.length := by
  unfold longSymbol? at h
  split at h
  · simp only [Option.ite_none_right_eq_some, Option.some.injEq, Prod.mk.injEq] at h
    simp only [List.length_cons, ← h.2.2]
    omega
  · cases h

theorem length_dropWhile_le (p : Char → Bool) (cs : List Char) :
    (cs.dropWhile p).length ≤ cs.length :=
  (List.dropWhile_sublist p).length_le

/-- What follows a number is shorter than the text. -/
theorem length_of_numberExtent {c : Char} {cs read rest : List Char}
    (hs : startsNumber (c :: cs) = true) (h : numberExtent (c :: cs) = .ok (read, rest)) :
    rest.length ≤ cs.length := by
  have ha := congrArg List.length (append_numberExtent h)
  have hr : read ≠ [] := by
    rintro rfl
    have := append_numberExtent h
    simp only [List.nil_append] at this
    subst this
    have hd := append_decimalExtent (c :: cs)
    unfold numberExtent at h
    generalize hde : decimalExtent (c :: cs) = d at h hd
    obtain ⟨decimal, behind⟩ := d
    have hne : decimal ≠ [] := by
      rintro rfl
      simp only [startsNumber, Bool.or_eq_true, Bool.and_eq_true, beq_iff_eq] at hs
      unfold decimalExtent at hde
      rcases hs with hs | ⟨rfl, hs⟩
      · simp only [List.takeWhile_cons, hs, if_true] at hde
        split at hde <;> simp at hde
      · by_cases hp : isDigit '.'
        · simp only [List.takeWhile_cons, hp, if_true] at hde
          split at hde <;> simp at hde
        · simp [hp] at hde
    cases behind with
    | nil => simp_all
    | cons e behind =>
      simp only at h
      split at h
      · split at h
        · cases h
        · simp at h
      · simp_all
  have : 0 < read.length := List.length_pos_iff.2 hr
  simp only [List.length_append, List.length_cons] at ha
  omega

/-- An error at a position, without the text. -/
def fail {α : Type} (pos : Nat) (fault : ExprFault) : Except ExprError α :=
  .error ⟨fault, pos, none⟩

/-- The tokens of the characters from a position on. -/
def tokensFrom (pos : Nat) : List Char → Except ExprError (List Token)
  | [] => .ok [⟨.finish, "", pos⟩]
  | c :: cs =>
    if isBlank c then tokensFrom (pos + 1) cs
    else if c = '#' then
      match hc : cut? '#' cs with
      | none => fail pos .unterminatedComment
      | some (inside, rest) => tokensFrom (pos + inside.length + 2) rest
    else if _hn : startsNumber (c :: cs) = true then
      match _he : numberExtent (c :: cs) with
      | .error offset => fail (pos + offset) .malformedExponent
      | .ok (read, rest) => do
        return ⟨.number, String.ofList read, pos⟩ :: (← tokensFrom (pos + read.length) rest)
    else if isWordStart c then do
      let read := c :: cs.takeWhile isWordChar
      return ⟨.word, String.ofList read, pos⟩ ::
        (← tokensFrom (pos + read.length) (cs.dropWhile isWordChar))
    else if c = '[' then
      let inside := cs.takeWhile fun d => d != ']' && d != '['
      match hr : cs.dropWhile fun d => d != ']' && d != '[' with
      | [] => fail pos .unterminatedBracket
      | d :: rest =>
        if d = '[' then fail (pos + 1 + inside.length) .nestedBrackets
        else do
          return ⟨.square, String.ofList (stripList inside), pos⟩ ::
            (← tokensFrom (pos + inside.length + 2) rest)
    else if c = '"' then
      match hc : cut? '"' cs with
      | none => fail pos .unterminatedText
      | some (inside, rest) => do
        return ⟨.text, String.ofList inside, pos⟩ ::
          (← tokensFrom (pos + inside.length + 2) rest)
    else
      match hl : longSymbol? (c :: cs) with
      | some (s, rest) => do
        return ⟨.symbol, s, pos⟩ :: (← tokensFrom (pos + 2) rest)
      | none =>
        if shortSymbols.contains c then do
          return ⟨.symbol, String.singleton c, pos⟩ :: (← tokensFrom (pos + 1) cs)
        else fail pos (.unexpectedCharacter c)
termination_by cs => cs.length
decreasing_by
  all_goals simp only [List.length_cons]
  · omega
  · have := length_of_cut? hc
    omega
  · have := length_of_numberExtent _hn _he
    omega
  · have := length_dropWhile_le isWordChar cs
    omega
  · have := length_dropWhile_le (fun d => d != ']' && d != '[') cs
    rw [hr] at this
    simp only [List.length_cons] at this
    omega
  · have := length_of_cut? hc
    omega
  · have := length_of_longSymbol? hl
    simp only [List.length_cons] at this
    omega
  · omega

/-- The tokens of a text; an error carries the text. -/
def tokenize (source : String) : Except ExprError (List Token) :=
  (tokensFrom 0 source.toList).mapError (ExprError.anchoredIn source)

end Token

end ModelInputs
