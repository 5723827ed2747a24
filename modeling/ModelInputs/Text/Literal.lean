import ModelInputs.Text.Printable

/-!
# Quoted texts

How a text is shown inside a message: between quotes, with every character that would not be seen
as itself escaped. Single quotes are used unless the text holds one and no double quote.

* `quoteFor`, `escape`, `literal`;
* `literalList`: a list of shown items between square brackets.
-/

namespace ModelInputs.Text

/-- The last digits of a number in base sixteen, padded with zeros to the given count. -/
def hexDigits : Nat → Nat → List Char
  | 0, _ => []
  | count + 1, n => hexDigits count (n / 16) ++ [Nat.digitChar (n % 16)]

/-- The quote that a text is shown between. -/
def quoteFor (cs : List Char) : Char :=
  if cs.contains '\'' && !cs.contains '"' then '"' else '\''

/-- A character inside quotes. -/
def escape (quote c : Char) : List Char :=
  if c == quote || c == '\\' then ['\\', c]
  else if c == '\n' then ['\\', 'n']
  else if c == '\r' then ['\\', 'r']
  else if c == '\t' then ['\\', 't']
  else if isPrintable c then [c]
  else if c.toNat < 0x100 then '\\' :: 'x' :: hexDigits 2 c.toNat
  else if c.toNat < 0x10000 then '\\' :: 'u' :: hexDigits 4 c.toNat
  else '\\' :: 'U' :: hexDigits 8 c.toNat

/-- The text between quotes, with escapes. -/
def literal (s : String) : String :=
  let cs := s.toList
  let quote := quoteFor cs
  String.ofList (quote :: cs.flatMap (escape quote) ++ [quote])

/-- Shown items between square brackets. -/
def literalList (items : List String) : String :=
  "[" ++ ", ".intercalate items ++ "]"

end ModelInputs.Text
