/-!
# Tokens of a record

A record is split into tokens: blanks separate tokens, braces are tokens of their own, single
quotes hold a token together whatever it contains, and outside quotes a double quote starts a
comment that runs to the end of the record. Writing tokens back quotes those that would otherwise
be split.

* `scan`, `tokenize`: from text to tokens;
* `needsQuoting`, `addQuotes`, `formatToken`, `formatTokens`: from tokens to text;
* **`scan_word`**, **`scan_quoted`**: a run of plain characters is one token, and so is a quoted
  text.
-/

namespace ModelInputs.Record

/-! ## From text to tokens -/

/-- The characters that end a token outside quotes without being one. -/
def isSeparator (c : Char) : Bool :=
  c == ' ' || c == '\t' || c == '\r' || c == '\n'

/-- An opening or closing brace. -/
def isBraceChar (c : Char) : Bool :=
  c == '\x7b' || c == '\x7d'

/-- A character that a token can go on with outside quotes. -/
def isPlain (c : Char) : Bool :=
  !(c == '\'' || c == '"' || isSeparator c || isBraceChar c)

/-- What is being read: nothing yet, or the characters so far of a token, the last one first. -/
inductive Reading where
  | gap
  | word (read : List Char)
  | quoted (read : List Char)

/-- The token that ends here, if one was being read. -/
def Reading.token : Reading → List String
  | .gap => []
  | .word read => [String.ofList read.reverse]
  | .quoted read => [String.ofList read.reverse]

/-- The tokens of the characters that follow. -/
def scan : Reading → List Char → List String
  | state, [] => state.token
  | .quoted read, c :: cs =>
    if c = '\'' then Reading.token (.quoted read) ++ scan .gap cs else scan (.quoted (c :: read)) cs
  | state, c :: cs =>
    if c = '\'' then state.token ++ scan (.quoted []) cs
    else if c = '"' then state.token
    else if isBraceChar c then state.token ++ String.singleton c :: scan .gap cs
    else if isSeparator c then state.token ++ scan .gap cs
    else
      match state with
      | .word read => scan (.word (c :: read)) cs
      | _ => scan (.word [c]) cs

/-- The tokens of a record. -/
def tokenize (record : String) : List String :=
  scan .gap record.toList

/-! ## From tokens to text -/

/-- The token would be split or lost if it stood without quotes. -/
def needsQuoting (token : String) : Bool :=
  token == "" || token.toList.any fun c => c == ' ' || c == '\t' || isBraceChar c || c == '"'

/-- The token stands between quotes already. -/
def isQuoted (token : String) : Bool :=
  decide (2 ≤ token.length) && token.toList.head? == some '\''
    && token.toList.getLast? == some '\''

/-- The token between quotes. -/
def addQuotes (token : String) : String :=
  if isQuoted token then token else "'" ++ token ++ "'"

/-- The token with quotes if it needs them. -/
def quoteIfNeeded (token : String) : String :=
  if needsQuoting token then addQuotes token else token

/-- An opening or closing brace. -/
def isBrace (token : String) : Bool :=
  token == "\x7b" || token == "\x7d"

/-- A token as it stands in a record. -/
def formatToken (token : String) : String :=
  if isBrace token then token else quoteIfNeeded token

/-- Tokens as a record. -/
def formatTokens (tokens : List String) : String :=
  " ".intercalate (tokens.map formatToken)

/-! ## Runs of characters -/

/-- A run of plain characters goes into the token that is being read. -/
theorem scan_word (read cs rest : List Char) (h : cs.all isPlain = true) :
    scan (.word read) (cs ++ rest) = scan (.word (cs.reverse ++ read)) rest := by
  induction cs generalizing read with
  | nil => rfl
  | cons c cs ih =>
    simp only [List.all_cons, Bool.and_eq_true, isPlain, Bool.not_eq_true', Bool.or_eq_false_iff,
      beq_eq_false_iff_ne, ne_eq] at h
    obtain ⟨⟨⟨⟨hq, hd⟩, hs⟩, hb⟩, ht⟩ := h
    have hcs : cs.all isPlain = true := by simpa [isPlain] using ht
    simp [scan, hq, hd, hs, hb, ih _ hcs]

/-- Characters other than the quote go into the quoted token that is being read. -/
theorem scan_quoted (read cs rest : List Char) (h : '\'' ∉ cs) :
    scan (.quoted read) (cs ++ rest) = scan (.quoted (cs.reverse ++ read)) rest := by
  induction cs generalizing read with
  | nil => rfl
  | cons c cs ih =>
    simp only [List.mem_cons, not_or] at h
    simp [scan, Ne.symm h.1, ih _ h.2]

end ModelInputs.Record
