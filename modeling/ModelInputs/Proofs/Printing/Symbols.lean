import ModelInputs.Proofs.Printing.Tokens

/-!
# Symbols and their texts

A symbol of one character is read as such if the next character does not make a longer one of it;
only six characters can start a longer one. Operators between expressions are written with blanks
around them, which no symbol goes on with, and an operator in front of an expression is not followed
by an equals sign.

* `lexes_symbol`, `lexes_longSymbol`: symbols of one and of two characters;
* `lexes_mark`: symbols that stand on their own, whatever follows;
* `lexes_binaryOp`, `lexes_unaryOp`, `lexes_spaced`: operators.
-/

namespace ModelInputs.Token

open Text

variable (pos : Nat)

/-! ## Symbols of one and two characters -/

/-- The text does not go on with a symbol of two characters, nor a point with a number. -/
def EndsSymbol (c : Char) (cs : List Char) : Prop :=
  ∀ d ∈ cs.head?, longSymbols.contains (String.ofList [c, d]) = false ∧
    (c = '.' → isDigit d = false)

theorem longSymbol?_of_endsSymbol {c : Char} {cs : List Char} (h : EndsSymbol c cs) :
    longSymbol? (c :: cs) = none := by
  cases cs with
  | nil => rfl
  | cons d cs =>
    rw [longSymbol?, (h d rfl).1]
    rfl

theorem lexes_symbol {c : Char} (hc : c ∈ shortSymbols) :
    Lexes (EndsSymbol c) pos [c] [⟨.symbol, String.singleton c, pos⟩] := by
  intro rest us hr h
  have hplain : ∀ c ∈ shortSymbols, isBlank c = false ∧ c ≠ '#' ∧ isDigit c = false ∧
      isMark c = true ∧ c ≠ '[' ∧ c ≠ '"' :=
    List.all_iff_forall_prop.1 (by decide)
  obtain ⟨hblank, hhash, hdigit, hmark, hbracket, hquote⟩ := hplain c hc
  have hstart := isWordStart_of_isMark hmark
  have hnumber : ¬ startsNumber (c :: rest) = true := by
    by_cases hp : c = '.'
    · cases rest with
      | nil =>
        rw [startsNumber, hdigit, List.head?_nil, Option.any_none, Bool.and_false]
        exact Bool.false_ne_true
      | cons d rest =>
        rw [startsNumber, hdigit, List.head?_cons, Option.any_some, (hr d rfl).2 hp, Bool.and_false]
        exact Bool.false_ne_true
    · exact not_startsNumber hdigit hp
  rw [List.singleton_append, tokensFrom, hblank, if_neg Bool.false_ne_true, if_neg hhash,
    dif_neg hnumber, hstart, if_neg Bool.false_ne_true, if_neg hbracket, if_neg hquote]
  split
  · next heq => cases (longSymbol?_of_endsSymbol hr).symm.trans heq
  · rw [if_pos (List.contains_iff_mem.2 hc)]
    have hlen : pos + 1 = pos + [c].length := rfl
    rw [hlen, h]
    rfl

/-- Only six characters start a symbol of two. -/
theorem head_of_mem_longSymbols {c d : Char} (h : String.ofList [c, d] ∈ longSymbols) :
    c ∈ ['=', '!', '<', '>', '&', '|'] := by
  have hall : ∀ s ∈ longSymbols,
      s.toList.head?.all (['=', '!', '<', '>', '&', '|'].contains ·) = true := by
    decide
  have hc := hall _ h
  rw [String.toList_ofList] at hc
  exact List.contains_iff_mem.1 hc

theorem not_mem_longSymbols {c d : Char} (hc : c ∉ ['=', '!', '<', '>', '&', '|']) :
    longSymbols.contains (String.ofList [c, d]) = false := by
  rw [Bool.eq_false_iff]
  exact fun h => hc (head_of_mem_longSymbols (List.contains_iff_mem.1 h))

theorem lexes_longSymbol {c d : Char} (h : String.ofList [c, d] ∈ longSymbols) :
    Lexes Anything pos [c, d] [⟨.symbol, String.ofList [c, d], pos⟩] := by
  intro rest us _ hus
  have hplain : ∀ c ∈ ['=', '!', '<', '>', '&', '|'], isBlank c = false ∧ c ≠ '#' ∧
      isDigit c = false ∧ c ≠ '.' ∧ isMark c = true ∧ c ≠ '[' ∧ c ≠ '"' :=
    List.all_iff_forall_prop.1 (by decide)
  obtain ⟨hblank, hhash, hdigit, hpoint, hmark, hbracket, hquote⟩ :=
    hplain c (head_of_mem_longSymbols h)
  have hstart := isWordStart_of_isMark hmark
  have hlong : longSymbol? (c :: d :: rest) = some (String.ofList [c, d], rest) :=
    if_pos (List.contains_iff_mem.2 h)
  rw [List.cons_append, List.singleton_append, tokensFrom, hblank, if_neg Bool.false_ne_true,
    if_neg hhash, dif_neg (not_startsNumber hdigit hpoint), hstart, if_neg Bool.false_ne_true,
    if_neg hbracket, if_neg hquote]
  split
  · next heq =>
    cases hlong.symm.trans heq
    have hlen : pos + 2 = pos + [c, d].length := rfl
    rw [hlen, hus]
    rfl
  · next heq => cases hlong.symm.trans heq

/-- The symbols that stand on their own, whatever follows. -/
theorem lexes_mark {c : Char} (hc : c ∈ ['(', ')', '\x7b', '\x7d', ',', ':', '?']) :
    Lexes Anything pos [c] [⟨.symbol, String.singleton c, pos⟩] := by
  have hall : ∀ c ∈ ['(', ')', '\x7b', '\x7d', ',', ':', '?'],
      c ∈ shortSymbols ∧ c ∉ ['=', '!', '<', '>', '&', '|'] ∧ c ≠ '.' :=
    List.all_iff_forall_prop.1 (by decide)
  obtain ⟨hshort, hlong, hpoint⟩ := hall c hc
  exact (lexes_symbol pos hshort).mono fun rest _ d _ =>
    ⟨not_mem_longSymbols hlong, fun h => absurd h hpoint⟩

/-! ## Operators -/

/-- A blank comes next. -/
def StartsBlank (cs : List Char) : Prop :=
  ∃ rest, cs = ' ' :: rest

theorem endsSymbol_blank {c : Char} (hc : c ∈ shortSymbols) :
    longSymbols.contains (String.ofList [c, ' ']) = false ∧ (c = '.' → isDigit ' ' = false) := by
  have hall : ∀ c ∈ shortSymbols, longSymbols.contains (String.ofList [c, ' ']) = false ∧
      (c = '.' → isDigit ' ' = false) :=
    List.all_iff_forall_prop.1 (by decide)
  exact hall c hc

theorem lexes_binaryOp (op : BinaryOp) :
    Lexes StartsBlank pos op.symbol.toList [⟨.symbol, op.symbol, pos⟩] := by
  have hshort : ∀ c ∈ shortSymbols, ∀ rest, StartsBlank rest → EndsSymbol c rest := by
    rintro c hc rest ⟨tail, rfl⟩ _ ⟨⟩
    exact endsSymbol_blank hc
  have hs : ∀ c ∈ shortSymbols, Lexes StartsBlank pos [c] [⟨.symbol, String.singleton c, pos⟩] :=
    fun c hc => (lexes_symbol pos hc).mono (hshort c hc)
  have hl : ∀ c d, String.ofList [c, d] ∈ longSymbols →
      Lexes StartsBlank pos [c, d] [⟨.symbol, String.ofList [c, d], pos⟩] :=
    fun c d h => (lexes_longSymbol pos h).mono fun _ _ => trivial
  cases op with
  | add => exact hs '+' (by decide)
  | sub => exact hs '-' (by decide)
  | mul => exact hs '*' (by decide)
  | div => exact hs '/' (by decide)
  | mod => exact hs '%' (by decide)
  | pow => exact hs '^' (by decide)
  | eq => exact hl '=' '=' (by decide)
  | ne => exact hl '!' '=' (by decide)
  | lt => exact hs '<' (by decide)
  | gt => exact hs '>' (by decide)
  | le => exact hl '<' '=' (by decide)
  | ge => exact hl '>' '=' (by decide)
  | and => exact hl '&' '&' (by decide)
  | or => exact hl '|' '|' (by decide)

/-- The text does not start with an equals sign. -/
def NoEquals (cs : List Char) : Prop :=
  ∀ c ∈ cs.head?, c ≠ '='

theorem lexes_unaryOp (op : UnaryOp) :
    Lexes NoEquals pos op.symbol.toList [⟨.symbol, op.symbol, pos⟩] := by
  cases op with
  | neg =>
    exact (lexes_symbol pos (c := '-') (by decide)).mono fun rest _ d _ =>
      ⟨not_mem_longSymbols (by decide), fun h => absurd h (by decide)⟩
  | pos =>
    exact (lexes_symbol pos (c := '+') (by decide)).mono fun rest _ d _ =>
      ⟨not_mem_longSymbols (by decide), fun h => absurd h (by decide)⟩
  | not =>
    refine (lexes_symbol pos (c := '!') (by decide)).mono fun rest hr d hd =>
      ⟨?_, fun h => absurd h (by decide)⟩
    have hall : ∀ s ∈ longSymbols, s.toList.head? = some '!' → s.toList[1]? = some '=' := by
      decide
    rw [Bool.eq_false_iff]
    intro h
    have hsecond := hall _ (List.contains_iff_mem.1 h)
    rw [String.toList_ofList] at hsecond
    exact hr d hd (Option.some.inj (hsecond rfl))

/-- A symbol with a blank on both sides. -/
theorem lexes_spaced {cs : List Char} {t : Token}
    (h : Lexes StartsBlank (pos + 1) cs [t]) : Lexes Anything pos (' ' :: (cs ++ [' '])) [t] := by
  have hfront : Lexes StartsBlank pos ([' '] ++ cs) ([] ++ [t]) :=
    (lexes_blank pos).append h fun _ _ => trivial
  exact hfront.append (lexes_blank _) fun rest _ => ⟨rest, rfl⟩

end ModelInputs.Token
