import Mathlib.Data.List.Permutation
import ModelInputs.Proofs.Printing.Layout
import ModelInputs.Proofs.Printing.Symbols

/-!
# Writing tokens again

The tokens of a text can be written with single blanks between them, and are read again from there,
whatever the blanks and comments of the text were. Only numbers need an argument: what was taken for
a number is taken for it again in front of a blank, in all its forms.

* `numberExtent_cases`: what a number is, and **`numberExtent_append`**: it is read again;
* `spelling`, `written`: the text of a token and of some tokens;
* `Repeats`, **`repeats_of_mem_tokensFrom`**: every token is read again from its text;
* **`tokenize_lossless`**: where the tokens of a text stand, and that they can be written again.
-/

namespace ModelInputs.Token

open Text Number

/-! ## Numbers in front of something else -/

theorem head_dropWhile {p : Char → Bool} {cs : List Char} :
    ∀ c ∈ (cs.dropWhile p).head?, p c = false := by
  intro c hc
  have hfirst := List.head?_dropWhile_not p cs
  rwa [hc] at hfirst

variable {cs decimal read rest rest' : List Char}

theorem decimalExtent_append (h : decimalExtent cs = (decimal, rest))
    (hr : ∀ c ∈ rest'.head?, isDigit c = false ∧ c ≠ '.') :
    decimalExtent (decimal ++ rest') = (decimal, rest') := by
  have hd : ∀ c ∈ rest'.head?, isDigit c = false := fun c hc => (hr c hc).1
  have hcs : ∀ c ∈ cs.takeWhile isDigit, isDigit c = true := fun _ => List.mem_takeWhile_imp
  unfold decimalExtent at h
  split at h
  · next behind _ =>
    cases h
    have hbehind : ∀ c ∈ behind.takeWhile isDigit, isDigit c = true :=
      fun _ => List.mem_takeWhile_imp
    have hp : ∀ c ∈ ('.' :: (behind.takeWhile isDigit ++ rest')).head?, isDigit c = false := by
      rintro _ ⟨⟩
      decide
    unfold decimalExtent
    rw [List.append_assoc, List.cons_append, takeWhile_append_of_head hcs hp,
      dropWhile_append_of_head hcs hp]
    simp only [takeWhile_append_of_head hbehind hd, dropWhile_append_of_head hbehind hd]
  · cases h
    unfold decimalExtent
    rw [takeWhile_append_of_head hcs hd, dropWhile_append_of_head hcs hd]
    split
    · exact absurd rfl (hr '.' rfl).2
    · rfl

theorem head_decimalExtent (h : decimalExtent cs = (decimal, rest)) :
    ∀ c ∈ rest.head?, isDigit c = false := by
  unfold decimalExtent at h
  split at h
  · cases h
    exact head_dropWhile
  · cases h
    exact head_dropWhile

/-- A number that is read is a decimal, or one with an exponent behind it. -/
theorem numberExtent_cases (h : numberExtent cs = .ok (read, rest)) :
    decimalExtent cs = (read, rest) ∨
      ∃ decimal e behind sign ds, decimalExtent cs = (decimal, e :: behind) ∧
        (e = 'e' ∨ e = 'E') ∧ signExtent behind = (sign, ds) ∧ ds.takeWhile isDigit ≠ [] ∧
        read = decimal ++ e :: sign ++ ds.takeWhile isDigit ∧ rest = ds.dropWhile isDigit := by
  unfold numberExtent at h
  cases hd : decimalExtent cs with
  | mk decimal behind =>
    rw [hd] at h
    cases behind with
    | nil =>
      cases h
      exact .inl rfl
    | cons e behind =>
      dsimp only at h
      split at h
      · next he =>
        split at h
        · cases h
        · next hne =>
          cases h
          exact .inr ⟨decimal, e, behind, _, _, rfl, he, rfl, mt List.isEmpty_iff.2 hne, rfl, rfl⟩
      · cases h
        exact .inl rfl

/-- A number goes on as long as there are digits. -/
theorem head_numberExtent (h : numberExtent cs = .ok (read, rest)) :
    ∀ c ∈ rest.head?, isDigit c = false := by
  obtain hd | ⟨_, _, _, _, _, _, _, _, _, _, rfl⟩ := numberExtent_cases h
  · exact head_decimalExtent hd
  · exact head_dropWhile

theorem signExtent_append {sign : List Char} (h : signExtent cs = (sign, rest))
    (hr : rest'.head? = rest.head?) : signExtent (sign ++ rest') = (sign, rest') := by
  unfold signExtent at h
  split at h
  · split at h
    · next hc =>
      cases h
      exact if_pos hc
    · next hc =>
      cases h
      cases rest' with
      | nil => cases hr
      | cons d rest' =>
        cases hr
        exact if_neg hc
  · cases h
    cases rest' with
    | nil => rfl
    | cons d rest' => cases hr

/-- **A number that was read is read again** in front of anything that does not go on with it. -/
theorem numberExtent_append (h : numberExtent cs = .ok (read, rest)) (hr : EndsNumber rest') :
    numberExtent (read ++ rest') = .ok (read, rest') := by
  have hdigit : ∀ c ∈ rest'.head?, isDigit c = false := fun c hc => (hr c hc).1
  obtain hd | ⟨decimal, e, behind, sign, ds, hd, he, hs, hne, rfl, -⟩ := numberExtent_cases h
  · exact numberExtent_of_decimalExtent
      (decimalExtent_append hd fun c hc => ⟨(hr c hc).1, (hr c hc).2.1⟩) hr
  · have hmark : ∀ c ∈ (e :: (sign ++ (ds.takeWhile isDigit ++ rest'))).head?,
        isDigit c = false ∧ c ≠ '.' := by
      rintro _ ⟨⟩
      obtain rfl | rfl := he <;> decide
    have hhead : (ds.takeWhile isDigit ++ rest').head? = ds.head? := by
      cases ds with
      | nil => exact absurd rfl hne
      | cons d ds =>
        cases hd : isDigit d with
        | true => rw [List.takeWhile_cons_of_pos hd]; rfl
        | false => exact absurd (List.takeWhile_cons_of_neg (Bool.eq_false_iff.1 hd)) hne
    have hds : ∀ c ∈ ds.takeWhile isDigit, isDigit c = true := fun _ => List.mem_takeWhile_imp
    have hsign := signExtent_append hs hhead
    rw [List.append_assoc, List.append_assoc, List.cons_append, numberExtent,
      decimalExtent_append hd hmark]
    simp only [he, if_true, hsign, takeWhile_append_of_head hds hdigit,
      dropWhile_append_of_head hds hdigit, List.isEmpty_eq_false_iff.2 hne]
    rfl

/-! ## Tokens in front of a blank -/

/-- A blank comes next, or nothing. -/
def EndsToken (cs : List Char) : Prop :=
  ∀ c ∈ cs.head?, c = ' '

theorem EndsToken.endsNumber (h : EndsToken cs) : EndsNumber cs := by
  intro c hc
  rw [h c hc]
  decide

theorem EndsToken.endsWord (h : EndsToken cs) : EndsWord cs := by
  intro c hc
  rw [h c hc]
  exact isWordChar_of_isMark (by decide)

theorem EndsToken.endsSymbol (h : EndsToken cs) {c : Char} (hc : c ∈ shortSymbols) :
    EndsSymbol c cs := by
  intro d hd
  rw [h d hd]
  exact endsSymbol_blank hc

/-- The token as it is written: texts in quotes, names and units in brackets. -/
def spelling (t : Token) : String :=
  match t.kind with
  | .number | .word | .symbol | .finish => t.value
  | .square => "[" ++ t.value ++ "]"
  | .text => "\"" ++ t.value ++ "\""

/-- The tokens written one after another with single blanks between them. -/
def written (tokens : List Token) : String :=
  " ".intercalate ((tokens.filter (·.kind != .finish)).map spelling)

/-- The token is read again from its text, wherever this stands. -/
def Repeats (t : Token) : Prop :=
  ∀ pos, Lexes EndsToken pos t.spelling.toList [⟨t.kind, t.value, pos⟩]

/-- A number that is read is read again in front of anything that does not go on with it. -/
theorem lexes_readNumber {c : Char} (hb : ¬ isBlank c = true) (hh : c ≠ '#')
    (hs : startsNumber (c :: cs) = true) (he : numberExtent (c :: cs) = .ok (read, rest))
    (pos : Nat) : Lexes EndsNumber pos read [⟨.number, String.ofList read, pos⟩] := by
  obtain ⟨d, ds, rfl, -⟩ := isNumberText_of_numberExtent (Bool.eq_false_iff.2 hb) hs he
  have happend := append_numberExtent he
  rw [List.cons_append] at happend
  cases happend
  refine lexes_of_numberExtent pos hb hh (fun rest' hr => ?_) fun rest' hr =>
    numberExtent_append he hr
  -- a point alone is no number, so the digit behind it was taken as well
  cases ds with
  | cons d ds => exact hs
  | nil =>
    rw [startsNumber, Bool.or_eq_true, Bool.and_eq_true, beq_iff_eq] at hs
    obtain hc | ⟨-, hc⟩ := hs
    · rw [startsNumber, hc, Bool.true_or]
    · obtain ⟨d, hd, hdigit⟩ := (Option.any_eq_true _ _).1 hc
      rw [head_numberExtent he d hd] at hdigit
      cases hdigit

theorem repeats_number {c : Char} {pos : Nat} (hb : ¬ isBlank c = true) (hh : c ≠ '#')
    (hs : startsNumber (c :: cs) = true) (he : numberExtent (c :: cs) = .ok (read, rest)) :
    Repeats ⟨.number, String.ofList read, pos⟩ := by
  intro pos'
  rw [spelling, String.toList_ofList]
  exact (lexes_readNumber hb hh hs he pos').mono fun _ => EndsToken.endsNumber

theorem repeats_word {pos : Nat} (h : IsWordText cs) : Repeats ⟨.word, String.ofList cs, pos⟩ := by
  intro pos'
  rw [spelling, String.toList_ofList]
  exact (lexes_word pos' h).mono fun _ => EndsToken.endsWord

theorem repeats_square {pos : Nat} (h : IsNameText cs) :
    Repeats ⟨.square, String.ofList cs, pos⟩ := by
  intro pos'
  have hspelling : (spelling ⟨.square, String.ofList cs, pos⟩).toList = '[' :: (cs ++ [']']) := by
    simp [spelling]
  rw [hspelling]
  exact (lexes_square pos' h).mono fun _ _ => trivial

theorem repeats_text {pos : Nat} (h : '"' ∉ cs) : Repeats ⟨.text, String.ofList cs, pos⟩ := by
  intro pos'
  have hspelling : (spelling ⟨.text, String.ofList cs, pos⟩).toList = '"' :: (cs ++ ['"']) := by
    simp [spelling]
  rw [hspelling]
  exact (lexes_text pos' h).mono fun _ _ => trivial

theorem repeats_longSymbol {c d : Char} {pos : Nat} (h : String.ofList [c, d] ∈ longSymbols) :
    Repeats ⟨.symbol, String.ofList [c, d], pos⟩ := by
  intro pos'
  rw [spelling, String.toList_ofList]
  exact (lexes_longSymbol pos' h).mono fun _ _ => trivial

theorem repeats_symbol {c : Char} {pos : Nat} (h : c ∈ shortSymbols) :
    Repeats ⟨.symbol, String.singleton c, pos⟩ := by
  intro pos'
  rw [spelling, String.toList_singleton]
  exact (lexes_symbol pos' h).mono fun _ hr => EndsToken.endsSymbol hr h

/-- **Every token that is read is read again from its text.** -/
theorem repeats_of_mem_tokensFrom {pos : Nat} {tokens : List Token}
    (h : tokensFrom pos cs = .ok tokens) : ∀ t ∈ tokens, t.kind = .finish ∨ t.Repeats := by
  fun_induction tokensFrom pos cs generalizing tokens with
  | case1 =>
    cases h
    exact List.forall_mem_singleton.2 (.inl rfl)
  | case2 | case4 =>
    rename_i ih
    exact ih h
  | case3 | case5 | case8 | case9 | case11 | case15 => cases h
  | case6 pos c cs hblank hhash hnumber read rest hext ih =>
    obtain ⟨ts, hts, ht⟩ := bind_eq_ok.1 h
    cases ht
    exact List.forall_mem_cons.2 ⟨.inr (repeats_number hblank hhash hnumber hext), ih hts⟩
  | case7 pos c cs hblank hhash hnumber hstart =>
    rename_i ih
    obtain ⟨ts, hts, ht⟩ := bind_eq_ok.1 h
    cases ht
    have hword := isWordText_takeWhile hblank hhash hnumber hstart
    exact List.forall_mem_cons.2 ⟨.inr (repeats_word hword), ih hts⟩
  | case10 =>
    rename_i ih
    obtain ⟨ts, hts, ht⟩ := bind_eq_ok.1 h
    cases ht
    exact List.forall_mem_cons.2 ⟨.inr (repeats_square isNameText_stripList), ih hts⟩
  | case12 pos cs inside rest hcut _ _ _ _ _ ih =>
    obtain ⟨ts, hts, ht⟩ := bind_eq_ok.1 h
    cases ht
    exact List.forall_mem_cons.2 ⟨.inr (repeats_text (not_mem_of_cut? hcut)), ih hts⟩
  | case13 pos c cs _ _ _ _ _ _ s rest hlong ih =>
    obtain ⟨ts, hts, ht⟩ := bind_eq_ok.1 h
    cases ht
    obtain ⟨_, _, -, rfl, hs⟩ := longSymbol?_eq_some hlong
    exact List.forall_mem_cons.2 ⟨.inr (repeats_longSymbol hs), ih hts⟩
  | case14 pos c cs _ _ _ _ _ _ _ hshort ih =>
    obtain ⟨ts, hts, ht⟩ := bind_eq_ok.1 h
    cases ht
    exact List.forall_mem_cons.2 ⟨.inr (repeats_symbol (List.contains_iff_mem.1 hshort)), ih hts⟩

/-! ## Whole texts -/

/-- The kind and the text of each token. -/
def contents (tokens : List Token) : List (TokenKind × String) :=
  tokens.map fun t => (t.kind, t.value)

theorem contents_cons (t : Token) (ts : List Token) :
    contents (t :: ts) = (t.kind, t.value) :: contents ts :=
  rfl

/-- Tokens that are written with blanks between them are read again, at other positions. -/
theorem tokensFrom_intercalate {ts : List Token} (h : ∀ t ∈ ts, t.Repeats) (pos : Nat) :
    ∃ again, tokensFrom pos ([' '].intercalate (ts.map (·.spelling.toList))) = .ok again ∧
      contents again = contents ts ++ [(.finish, "")] := by
  induction ts generalizing pos with
  | nil =>
    rw [List.map_nil, List.intercalate_nil, tokensFrom]
    exact ⟨_, rfl, rfl⟩
  | cons t ts ih =>
    obtain ⟨ht, hts⟩ := List.forall_mem_cons.1 h
    cases ts with
    | nil =>
      have hread := ht pos [] [⟨.finish, "", _⟩] (by rintro _ ⟨⟩) (by rw [tokensFrom])
      rw [List.append_nil] at hread
      rw [List.map_singleton, List.intercalate_singleton]
      exact ⟨_, hread, rfl⟩
    | cons u us =>
      obtain ⟨again, hagain, hsame⟩ := ih hts (pos + t.spelling.toList.length + 1)
      have hblank := lexes_blank (pos + t.spelling.toList.length) _ again trivial hagain
      have hread := ht pos _ again (by rintro _ ⟨⟩; rfl) hblank
      refine ⟨⟨t.kind, t.value, pos⟩ :: again, ?_, ?_⟩
      · rw [List.map_cons, List.map_cons, List.intercalate_cons_cons, List.append_assoc]
        exact hread
      · rw [contents_cons, hsame, contents_cons t, List.cons_append]

theorem LaidOut.contents_eq {pos : Nat} {tokens : List Token} (h : LaidOut pos cs tokens) :
    contents tokens = contents (tokens.filter (·.kind != .finish)) ++ [(.finish, "")] := by
  induction h with
  | finish _ => rfl
  | token _ ht _ _ _ ih =>
    rw [contents_cons, ih, List.filter_cons, if_pos (bne_iff_ne.2 ht), contents_cons,
      List.cons_append]

/-- **No text is lost in its tokens.** They stand one behind another, each spelt out at its
position, with blanks and whole comments in front of the first and between them up to the end token
at the end of the text. Written with single blanks between them they are read again, with the same
kinds and texts. -/
theorem tokenize_lossless {source : String} {tokens : List Token}
    (h : tokenize source = .ok tokens) :
    (tokens.Pairwise fun t u => t.pos < u.pos) ∧
    tokens.getLast? = some ⟨.finish, "", source.length⟩ ∧
    (∀ t ∈ tokens, t.StandsIn source.toList) ∧
    (∃ gap, IsGap gap ∧ gap <+: source.toList ∧ ∀ t ∈ tokens.head?, t.pos = gap.length) ∧
    tokens.IsChain (Follows source.toList) ∧
    ∃ again, tokenize (written tokens) = .ok again ∧ contents again = contents tokens := by
  have htokens := mapError_eq_ok.1 h
  have hlaid := laidOut_tokensFrom htokens
  have hrepeats : ∀ t ∈ tokens.filter (·.kind != .finish), t.Repeats := by
    intro t ht
    obtain ⟨hmem, hkind⟩ := List.mem_filter.1 ht
    exact (repeats_of_mem_tokensFrom htokens t hmem).resolve_left (bne_iff_ne.1 hkind)
  obtain ⟨again, hagain, hsame⟩ := tokensFrom_intercalate hrepeats 0
  refine ⟨hlaid.pairwise, ?_, hlaid.standsIn List.length_nil, ?_,
    hlaid.follows List.length_nil, again, ?_, hsame.trans hlaid.contents_eq.symm⟩
  · rw [hlaid.getLast?, Nat.zero_add, String.length_toList]
  · obtain ⟨gap, hgap, hfront, hfirst⟩ := hlaid.front
    refine ⟨gap, hgap, hfront, fun t ht => ?_⟩
    rw [hfirst t ht, Nat.zero_add]
  · rw [tokenize, mapError_eq_ok, written, String.toList_intercalate, List.map_map]
    exact hagain

set_option maxRecDepth 20000 in
/-- A number with a point in front and an exponent, a unit, a symbol and a text with a `#`, behind a
comment and with blanks between the brackets. -/
theorem tokenize_lossless_of_comment :
    tokenize "#a#.5e3*[ km ]>=\"x#\"" = .ok [⟨.number, ".5e3", 3⟩, ⟨.symbol, "*", 7⟩,
      ⟨.square, "km", 8⟩, ⟨.symbol, ">=", 14⟩, ⟨.text, "x#", 16⟩, ⟨.finish, "", 20⟩] ∧
    written [⟨.number, ".5e3", 3⟩, ⟨.symbol, "*", 7⟩, ⟨.square, "km", 8⟩, ⟨.symbol, ">=", 14⟩,
      ⟨.text, "x#", 16⟩, ⟨.finish, "", 20⟩] = ".5e3 * [km] >= \"x#\"" ∧
    ∃ again, tokenize ".5e3 * [km] >= \"x#\"" = .ok again ∧
      contents again = [(.number, ".5e3"), (.symbol, "*"), (.square, "km"), (.symbol, ">="),
        (.text, "x#"), (.finish, "")] := by
  have h : tokenize "#a#.5e3*[ km ]>=\"x#\"" = .ok [⟨.number, ".5e3", 3⟩, ⟨.symbol, "*", 7⟩,
      ⟨.square, "km", 8⟩, ⟨.symbol, ">=", 14⟩, ⟨.text, "x#", 16⟩, ⟨.finish, "", 20⟩] := by
    cbv
  obtain ⟨-, -, -, -, -, again, hagain, hsame⟩ := tokenize_lossless h
  have hwritten : written [⟨.number, ".5e3", 3⟩, ⟨.symbol, "*", 7⟩, ⟨.square, "km", 8⟩,
      ⟨.symbol, ">=", 14⟩, ⟨.text, "x#", 16⟩, ⟨.finish, "", 20⟩] = ".5e3 * [km] >= \"x#\"" := by
    decide
  rw [hwritten] at hagain
  exact ⟨h, hwritten, again, hagain, hsame⟩

end ModelInputs.Token
