import Mathlib.Data.Bool.AllAny
import Mathlib.Data.List.DropRight
import ModelInputs.Expression.Tree
import ModelInputs.Proofs.Number.Writing
import ModelInputs.Proofs.Outcome

/-!
# Tokens and their texts

Every token of a text can be written again so that it is read as the same token, if what is written
behind it does not go on with it. Words and numbers ask this of the next character; names between
brackets and texts between quotes end by themselves.

* `Lexes`: characters that are read as some tokens, whatever stands behind them that lets them end;
* `lexes_number`, `lexes_word`, `lexes_square`, `lexes_text`: one token each;
* `IsWordText`, `IsNameText`: the characters of words and of names between brackets;
* `IsClean`, **`isClean_of_mem_tokensFrom`**: every token that is read can be written again.
-/

namespace ModelInputs.Token

open Text Number

/-! ## Signs that are in no word -/

/-- A sign that no word contains, told without the table of letters. -/
def isMark (c : Char) : Bool :=
  decide (c.toNat < 128) && !c.isAlpha && !isNumeral c && c != '_'

set_option maxRecDepth 4000 in
theorem isAlpha_of_isLetter {c : Char} (hc : c.toNat < 128) (h : isLetter c = true) :
    c.isAlpha = true := by
  have hletters : ∀ r ∈ letters, r = (65, 90) ∨ r = (97, 122) ∨ 128 ≤ r.1 := by decide
  obtain ⟨r, hr, hlow, hhigh⟩ := inRanges_iff.1 h
  obtain rfl | rfl | hle := hletters r hr
  · have hupper : c.isUpper = true :=
      decide_eq_true ⟨UInt32.le_iff_toNat_le.2 hlow, UInt32.le_iff_toNat_le.2 hhigh⟩
    exact Bool.or_eq_true_iff.2 (.inl hupper)
  · have hlower : c.isLower = true :=
      Bool.and_eq_true_iff.2 ⟨decide_eq_true (UInt32.le_iff_toNat_le.2 hlow),
        decide_eq_true (UInt32.le_iff_toNat_le.2 hhigh)⟩
    exact Bool.or_eq_true_iff.2 (.inr hlower)
  · omega

theorem isWordChar_of_isMark {c : Char} (h : isMark c = true) : isWordChar c = false := by
  simp only [isMark, Bool.and_eq_true, decide_eq_true_eq, Bool.not_eq_true', bne_iff_ne] at h
  obtain ⟨⟨⟨hc, halpha⟩, hnumeral⟩, hunder⟩ := h
  have hletter : isLetter c = false := by
    rw [Bool.eq_false_iff]
    intro hl
    rw [isAlpha_of_isLetter hc hl] at halpha
    cases halpha
  rw [isWordChar, hletter, hnumeral, beq_false_of_ne hunder]
  rfl

theorem isWordStart_of_isMark {c : Char} (h : isMark c = true) : isWordStart c = false := by
  rw [Bool.eq_false_iff]
  intro hs
  have hword := isWordChar_of_isWordStart hs
  rw [isWordChar_of_isMark h] at hword
  cases hword

/-! ## Reading what is written -/

/-- From a position on, the characters are read as the tokens, whatever of `S` stands behind
them. -/
def Lexes (S : List Char → Prop) (pos : Nat) (cs : List Char) (ts : List Token) : Prop :=
  ∀ rest us, S rest → tokensFrom (pos + cs.length) rest = .ok us →
    tokensFrom pos (cs ++ rest) = .ok (ts ++ us)

/-- Anything may stand behind. -/
def Anything (_ : List Char) : Prop :=
  True

section Lexes

variable {S S' : List Char → Prop} {pos : Nat} {cs ds : List Char} {ts us : List Token}

theorem Lexes.nil : Lexes S pos [] [] :=
  fun _ _ _ h => h

theorem Lexes.mono (h : Lexes S pos cs ts) (hs : ∀ rest, S' rest → S rest) : Lexes S' pos cs ts :=
  fun rest us hr hus => h rest us (hs rest hr) hus

theorem Lexes.append (h : Lexes S pos cs ts) (h' : Lexes S' (pos + cs.length) ds us)
    (hs : ∀ rest, S' rest → S (ds ++ rest)) : Lexes S' pos (cs ++ ds) (ts ++ us) := by
  intro rest vs hr hvs
  rw [List.length_append, ← Nat.add_assoc] at hvs
  rw [List.append_assoc, List.append_assoc]
  exact h (ds ++ rest) (us ++ vs) (hs rest hr) (h' rest vs hr hvs)

end Lexes

variable (pos : Nat)

theorem lexes_blank : Lexes Anything pos [' '] [] := by
  intro rest us _ h
  have hb : isBlank ' ' = true := by decide
  rw [List.singleton_append, tokensFrom, if_pos hb]
  exact h

/-! ## Numbers -/

/-- A number starts with a digit or a point. -/
def IsNumberText (cs : List Char) : Prop :=
  ∃ c rest, cs = c :: rest ∧ isBlank c = false ∧ (c = '.' ∨ isDigit c = true)

theorem isBlank_of_isAsciiDigit {c : Char} (h : isAsciiDigit c = true) : isBlank c = false := by
  have hblanks : ∀ r ∈ blanks, r.2 < 48 ∨ 57 < r.1 := by decide
  simp only [isAsciiDigit, Bool.and_eq_true, decide_eq_true_eq] at h
  rw [Bool.eq_false_iff]
  intro hb
  obtain ⟨r, hr, hle⟩ := inRanges_iff.1 hb
  have := hblanks r hr
  omega

theorem not_startsNumber {c : Char} {cs : List Char} (hd : isDigit c = false) (hp : c ≠ '.') :
    ¬ startsNumber (c :: cs) = true := by
  rw [startsNumber, hd, Bool.false_or, beq_eq_false_iff_ne.2 hp, Bool.false_and]
  exact Bool.false_ne_true

/-- Characters that are taken for a number in front of anything that does not go on with it. -/
theorem lexes_of_numberExtent {c : Char} {ds : List Char} (hb : ¬ isBlank c = true)
    (hh : c ≠ '#')
    (hs : ∀ rest, EndsNumber rest → startsNumber (c :: (ds ++ rest)) = true)
    (he : ∀ rest, EndsNumber rest → numberExtent (c :: (ds ++ rest)) = .ok (c :: ds, rest)) :
    Lexes EndsNumber pos (c :: ds) [⟨.number, String.ofList (c :: ds), pos⟩] := by
  intro rest us hr h
  rw [List.cons_append, tokensFrom, if_neg hb, if_neg hh, dif_pos (hs rest hr)]
  split
  · next heq =>
    cases (he rest hr).symm.trans heq
  · next heq =>
    cases (he rest hr).symm.trans heq
    rw [h]
    rfl

theorem lexes_number {n : Numeral} (hn : n.IsProper) :
    Lexes EndsNumber pos n.chars [⟨.number, n.text, pos⟩] := by
  obtain ⟨c, cs, hcs⟩ : ∃ c cs, n.whole = c :: cs := List.exists_cons_of_ne_nil hn.whole_ne_nil
  have hc : isAsciiDigit c = true := hn.whole c (hcs ▸ List.mem_cons_self)
  obtain ⟨ds, hds⟩ : ∃ ds, n.chars = c :: ds := by
    rw [Numeral.chars, hcs]
    exact ⟨_, rfl⟩
  have hhash : c ≠ '#' := by
    rintro rfl
    exact absurd hc (by decide)
  have hstart (rest : List Char) : startsNumber (c :: (ds ++ rest)) = true := by
    rw [startsNumber, isDigit_of_isAsciiDigit hc, Bool.true_or]
  have hext (rest : List Char) (hr : EndsNumber rest) :
      numberExtent (c :: (ds ++ rest)) = .ok (c :: ds, rest) := by
    rw [← List.cons_append, ← hds]
    exact hn.numberExtent_append hr
  rw [Numeral.text, hds]
  exact lexes_of_numberExtent pos (Bool.eq_false_iff.1 (isBlank_of_isAsciiDigit hc)) hhash
    (fun rest _ => hstart rest) hext

/-! ## Words -/

/-- The characters of a word, which is no number, blank or comment. -/
structure IsWordText (cs : List Char) : Prop where
  start : ∃ c rest, cs = c :: rest ∧ isWordStart c = true ∧ isDigit c = false ∧
    isBlank c = false ∧ c ≠ '#' ∧ c ≠ '.'
  all : ∀ c ∈ cs, isWordChar c = true

/-- The text does not go on with a word. -/
def EndsWord (cs : List Char) : Prop :=
  ∀ c ∈ cs.head?, isWordChar c = false

theorem lexes_word {cs : List Char} (hcs : IsWordText cs) :
    Lexes EndsWord pos cs [⟨.word, String.ofList cs, pos⟩] := by
  intro rest us hr h
  obtain ⟨⟨c, cs, rfl, hstart, hdigit, hblank, hhash, hpoint⟩, hall⟩ := hcs
  have hall : ∀ d ∈ cs, isWordChar d = true := fun d hd => hall d (List.mem_cons_of_mem c hd)
  rw [List.cons_append, tokensFrom, hblank, if_neg Bool.false_ne_true, if_neg hhash,
    dif_neg (not_startsNumber hdigit hpoint), if_pos hstart, takeWhile_append_of_head hall hr,
    dropWhile_append_of_head hall hr]
  simp only [h]
  rfl

/-! ## Names between brackets -/

/-- The characters of a name between brackets, without blanks around it. -/
structure IsNameText (cs : List Char) : Prop where
  plain : ∀ c ∈ cs, c ≠ ']' ∧ c ≠ '['
  stripped : stripList cs = cs

theorem lexes_square {cs : List Char} (hcs : IsNameText cs) :
    Lexes Anything pos ('[' :: (cs ++ [']'])) [⟨.square, String.ofList cs, pos⟩] := by
  intro rest us _ h
  have hplain : ∀ c ∈ cs, (c != ']' && c != '[') = true := by
    intro c hc
    rw [Bool.and_eq_true, bne_iff_ne, bne_iff_ne]
    exact hcs.plain c hc
  have htake : (cs ++ ']' :: rest).takeWhile (fun d => d != ']' && d != '[') = cs := by
    rw [List.takeWhile_append_of_pos hplain]
    exact List.append_nil cs
  have hdrop : (cs ++ ']' :: rest).dropWhile (fun d => d != ']' && d != '[') = ']' :: rest := by
    rw [List.dropWhile_append_of_pos hplain]
    rfl
  have hstart : isWordStart '[' = false := isWordStart_of_isMark (by decide)
  rw [List.cons_append, List.append_assoc, List.singleton_append, tokensFrom, if_neg (by decide),
    if_neg (by decide), dif_neg (not_startsNumber (by decide) (by decide)), hstart,
    if_neg Bool.false_ne_true,
    if_pos rfl]
  simp only [htake]
  split
  · next heq => cases hdrop.symm.trans heq
  · next heq =>
    cases hdrop.symm.trans heq
    rw [if_neg (by decide), hcs.stripped]
    have hlen : pos + cs.length + 2 = pos + ('[' :: (cs ++ [']'])).length := by
      simp only [List.length_cons, List.length_append, List.length_nil]
      omega
    rw [hlen, h]
    rfl

/-! ## Texts between quotes -/

theorem cut?_append {sep : Char} {cs rest : List Char} (h : sep ∉ cs) :
    cut? sep (cs ++ sep :: rest) = some (cs, rest) := by
  induction cs with
  | nil => exact if_pos rfl
  | cons c cs ih =>
    rw [List.mem_cons, not_or] at h
    rw [List.cons_append, cut?, if_neg (Ne.symm h.1), ih h.2]
    rfl

theorem lexes_text {cs : List Char} (hcs : '"' ∉ cs) :
    Lexes Anything pos ('"' :: (cs ++ ['"'])) [⟨.text, String.ofList cs, pos⟩] := by
  intro rest us _ h
  have hcut : cut? '"' (cs ++ '"' :: rest) = some (cs, rest) := cut?_append hcs
  have hstart : isWordStart '"' = false := isWordStart_of_isMark (by decide)
  rw [List.cons_append, List.append_assoc, List.singleton_append, tokensFrom, if_neg (by decide),
    if_neg (by decide), dif_neg (not_startsNumber (by decide) (by decide)), hstart,
    if_neg Bool.false_ne_true,
    if_neg (by decide), if_pos rfl]
  split
  · next heq => cases hcut.symm.trans heq
  · next heq =>
    cases hcut.symm.trans heq
    have hlen : pos + cs.length + 2 = pos + ('"' :: (cs ++ ['"'])).length := by
      simp only [List.length_cons, List.length_append, List.length_nil]
      omega
    rw [hlen, h]
    rfl

/-! ## Tokens that can be written again -/

/-- The text of the token can be written so that it is read as this token. -/
def IsClean (t : Token) : Prop :=
  match t.kind with
  | .number => IsNumberText t.value.toList
  | .word => IsWordText t.value.toList
  | .square => IsNameText t.value.toList
  | .text => '"' ∉ t.value.toList
  | .symbol | .finish => True

theorem not_mem_of_cut? {sep : Char} {cs before after : List Char}
    (h : cut? sep cs = some (before, after)) : sep ∉ before := by
  induction cs generalizing before with
  | nil => cases h
  | cons c cs ih =>
    rw [cut?] at h
    split at h
    · cases h
      exact List.not_mem_nil
    · next hne =>
      obtain ⟨p, hp, heq⟩ := Option.map_eq_some_iff.1 h
      cases heq
      rw [List.mem_cons, not_or]
      exact ⟨Ne.symm hne, ih hp⟩

/-- What is left of a text without leading blanks has none either. -/
theorem dropWhile_of_prefix {p : Char → Bool} {cs ds : List Char} (h : cs <+: ds)
    (hd : ds.dropWhile p = ds) : cs.dropWhile p = cs := by
  obtain ⟨rest, rfl⟩ := h
  cases cs with
  | nil => rfl
  | cons c cs =>
    cases hp : p c with
    | false => exact List.dropWhile_cons_of_neg (Bool.eq_false_iff.1 hp)
    | true =>
      rw [List.cons_append, List.dropWhile_cons_of_pos hp] at hd
      have hlen := congrArg List.length hd
      have := length_dropWhile_le p (cs ++ rest)
      rw [List.length_cons] at hlen
      omega

theorem stripList_stripList (cs : List Char) : stripList (stripList cs) = stripList cs := by
  have hpre : stripList cs <+: cs.dropWhile isBlank := by
    rw [stripList, ← List.reverse_suffix, List.reverse_reverse]
    exact List.dropWhile_suffix _
  have hfront := dropWhile_of_prefix hpre (List.dropWhile_idempotent _ cs)
  rw [stripList, hfront, stripList, List.reverse_reverse, List.dropWhile_idempotent]

theorem mem_stripList {c : Char} {cs : List Char} (h : c ∈ stripList cs) : c ∈ cs := by
  have h := (List.dropWhile_sublist _).mem (List.mem_reverse.1 h)
  exact (List.dropWhile_sublist _).mem (List.mem_reverse.1 h)

theorem isNumberText_of_numberExtent {c : Char} {cs read rest : List Char}
    (hb : isBlank c = false) (hs : startsNumber (c :: cs) = true)
    (he : numberExtent (c :: cs) = .ok (read, rest)) : IsNumberText read := by
  have hlen := length_of_numberExtent hs he
  have happend := append_numberExtent he
  cases read with
  | nil =>
    rw [List.nil_append] at happend
    rw [happend, List.length_cons] at hlen
    omega
  | cons d read =>
    cases happend
    refine ⟨c, read, rfl, hb, ?_⟩
    rw [startsNumber, Bool.or_eq_true, Bool.and_eq_true, beq_iff_eq] at hs
    exact hs.symm.imp_left And.left

theorem isWordText_takeWhile {c : Char} {cs : List Char} (hb : ¬ isBlank c = true) (hh : c ≠ '#')
    (hn : ¬ startsNumber (c :: cs) = true) (hs : isWordStart c = true) :
    IsWordText (c :: cs.takeWhile isWordChar) := by
  have hword := isWordChar_of_isWordStart hs
  have hdigit : isDigit c = false := by
    rw [Bool.eq_false_iff]
    intro hd
    rw [startsNumber, hd, Bool.true_or] at hn
    exact hn rfl
  have hpoint : c ≠ '.' := by
    rintro rfl
    rw [isWordStart_of_isMark (by decide)] at hs
    cases hs
  refine ⟨⟨c, _, rfl, hs, hdigit, Bool.eq_false_iff.2 hb, hh, hpoint⟩, ?_⟩
  refine List.forall_mem_cons.2 ⟨hword, fun d hd => ?_⟩
  exact List.all_eq_true.1 (List.all_takeWhile) d hd

theorem isNameText_stripList {cs : List Char} :
    IsNameText (stripList (cs.takeWhile fun d => d != ']' && d != '[')) := by
  refine ⟨fun c hc => ?_, stripList_stripList _⟩
  have hp := List.all_eq_true.1 (List.all_takeWhile) c (mem_stripList hc)
  rwa [Bool.and_eq_true, bne_iff_ne, bne_iff_ne] at hp

/-- **Every token that is read can be written again.** -/
theorem isClean_of_mem_tokensFrom {pos : Nat} {cs : List Char} {tokens : List Token}
    (h : tokensFrom pos cs = .ok tokens) : ∀ t ∈ tokens, t.IsClean := by
  fun_induction tokensFrom pos cs generalizing tokens with
  | case1 =>
    cases h
    exact List.forall_mem_singleton.2 trivial
  | case2 | case4 =>
    rename_i ih
    exact ih h
  | case3 | case5 | case8 | case9 | case11 | case15 => cases h
  | case6 pos c cs hblank hhash hnumber read rest hext ih =>
    obtain ⟨ts, hts, ht⟩ := bind_eq_ok.1 h
    cases ht
    refine List.forall_mem_cons.2 ⟨?_, ih hts⟩
    show IsNumberText _
    rw [String.toList_ofList]
    exact isNumberText_of_numberExtent (Bool.eq_false_iff.2 hblank) hnumber hext
  | case7 =>
    rename_i hblank hhash hnumber hstart read ih
    obtain ⟨ts, hts, ht⟩ := bind_eq_ok.1 h
    cases ht
    refine List.forall_mem_cons.2 ⟨?_, ih hts⟩
    show IsWordText _
    rw [String.toList_ofList]
    exact isWordText_takeWhile hblank hhash hnumber hstart
  | case10 =>
    rename_i ih
    obtain ⟨ts, hts, ht⟩ := bind_eq_ok.1 h
    cases ht
    refine List.forall_mem_cons.2 ⟨?_, ih hts⟩
    show IsNameText _
    rw [String.toList_ofList]
    exact isNameText_stripList
  | case12 pos cs inside rest hcut =>
    rename_i ih
    obtain ⟨ts, hts, ht⟩ := bind_eq_ok.1 h
    cases ht
    refine List.forall_mem_cons.2 ⟨?_, ih hts⟩
    show '"' ∉ _
    rw [String.toList_ofList]
    exact not_mem_of_cut? hcut
  | case13 | case14 =>
    rename_i ih
    obtain ⟨ts, hts, ht⟩ := bind_eq_ok.1 h
    cases ht
    exact List.forall_mem_cons.2 ⟨trivial, ih hts⟩

end ModelInputs.Token
