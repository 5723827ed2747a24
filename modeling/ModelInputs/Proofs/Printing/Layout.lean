import Mathlib.Data.List.Chain
import ModelInputs.Proofs.Printing.Tokens

/-!
# Where tokens stand

The tokens of a text stand in it one behind another. Each is spelt out by the characters at its
position, and between two of them is nothing but blanks and whole comments, so the text is known
from its tokens up to these.

* `IsGap`: blanks and whole comments;
* `Token.IsSpeltAs`: the characters that spell a token, with their quotes or brackets;
* `LaidOut`: a text made of gaps and spelt tokens, from a position on;
* **`laidOut_tokensFrom`**: every text that is read is laid out as its tokens;
* `LaidOut.pairwise`, `LaidOut.getLast?`, `LaidOut.standsIn`, `LaidOut.follows`: the positions of
  the tokens, and what is at them and between them.
-/

namespace ModelInputs.Token

open Text

/-! ## Gaps and spellings -/

/-- Blanks, and comments that are closed. -/
inductive IsGap : List Char → Prop where
  | nil : IsGap []
  | blank {c : Char} {cs : List Char} (hc : isBlank c = true) (h : IsGap cs) : IsGap (c :: cs)
  | comment {inside cs : List Char} (hi : '#' ∉ inside) (h : IsGap cs) :
      IsGap ('#' :: (inside ++ '#' :: cs))

theorem IsGap.append {gap gap' : List Char} (h : IsGap gap) (h' : IsGap gap') :
    IsGap (gap ++ gap') := by
  induction h with
  | nil => exact h'
  | blank hc _ ih => exact .blank hc ih
  | comment hi _ ih =>
    rw [List.cons_append, List.append_assoc, List.cons_append]
    exact .comment hi ih

/-- The characters spell the token: its text, the text between quotes, or a text between brackets
that is the token's but for blanks around it. -/
def IsSpeltAs (t : Token) (cs : List Char) : Prop :=
  match t.kind with
  | .number | .word | .symbol => cs ≠ [] ∧ cs = t.value.toList
  | .square => ∃ inside, (∀ c ∈ inside, c ≠ ']' ∧ c ≠ '[') ∧ t.value.toList = stripList inside ∧
      cs = '[' :: (inside ++ [']'])
  | .text => '"' ∉ t.value.toList ∧ cs = '"' :: (t.value.toList ++ ['"'])
  | .finish => t.value = "" ∧ cs = []

theorem IsSpeltAs.length_pos {t : Token} {cs : List Char} (h : t.IsSpeltAs cs)
    (ht : t.kind ≠ .finish) : 0 < cs.length := by
  obtain ⟨kind, value, pos⟩ := t
  cases kind with
  | number | word | symbol => exact List.length_pos_iff.2 h.1
  | square =>
    obtain ⟨inside, -, -, rfl⟩ := h
    exact Nat.succ_pos _
  | text =>
    obtain ⟨-, rfl⟩ := h
    exact Nat.succ_pos _
  | finish => exact absurd rfl ht

/-! ## Texts that are laid out as tokens -/

/-- From a position on, the characters are the tokens with gaps between them, and a gap at the
end. -/
inductive LaidOut : Nat → List Char → List Token → Prop where
  | finish {pos : Nat} {gap : List Char} (hg : IsGap gap) :
      LaidOut pos gap [⟨.finish, "", pos + gap.length⟩]
  | token {pos : Nat} {gap spelt cs : List Char} {t : Token} {ts : List Token} (hg : IsGap gap)
      (ht : t.kind ≠ .finish) (hpos : t.pos = pos + gap.length) (hs : t.IsSpeltAs spelt)
      (h : LaidOut (t.pos + spelt.length) cs ts) : LaidOut pos (gap ++ (spelt ++ cs)) (t :: ts)

section LaidOut

variable {pos : Nat} {cs gap : List Char} {ts : List Token}

theorem LaidOut.behind (h : LaidOut (pos + gap.length) cs ts) (hg : IsGap gap) :
    LaidOut pos (gap ++ cs) ts := by
  cases h with
  | finish hg' =>
    rw [Nat.add_assoc, ← List.length_append]
    exact .finish (hg.append hg')
  | token hg' ht hpos hs h =>
    rw [← List.append_assoc]
    refine .token (hg.append hg') ht ?_ hs h
    rw [hpos, List.length_append, Nat.add_assoc]

/-- The text starts with a token. -/
theorem LaidOut.spelt {t : Token} {spelt : List Char} (ht : t.kind ≠ .finish) (hpos : t.pos = pos)
    (hs : t.IsSpeltAs spelt) (h : LaidOut (pos + spelt.length) cs ts) :
    LaidOut pos (spelt ++ cs) (t :: ts) := by
  subst hpos
  exact .token .nil ht rfl hs h

theorem append_of_cut? {sep : Char} {before after : List Char}
    (h : cut? sep cs = some (before, after)) : before ++ sep :: after = cs := by
  induction cs generalizing before with
  | nil => cases h
  | cons c cs ih =>
    rw [cut?] at h
    split at h
    · next heq =>
      cases h
      rw [heq, List.nil_append]
    · obtain ⟨p, hp, he⟩ := Option.map_eq_some_iff.1 h
      cases he
      rw [List.cons_append, ih hp]

theorem longSymbol?_eq_some {s : String} {rest : List Char} (h : longSymbol? cs = some (s, rest)) :
    ∃ c d, cs = c :: d :: rest ∧ s = String.ofList [c, d] ∧ s ∈ longSymbols := by
  unfold longSymbol? at h
  split at h
  · obtain ⟨hs, h⟩ := Option.ite_none_right_eq_some.1 h
    cases h
    exact ⟨_, _, rfl, rfl, List.contains_iff_mem.1 hs⟩
  · cases h

/-- What is read up to a mark stands in front of it. -/
theorem enclosed_of_cut? {mark : Char} {inside rest : List Char}
    (h : cut? mark cs = some (inside, rest)) (c : Char) :
    c :: cs = c :: (inside ++ [mark]) ++ rest := by
  rw [← append_of_cut? h, List.cons_append, List.append_assoc, List.singleton_append]

/-- What is read up to a bracket stands in front of a closing one, unless another one is opened. -/
theorem enclosed_of_dropWhile {d : Char} {rest : List Char}
    (h : cs.dropWhile (fun d => d != ']' && d != '[') = d :: rest) (hopen : d ≠ '[') :
    '[' :: cs = '[' :: (cs.takeWhile (fun d => d != ']' && d != '[') ++ [']']) ++ rest := by
  have hclose : d = ']' := by
    have hd : (d != ']' && d != '[') = false := by
      have hfirst := List.head?_dropWhile_not (fun d => d != ']' && d != '[') cs
      rwa [h] at hfirst
    rwa [bne_iff_ne.2 hopen, Bool.and_true, bne_eq_false_iff_eq] at hd
  subst hclose
  rw [List.cons_append, List.append_assoc, List.singleton_append, ← h,
    List.takeWhile_append_dropWhile]

theorem length_enclosed (pos : Nat) (c d : Char) (inside : List Char) :
    pos + (c :: (inside ++ [d])).length = pos + inside.length + 2 := by
  simp only [List.length_cons, List.length_append, List.length_nil]
  omega

/-- **A text that is read is laid out as its tokens.** -/
theorem laidOut_tokensFrom (h : tokensFrom pos cs = .ok ts) : LaidOut pos cs ts := by
  fun_induction tokensFrom pos cs generalizing ts with
  | case1 pos =>
    cases h
    exact .finish .nil
  | case2 pos c cs hblank ih => exact (ih h).behind (.blank hblank .nil)
  | case3 | case5 | case8 | case9 | case11 | case15 => cases h
  | case4 pos cs inside rest hcut _ ih =>
    have hgap : IsGap ('#' :: (inside ++ ['#'])) := .comment (not_mem_of_cut? hcut) .nil
    rw [enclosed_of_cut? hcut]
    refine LaidOut.behind ?_ hgap
    rw [length_enclosed]
    exact ih h
  | case6 pos c cs hblank hhash hnumber read rest hext ih =>
    obtain ⟨us, hus, ht⟩ := bind_eq_ok.1 h
    cases ht
    obtain ⟨d, ds, hread, -⟩ :=
      isNumberText_of_numberExtent (Bool.eq_false_iff.2 hblank) hnumber hext
    have hne : read ≠ [] := hread ▸ List.cons_ne_nil d ds
    rw [← append_numberExtent hext]
    have hspelt : IsSpeltAs ⟨.number, String.ofList read, pos⟩ read :=
      ⟨hne, String.toList_ofList.symm⟩
    exact .spelt TokenKind.noConfusion rfl hspelt (ih hus)
  | case7 pos c cs _ _ _ _ read =>
    rename_i ih
    obtain ⟨us, hus, ht⟩ := bind_eq_ok.1 h
    cases ht
    have hsplit : c :: cs = read ++ cs.dropWhile isWordChar :=
      congrArg (c :: ·) List.takeWhile_append_dropWhile.symm
    rw [hsplit]
    have hspelt : IsSpeltAs ⟨.word, String.ofList read, pos⟩ read :=
      ⟨List.cons_ne_nil _ _, String.toList_ofList.symm⟩
    exact .spelt TokenKind.noConfusion rfl hspelt (ih hus)
  | case10 pos cs inside d rest hrest hopen =>
    rename_i ih
    obtain ⟨us, hus, ht⟩ := bind_eq_ok.1 h
    cases ht
    have hinside : ∀ c ∈ inside, c ≠ ']' ∧ c ≠ '[' := by
      intro c hc
      have hp := List.all_eq_true.1 List.all_takeWhile c hc
      rwa [Bool.and_eq_true, bne_iff_ne, bne_iff_ne] at hp
    rw [enclosed_of_dropWhile hrest hopen]
    refine .spelt TokenKind.noConfusion rfl ⟨inside, hinside, String.toList_ofList, rfl⟩ ?_
    rw [length_enclosed]
    exact ih hus
  | case12 pos cs inside rest hcut _ _ _ _ _ ih =>
    obtain ⟨us, hus, ht⟩ := bind_eq_ok.1 h
    cases ht
    have hvalue : (String.ofList inside).toList = inside := String.toList_ofList
    have hspelt : IsSpeltAs ⟨.text, String.ofList inside, pos⟩ ('"' :: (inside ++ ['"'])) := by
      refine ⟨?_, ?_⟩
      · rw [hvalue]
        exact not_mem_of_cut? hcut
      · rw [hvalue]
    rw [enclosed_of_cut? hcut]
    refine .spelt TokenKind.noConfusion rfl hspelt ?_
    rw [length_enclosed]
    exact ih hus
  | case13 pos c cs _ _ _ _ _ _ s rest hlong ih =>
    obtain ⟨us, hus, ht⟩ := bind_eq_ok.1 h
    cases ht
    obtain ⟨c', d, hsplit, rfl, -⟩ := longSymbol?_eq_some hlong
    have hsplit : c :: cs = [c', d] ++ rest := hsplit
    rw [hsplit]
    have hspelt : IsSpeltAs ⟨.symbol, String.ofList [c', d], pos⟩ [c', d] :=
      ⟨List.cons_ne_nil _ _, String.toList_ofList.symm⟩
    exact .spelt TokenKind.noConfusion rfl hspelt (ih hus)
  | case14 pos c cs _ _ _ _ _ _ _ _ ih =>
    obtain ⟨us, hus, ht⟩ := bind_eq_ok.1 h
    cases ht
    have hspelt : IsSpeltAs ⟨.symbol, String.singleton c, pos⟩ [c] :=
      ⟨List.cons_ne_nil _ _, String.toList_ofList.symm⟩
    rw [← List.singleton_append]
    exact .spelt TokenKind.noConfusion rfl hspelt (ih hus)

/-! ## Positions and neighbours -/

/-- The token is spelt out at its position. -/
def StandsIn (source : List Char) (t : Token) : Prop :=
  ∃ spelt, t.IsSpeltAs spelt ∧ spelt <+: source.drop t.pos

/-- Between the spelt token and the position of the next one is a gap. -/
def Follows (source : List Char) (t next : Token) : Prop :=
  ∃ spelt gap, t.IsSpeltAs spelt ∧ IsGap gap ∧ spelt ++ gap <+: source.drop t.pos ∧
    next.pos = t.pos + spelt.length + gap.length

theorem LaidOut.front (h : LaidOut pos cs ts) :
    ∃ gap, IsGap gap ∧ gap <+: cs ∧ ∀ t ∈ ts.head?, t.pos = pos + gap.length := by
  cases h with
  | finish hg =>
    refine ⟨_, hg, List.prefix_refl _, ?_⟩
    rintro _ ⟨⟩
    rfl
  | token hg _ hpos _ _ =>
    refine ⟨_, hg, List.prefix_append _ _, ?_⟩
    rintro _ ⟨⟩
    exact hpos

theorem LaidOut.pos_le (h : LaidOut pos cs ts) : ∀ t ∈ ts, pos ≤ t.pos := by
  induction h with
  | finish _ => exact List.forall_mem_singleton.2 (Nat.le_add_right _ _)
  | token _ _ hpos _ _ ih =>
    refine List.forall_mem_cons.2 ⟨by omega, fun u hu => ?_⟩
    have := ih u hu
    omega

/-- **The positions of the tokens strictly increase.** -/
theorem LaidOut.pairwise (h : LaidOut pos cs ts) : ts.Pairwise fun t u => t.pos < u.pos := by
  induction h with
  | finish _ => exact List.pairwise_singleton _ _
  | token _ ht _ hs h ih =>
    refine List.pairwise_cons.2 ⟨fun u hu => ?_, ih⟩
    have := h.pos_le u hu
    have := hs.length_pos ht
    omega

/-- **The last token is at the end.** -/
theorem LaidOut.getLast? (h : LaidOut pos cs ts) :
    ts.getLast? = some ⟨.finish, "", pos + cs.length⟩ := by
  induction h with
  | finish _ => rfl
  | token _ _ hpos _ _ ih =>
    rw [List.getLast?_cons, ih, hpos]
    simp only [List.length_append, Option.getD_some]
    congr 2
    omega

theorem drop_append_append {before gap cs : List Char} {n : Nat}
    (hn : n = before.length + gap.length) : (before ++ (gap ++ cs)).drop n = cs := by
  rw [← List.append_assoc, List.drop_left']
  rw [hn, List.length_append]

/-- **Every token stands at its position**, whatever is written before the text. -/
theorem LaidOut.standsIn (h : LaidOut pos cs ts) {before : List Char} (hb : before.length = pos) :
    ∀ t ∈ ts, t.StandsIn (before ++ cs) := by
  induction h generalizing before with
  | finish _ => exact List.forall_mem_singleton.2 ⟨[], ⟨rfl, rfl⟩, List.nil_prefix⟩
  | @token _ gap spelt cs t _ _ _ hpos hs _ ih =>
    subst hb
    refine List.forall_mem_cons.2 ⟨⟨spelt, hs, ?_⟩, ?_⟩
    · rw [drop_append_append hpos]
      exact List.prefix_append _ _
    · rw [← List.append_assoc, ← List.append_assoc]
      refine ih ?_
      rw [List.length_append, List.length_append, hpos]

/-- **Between a token and the next one is a gap**, whatever is written before the text. -/
theorem LaidOut.follows (h : LaidOut pos cs ts) {before : List Char} (hb : before.length = pos) :
    ts.IsChain (Follows (before ++ cs)) := by
  induction h generalizing before with
  | finish _ => exact .singleton _
  | @token _ gap spelt cs t _ _ _ hpos hs h ih =>
    subst hb
    refine List.isChain_cons.2 ⟨fun u hu => ?_, ?_⟩
    · obtain ⟨gap', hg', hprefix, hfront⟩ := h.front
      refine ⟨spelt, gap', hs, hg', ?_, hfront u hu⟩
      rw [drop_append_append hpos]
      exact (List.prefix_append_right_inj spelt).2 hprefix
    · rw [← List.append_assoc, ← List.append_assoc]
      refine ih ?_
      rw [List.length_append, List.length_append, hpos]

end LaidOut

end ModelInputs.Token
