import ModelInputs.Proofs.Printing.Lossless

/-!
# One number and its unit

A text that is read as one number holds this number with gaps around it. The name of a unit between
brackets can be written behind the text, and both are read one after the other. Unless there is a
comment in the text, the gaps are blanks.

* `tokensFrom_gap`, `isBlank_of_isGap`: gaps are skipped, and those without comments are blanks;
* `SingleNumber`, **`singleNumber_of_tokensFrom`**: the parts of a text that is read as one number;
* **`SingleNumber.lexes_unit`**: such a text is read with a unit behind it.
-/

namespace ModelInputs.Token

open Text Number

variable {pos : Nat} {cs gap : List Char}

/-! ## Gaps -/

theorem tokensFrom_gap (h : IsGap gap) (pos : Nat) (cs : List Char) :
    tokensFrom pos (gap ++ cs) = tokensFrom (pos + gap.length) cs := by
  induction h generalizing pos with
  | nil => rfl
  | @blank c gap hc _ ih =>
    rw [List.cons_append, tokensFrom, if_pos hc, ih, List.length_cons, Nat.add_assoc,
      Nat.add_comm 1]
  | @comment inside gap hi _ ih =>
    have hcut : cut? '#' (inside ++ '#' :: (gap ++ cs)) = some (inside, gap ++ cs) :=
      cut?_append hi
    rw [List.cons_append, List.append_assoc, List.cons_append, tokensFrom, if_neg (by decide),
      if_pos rfl]
    split
    · next heq => cases hcut.symm.trans heq
    · next heq =>
      cases hcut.symm.trans heq
      rw [ih]
      congr 1
      simp only [List.length_cons, List.length_append]
      omega

theorem lexes_gap (h : IsGap gap) (pos : Nat) : Lexes Anything pos gap [] := by
  intro rest us _ hus
  rw [tokensFrom_gap h]
  exact hus

/-- A gap without comments consists of blanks. -/
theorem isBlank_of_isGap (h : IsGap gap) (hcomment : '#' ∉ gap) : ∀ c ∈ gap, isBlank c = true := by
  induction h with
  | nil => exact fun _ => nofun
  | blank hc _ ih =>
    rw [List.mem_cons, not_or] at hcomment
    exact List.forall_mem_cons.2 ⟨hc, ih hcomment.2⟩
  | comment _ _ _ => exact absurd List.mem_cons_self hcomment

/-! ## Texts of one number -/

/-- The characters are a number with gaps around it. -/
structure SingleNumber (cs front number back : List Char) : Prop where
  eq : cs = front ++ (number ++ back)
  gap_front : IsGap front
  gap_back : IsGap back
  starts : IsNumberText number
  lexes : ∀ pos, Lexes EndsNumber pos number [⟨.number, String.ofList number, pos⟩]
  ends : EndsNumber back

/-- A token of a number is what the number at the front of the text reaches to. -/
theorem numberExtent_of_tokensFrom {c : Char} {m : String} {p : Nat} {ts : List Token}
    (hb : ¬ isBlank c = true) (hh : c ≠ '#')
    (h : tokensFrom pos (c :: cs) = .ok (⟨.number, m, p⟩ :: ts)) :
    startsNumber (c :: cs) = true ∧ ∃ rest, numberExtent (c :: cs) = .ok (m.toList, rest) := by
  rw [tokensFrom, if_neg hb, if_neg hh] at h
  split at h
  · next hs =>
    split at h
    · cases h
    · next heq =>
      obtain ⟨us, -, ht⟩ := bind_eq_ok.1 h
      cases ht
      rw [String.toList_ofList]
      exact ⟨hs, _, heq⟩
  -- in the other branches the token is of another kind
  split at h
  · obtain ⟨us, -, ht⟩ := bind_eq_ok.1 h
    cases ht
  split at h
  · dsimp only at h
    split at h
    · cases h
    split at h
    · cases h
    · obtain ⟨us, -, ht⟩ := bind_eq_ok.1 h
      cases ht
  split at h
  · split at h
    · cases h
    · obtain ⟨us, -, ht⟩ := bind_eq_ok.1 h
      cases ht
  split at h
  · obtain ⟨us, -, ht⟩ := bind_eq_ok.1 h
    cases ht
  split at h
  · obtain ⟨us, -, ht⟩ := bind_eq_ok.1 h
    cases ht
  · cases h

theorem IsGap.head (h : IsGap gap) : ∀ c ∈ gap.head?, isBlank c = true ∨ c = '#' := by
  cases h with
  | nil => exact nofun
  | blank hc _ =>
    rintro _ ⟨⟩
    exact .inl hc
  | comment _ _ =>
    rintro _ ⟨⟩
    exact .inr rfl

/-- A number does not go on in a gap, unless some blank is a digit. -/
theorem IsGap.endsNumber (h : IsGap gap) (hdigit : ∀ c ∈ gap.head?, isDigit c = false) :
    EndsNumber gap := by
  intro c hc
  have hgap := h.head c hc
  refine ⟨hdigit c hc, ?_, ?_, ?_⟩
  all_goals
    rintro rfl
    exact absurd hgap (by decide)

/-- **A text that is read as one number** is this number with gaps around it. -/
theorem singleNumber_of_tokensFrom {t finish : Token} (h : tokensFrom pos cs = .ok [t, finish])
    (ht : t.kind = .number) : ∃ front back, SingleNumber cs front t.value.toList back := by
  obtain ⟨kind, m, p⟩ := t
  cases ht
  obtain ⟨c, ds, hm, hb, hstart⟩ : IsNumberText m.toList :=
    (List.forall_mem_cons.1 (isClean_of_mem_tokensFrom h)).1
  cases laidOut_tokensFrom h with
  | @token _ front spelt back _ _ hfront _ _ hspelt hrest =>
    obtain ⟨-, rfl⟩ := hspelt
    cases hrest with
    | token _ _ _ _ hnone => cases hnone
    | finish hback =>
      have hblank : ¬ isBlank c = true := Bool.eq_false_iff.1 hb
      have hhash : c ≠ '#' := by
        rintro rfl
        exact absurd hstart (by decide)
      rw [tokensFrom_gap hfront, hm, List.cons_append] at h
      obtain ⟨hs, back', hext⟩ := numberExtent_of_tokensFrom hblank hhash h
      have happend := append_numberExtent hext
      rw [hm, List.cons_append, List.cons.injEq] at happend
      obtain rfl := List.append_cancel_left happend.2
      exact ⟨front, back', rfl, hfront, hback, ⟨c, ds, hm, hb, hstart⟩,
        lexes_readNumber hblank hhash hs hext, hback.endsNumber (head_numberExtent hext)⟩

theorem SingleNumber.head {front number back : List Char} (h : SingleNumber cs front number back) :
    ∃ c, cs.head? = some c ∧ (isBlank c = true ∨ c = '#' ∨ c = '.' ∨ isDigit c = true) := by
  rw [h.eq]
  cases hfront : front with
  | nil =>
    obtain ⟨c, rest, rfl, -, hc⟩ := h.starts
    exact ⟨c, rfl, .inr (.inr hc)⟩
  | cons c front' =>
    have hgap := h.gap_front.head c (by rw [hfront]; rfl)
    exact ⟨c, rfl, hgap.imp_right .inl⟩

/-- A unit can be written behind a number, and both are read. -/
theorem SingleNumber.lexes_unit {front number back name : List Char}
    (h : SingleNumber cs front number back) (hname : IsNameText name) (pos : Nat) :
    Lexes Anything pos (cs ++ '[' :: (name ++ [']']))
      [⟨.number, String.ofList number, pos + front.length⟩,
        ⟨.square, String.ofList name, pos + cs.length⟩] := by
  have hends (rest : List Char) : EndsNumber (back ++ ('[' :: (name ++ [']']) ++ rest)) := by
    intro c hc
    cases back with
    | nil =>
      cases hc
      decide
    | cons d back =>
      exact h.ends c hc
  have hsquare := lexes_square (pos + cs.length) hname
  rw [h.eq, List.length_append, List.length_append, ← Nat.add_assoc, ← Nat.add_assoc] at hsquare ⊢
  rw [List.append_assoc, List.append_assoc]
  refine (lexes_gap h.gap_front pos).append ?_ fun _ _ => trivial
  refine (h.lexes _).append ?_ ?_
  · exact (lexes_gap h.gap_back _).append hsquare fun _ _ => trivial
  · intro rest _
    rw [List.append_assoc]
    exact hends rest

end ModelInputs.Token
