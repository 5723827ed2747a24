import ModelInputs.Proofs.Number.Reading

/-!
# Numbers between blanks

A text that is read as a number holds digits, points, signs, letters and underscores, and blanks in
front of these and behind them. So no other ASCII character is in it, and what stands between the
blanks is read as the same number.

* `isNumberChar`, **`isNumberChar_of_readFloat?`**: the characters of numbers;
* `asciiForm?_eq_mapM`, `trim_surrounded`: a text brought to ASCII, and one between blanks;
* **`readFloat?_of_surrounded`**: a number is read as the same without the blanks around it.
-/

namespace ModelInputs.Number

open Text

variable {cs ds : List Char} {c : Char} {x : Float}

/-! ## Characters of numbers -/

/-- A digit, a point, a sign, a letter or an underscore. -/
def isNumberChar (c : Char) : Bool :=
  isAsciiDigit c || c.isAlpha || ['+', '-', '.', '_'].contains c

theorem isNumberChar_of_isAsciiDigit (h : isAsciiDigit c = true) : isNumberChar c = true := by
  rw [isNumberChar, h]
  rfl

theorem isNumberChar_of_isAlpha (h : c.isAlpha = true) : isNumberChar c = true := by
  rw [isNumberChar, h, Bool.or_true]
  rfl

theorem isNumberChar_of_readSign (h : ∀ c ∈ (readSign cs).2, isNumberChar c = true) :
    ∀ c ∈ cs, isNumberChar c = true := by
  unfold readSign at h
  split at h
  · exact List.forall_mem_cons.2 ⟨by decide, h⟩
  · exact List.forall_mem_cons.2 ⟨by decide, h⟩
  · exact h

theorem isNumberChar_of_takeWhile (h : ∀ c ∈ cs.dropWhile isAsciiDigit, isNumberChar c = true) :
    ∀ c ∈ cs, isNumberChar c = true := by
  rw [← List.takeWhile_append_dropWhile (p := isAsciiDigit) (l := cs), List.forall_mem_append]
  exact ⟨fun c hc => isNumberChar_of_isAsciiDigit (List.mem_takeWhile_imp hc), h⟩

theorem isNumberChar_of_readExponent? {n : Int} (h : readExponent? cs = some n) :
    ∀ c ∈ cs, isNumberChar c = true := by
  cases cs with
  | nil => exact fun _ => nofun
  | cons e cs =>
    obtain ⟨hmark, -⟩ := Option.ite_none_right_eq_some.1 h
    rw [Bool.and_eq_true, Bool.and_eq_true, Bool.or_eq_true, beq_iff_eq, beq_iff_eq] at hmark
    obtain ⟨⟨he, -⟩, hdigits⟩ := hmark
    refine List.forall_mem_cons.2 ⟨?_, isNumberChar_of_readSign fun c hc => ?_⟩
    · obtain rfl | rfl := he <;> decide
    · exact isNumberChar_of_isAsciiDigit (List.all_eq_true.1 hdigits c hc)

theorem isNumberChar_of_readDecimal? {d : Decimal} (h : readDecimal? cs = some d) :
    ∀ c ∈ cs, isNumberChar c = true := by
  refine isNumberChar_of_takeWhile ?_
  unfold readDecimal? at h
  dsimp only at h
  obtain ⟨-, h⟩ := Option.ite_none_left_eq_some.1 h
  obtain ⟨n, hn, -⟩ := Option.map_eq_some_iff.1 h
  have hrest := isNumberChar_of_readExponent? hn
  split at hrest
  · next behind hpoint =>
    rw [hpoint]
    exact List.forall_mem_cons.2 ⟨by decide, isNumberChar_of_takeWhile hrest⟩
  · exact hrest

theorem isAlpha_of_toLower (h : c.toLower.isAlpha = true) : c.isAlpha = true := by
  unfold Char.toLower at h
  split at h
  · next hc => exact Bool.or_eq_true_iff.2 (.inl (decide_eq_true hc))
  · exact h

theorem isNumberChar_of_readWord? (h : readWord? cs = some x) :
    ∀ c ∈ cs, isNumberChar c = true := by
  have hletters : ∀ word ∈ ["inf", "infinity", "nan"], word.toList.all Char.isAlpha = true := by
    decide
  have hword : String.ofList (cs.map Char.toLower) ∈ ["inf", "infinity", "nan"] := by
    unfold readWord? at h
    dsimp only at h
    split at h
    · next hinf => simpa using hinf.imp_right .inl
    · obtain ⟨hnan, -⟩ := Option.ite_none_right_eq_some.1 h
      simp [hnan]
  intro c hc
  have hlower : c.toLower ∈ (String.ofList (cs.map Char.toLower)).toList := by
    rw [String.toList_ofList]
    exact List.mem_map_of_mem hc
  have halpha := List.all_eq_true.1 (hletters _ hword) _ hlower
  exact isNumberChar_of_isAlpha (isAlpha_of_toLower halpha)

theorem isNumberChar_of_dropUnderscores? {b : Bool} (h : dropUnderscores? b cs = some ds)
    (hds : ∀ c ∈ ds, isNumberChar c = true) : ∀ c ∈ cs, isNumberChar c = true := by
  fun_induction dropUnderscores? b cs generalizing ds with
  | case1 => exact fun _ => nofun
  | case2 b cs d hd ih => exact List.forall_mem_cons.2 ⟨by decide, ih h hds⟩
  | case3 | case4 => cases h
  | case5 b c cs _ ih =>
    obtain ⟨rest, hrest, rfl⟩ := Option.map_eq_some_iff.1 h
    obtain ⟨hc, hall⟩ := List.forall_mem_cons.1 hds
    exact List.forall_mem_cons.2 ⟨hc, ih hrest hall⟩

theorem toNat_of_isNumberChar (h : isNumberChar c = true) : 43 ≤ c.toNat ∧ c.toNat ≤ 122 := by
  rw [isNumberChar, Bool.or_eq_true, Bool.or_eq_true, List.contains_iff_mem] at h
  obtain (hdigit | halpha) | hsign := h
  · simp only [isAsciiDigit, Bool.and_eq_true, decide_eq_true_eq] at hdigit
    omega
  · obtain hupper | hlower := Bool.or_eq_true_iff.1 halpha
    · obtain ⟨hlow, hhigh⟩ := of_decide_eq_true hupper
      have hlow : 65 ≤ c.toNat := UInt32.le_iff_toNat_le.1 hlow
      have hhigh : c.toNat ≤ 90 := UInt32.le_iff_toNat_le.1 hhigh
      omega
    · obtain ⟨hlow, hhigh⟩ := Bool.and_eq_true_iff.1 hlower
      have hlow : 97 ≤ c.toNat := UInt32.le_iff_toNat_le.1 (of_decide_eq_true hlow)
      have hhigh : c.toNat ≤ 122 := UInt32.le_iff_toNat_le.1 (of_decide_eq_true hhigh)
      omega
  · have hsigns : (['+', '-', '.', '_'].all fun c => 43 ≤ c.toNat ∧ c.toNat ≤ 122) = true := by
      decide
    exact of_decide_eq_true (List.all_eq_true.1 hsigns c hsign)

/-! ## Texts in ASCII -/

/-- Blanks and other characters of ASCII stay as they are. -/
theorem asciiChar?_eq_some {d : Char} (hc : c.toNat < 128) (h : asciiChar? c = some d) :
    d = c := by
  by_cases hlt : c.toNat < 127
  · rw [asciiChar?, if_pos hlt] at h
    exact (Option.some.inj h).symm
  · have hdelete : c.toNat = '\x7f'.toNat := by
      show c.toNat = 127
      omega
    have hnone : asciiChar? '\x7f' = none := by decide
    rw [Char.toNat_inj.1 hdelete, hnone] at h
    cases h

theorem mem_of_mapM (h : cs.mapM asciiChar? = some ds) (hc : c.toNat < 128) (hmem : c ∈ cs) :
    c ∈ ds := by
  induction cs generalizing ds with
  | nil => cases hmem
  | cons d cs ih =>
    rw [List.mapM_cons] at h
    obtain ⟨d', hd, h⟩ := Option.bind_eq_some_iff.1 h
    obtain ⟨ds', hds, h⟩ := Option.bind_eq_some_iff.1 h
    cases h
    cases hmem with
    | head => exact asciiChar?_eq_some hc hd ▸ List.mem_cons_self
    | tail _ hmem => exact List.mem_cons_of_mem d' (ih hds hmem)

theorem mem_of_asciiForm? (h : asciiForm? cs = some ds) (hc : c.toNat < 128) (hmem : c ∈ cs) :
    c ∈ ds := by
  unfold asciiForm? at h
  split at h
  · exact Option.some.inj h ▸ hmem
  · exact mem_of_mapM h hc hmem

theorem mem_trim (hc : isAsciiBlank c = false) (hmem : c ∈ cs) : c ∈ trim cs := by
  have mem_dropWhile {cs : List Char} (hmem : c ∈ cs) : c ∈ cs.dropWhile isAsciiBlank := by
    rw [← List.takeWhile_append_dropWhile (p := isAsciiBlank) (l := cs), List.mem_append] at hmem
    refine hmem.resolve_left fun hblank => ?_
    rw [List.mem_takeWhile_imp hblank] at hc
    cases hc
  exact List.mem_reverse.2 (mem_dropWhile (List.mem_reverse.2 (mem_dropWhile hmem)))

/-- **A text that is read as a number** has in ASCII the characters of numbers and blanks only. -/
theorem isNumberChar_of_readFloat? {s : String} (h : readFloat? s = some x) (hc : c.toNat < 128)
    (hblank : isAsciiBlank c = false) (hmem : c ∈ s.toList) : isNumberChar c = true := by
  unfold readFloat? at h
  obtain ⟨ascii, hascii, h⟩ := Option.bind_eq_some_iff.1 h
  obtain ⟨plain, hplain, h⟩ := Option.bind_eq_some_iff.1 h
  have hunsigned : ∀ c ∈ (readSign plain).2, isNumberChar c = true := by
    dsimp only at h
    split at h
    · next hd => exact isNumberChar_of_readDecimal? hd
    · obtain ⟨y, hy, -⟩ := Option.bind_eq_some_iff.1 h
      exact isNumberChar_of_readWord? hy
  have hall := isNumberChar_of_dropUnderscores? hplain (isNumberChar_of_readSign hunsigned)
  exact hall c (mem_trim hblank (mem_of_asciiForm? hascii hc hmem))

/-! ## Blanks around a number -/

theorem isBlank_of_isNumberChar (h : isNumberChar c = true) : isBlank c = false := by
  have hblanks : ∀ r ∈ blanks, r.2 < 43 ∨ 122 < r.1 := by decide
  have hc := toNat_of_isNumberChar h
  rw [Bool.eq_false_iff]
  intro hb
  obtain ⟨r, hr, hle⟩ := inRanges_iff.1 hb
  have := hblanks r hr
  omega

/-- Where the delete character is not in it, a text is brought to ASCII character by character. -/
theorem asciiForm?_eq_mapM (h : '\x7f' ∉ cs) : asciiForm? cs = cs.mapM asciiChar? := by
  unfold asciiForm?
  split
  · next hascii =>
    induction cs with
    | nil => rfl
    | cons c cs ih =>
      rw [List.all_cons, Bool.and_eq_true, decide_eq_true_eq] at hascii
      rw [List.mem_cons, not_or] at h
      have hne : c.toNat ≠ '\x7f'.toNat := mt Char.toNat_inj.1 (Ne.symm h.1)
      have hlt : c.toNat < 127 := Nat.lt_of_le_of_ne (Nat.le_of_lt_succ hascii.1) hne
      rw [List.mapM_cons, ← ih h.2 hascii.2, asciiChar?, if_pos hlt]
      rfl
  · rfl

theorem isAsciiBlank_of_mapM (hcs : ∀ c ∈ cs, isBlank c = true)
    (hascii : ∀ c ∈ cs, c.toNat < 128 → isAsciiBlank c = true) (h : cs.mapM asciiChar? = some ds) :
    ∀ d ∈ ds, isAsciiBlank d = true := by
  induction cs generalizing ds with
  | nil =>
    cases h
    exact fun _ => nofun
  | cons c cs ih =>
    rw [List.forall_mem_cons] at hcs hascii
    rw [List.mapM_cons] at h
    obtain ⟨d, hd, h⟩ := Option.bind_eq_some_iff.1 h
    obtain ⟨ds', hds, h⟩ := Option.bind_eq_some_iff.1 h
    cases h
    refine List.forall_mem_cons.2 ⟨?_, ih hcs.2 hascii.2 hds⟩
    by_cases hc : c.toNat < 128
    · rw [asciiChar?_eq_some hc hd]
      exact hascii.1 hc
    · rw [asciiChar?, if_neg (by omega), if_pos hcs.1] at hd
      cases hd
      rfl

theorem trim_surrounded {before behind : List Char} (hb : ∀ c ∈ before, isAsciiBlank c = true)
    (hb' : ∀ c ∈ behind, isAsciiBlank c = true) : trim (before ++ (cs ++ behind)) = trim cs := by
  rw [trim, List.dropWhile_append_of_pos hb, List.dropWhile_append]
  split
  · next hnil =>
    rw [List.dropWhile_eq_nil_iff.2 hb', trim, List.isEmpty_iff.1 hnil]
  · have hreverse : ∀ c ∈ behind.reverse, isAsciiBlank c = true :=
      fun c hc => hb' c (List.mem_reverse.1 hc)
    rw [List.reverse_append, List.dropWhile_append_of_pos hreverse, trim]

/-- **A number is read as the same number without the blanks around it.** -/
theorem readFloat?_of_surrounded {before behind : List Char}
    (hb : ∀ c ∈ before, isBlank c = true) (hb' : ∀ c ∈ behind, isBlank c = true)
    (h : readFloat? (String.ofList (before ++ (cs ++ behind))) = some x) :
    readFloat? (String.ofList cs) = some x := by
  have hchar {c : Char} (hmem : c ∈ before ++ (cs ++ behind)) (hc : c.toNat < 128)
      (hblank : isAsciiBlank c = false) : isNumberChar c = true :=
    isNumberChar_of_readFloat? h hc hblank (String.toList_ofList.symm ▸ hmem)
  have hascii {c : Char} (hmem : c ∈ before ++ (cs ++ behind)) (hblank : isBlank c = true)
      (hc : c.toNat < 128) : isAsciiBlank c = true := by
    by_contra hno
    have := isBlank_of_isNumberChar (hchar hmem hc (Bool.eq_false_iff.2 hno))
    rw [hblank] at this
    cases this
  have hdelete : '\x7f' ∉ before ++ (cs ++ behind) := by
    intro hmem
    exact absurd (hchar hmem (by decide) (by decide)) (by decide)
  have hdelete' : '\x7f' ∉ cs :=
    fun hmem => hdelete (List.mem_append_right _ (List.mem_append_left _ hmem))
  unfold readFloat? at h ⊢
  rw [String.toList_ofList, asciiForm?_eq_mapM hdelete, List.mapM_append, List.mapM_append] at h
  rw [String.toList_ofList, asciiForm?_eq_mapM hdelete']
  obtain ⟨whole, hwhole, h⟩ := Option.bind_eq_some_iff.1 h
  obtain ⟨front, hfront, hwhole⟩ := Option.bind_eq_some_iff.1 hwhole
  obtain ⟨rest, hrest, hwhole⟩ := Option.bind_eq_some_iff.1 hwhole
  obtain ⟨ascii, hasciiForm, hrest⟩ := Option.bind_eq_some_iff.1 hrest
  obtain ⟨back, hback, hrest⟩ := Option.bind_eq_some_iff.1 hrest
  cases hrest
  cases hwhole
  have hfront := isAsciiBlank_of_mapM hb
    (fun c hc => hascii (List.mem_append_left _ hc) (hb c hc)) hfront
  have hback := isAsciiBlank_of_mapM hb'
    (fun c hc => hascii (List.mem_append_right _ (List.mem_append_right _ hc)) (hb' c hc)) hback
  rw [trim_surrounded hfront hback] at h
  rw [hasciiForm]
  exact h

end ModelInputs.Number
