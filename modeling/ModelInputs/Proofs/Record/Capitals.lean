import ModelInputs.Proofs.Record.Words
import ModelInputs.Text.Case

/-!
# Capitals and words

A text without quotes is read as words and lone braces. No letter has one of the characters that
separate, group, quote or comment tokens as its capital, and these are their own capitals, so a text
with the capitals of a word is a word.

* `isWord_or_isBrace`: the tokens of a text without quotes;
* `mem_upper_iff`: the characters that are not plain are the same in capitals;
* **`isWord_of_tokenize`**: a text that is read as one token with the same capitals is a word.
-/

namespace ModelInputs.Record

open Text

/-! ## Tokens outside quotes -/

/-- The reading is none of a quoted token, and the characters so far are plain. -/
def Reading.IsPlain : Reading → Prop
  | .gap => True
  | .word read => read ≠ [] ∧ read.all isPlain = true
  | .quoted _ => False

theorem Reading.IsPlain.isWord {state : Reading} (h : state.IsPlain) :
    ∀ t ∈ state.token, IsWord t := by
  cases state with
  | gap => exact List.forall_mem_nil _
  | word read =>
    refine List.forall_mem_singleton.2 ⟨?_, ?_⟩
    · rw [String.toList_ofList]
      exact fun hnil => h.1 (List.reverse_eq_nil_iff.1 hnil)
    · rw [String.toList_ofList, List.all_reverse]
      exact h.2
  | quoted => exact h.elim

theorem Reading.IsPlain.push {state : Reading} (h : state.IsPlain) {c : Char}
    (hc : isPlain c = true) : (state.push c).IsPlain := by
  cases state with
  | gap => exact ⟨List.cons_ne_nil _ _, List.all_eq_true.2 (List.forall_mem_singleton.2 hc)⟩
  | word read => exact ⟨List.cons_ne_nil _ _, by rw [List.all_cons, hc, h.2]; rfl⟩
  | quoted => exact h.elim

/-- What is read outside quotes are words and braces. -/
theorem isWord_or_isBrace_of_mem_scan {state : Reading} (hs : state.IsPlain) {cs : List Char}
    (hq : '\'' ∉ cs) : ∀ t ∈ scan state cs, IsWord t ∨ isBrace t = true := by
  have hunquoted : ∀ {state : Reading}, state.IsPlain → state.isQuoted = false := by
    intro state h
    cases state with
    | quoted => exact h.elim
    | _ => rfl
  induction cs generalizing state with
  | nil =>
    rw [scan_nil]
    exact fun t ht => .inl (hs.isWord t ht)
  | cons c cs ih =>
    rw [List.mem_cons, not_or] at hq
    have hgap : ∀ t ∈ scan .gap cs, IsWord t ∨ isBrace t = true := ih trivial hq.2
    have htoken : ∀ t ∈ state.token, IsWord t ∨ isBrace t = true :=
      fun t ht => .inl (hs.isWord t ht)
    rw [scan_cons (hunquoted hs), if_neg (Ne.symm hq.1)]
    by_cases hd : c = '"'
    · rwa [if_pos hd]
    rw [if_neg hd]
    by_cases hb : isBraceChar c = true
    · rw [if_pos hb]
      refine List.forall_mem_append.2 ⟨htoken, List.forall_mem_cons.2 ⟨.inr ?_, hgap⟩⟩
      rw [isBraceChar, Bool.or_eq_true, beq_iff_eq, beq_iff_eq] at hb
      rcases hb with rfl | rfl <;> rfl
    rw [if_neg hb]
    by_cases hsep : isSeparator c = true
    · rw [if_pos hsep]
      exact List.forall_mem_append.2 ⟨htoken, hgap⟩
    · rw [if_neg hsep]
      refine ih (hs.push ?_) hq.2
      simp [isPlain, Ne.symm hq.1, hd, hsep, hb]

/-- The tokens of a text without quotes are words and braces. -/
theorem isWord_or_isBrace {record t : String} (hq : ¬ HasQuote record)
    (ht : t ∈ tokenize record) : IsWord t ∨ isBrace t = true := by
  have hgap : Reading.gap.IsPlain := trivial
  exact isWord_or_isBrace_of_mem_scan hgap hq t ht

/-! ## Capitals -/

/-- The capitals of a run are letters or no ASCII characters. -/
theorem shift_of_mem_caseRuns {r : CaseRun} (hr : r ∈ caseRuns) {n : Nat}
    (hn : r.holds n = true) :
    (65 ≤ n + r.shift ∧ n + r.shift ≤ 90) ∨ 128 ≤ n + r.shift := by
  have hall : ∀ r ∈ caseRuns,
      (65 ≤ r.first + r.shift ∧ r.last + r.shift ≤ 90) ∨ 128 ≤ r.first + r.shift := by
    decide +kernel
  simp only [CaseRun.holds, Bool.and_eq_true, decide_eq_true_eq] at hn
  have hbounds := hall r hr
  omega

theorem isPlain_ofNat {n : Nat} (h : (65 ≤ n ∧ n ≤ 90) ∨ 128 ≤ n) :
    isPlain (Char.ofNat n) = true := by
  have hspecial : ∀ d ∈ ['\'', '"', ' ', '\t', '\r', '\n', '\x7b', '\x7d'],
      d.toNat ≠ 0 ∧ (d.toNat < 65 ∨ 90 < d.toNat) ∧ d.toNat < 128 := by
    -- member by member, for a statement on all characters could be decided on all of them
    simp only [List.mem_cons, forall_eq_or_imp, List.not_mem_nil, false_imp_iff, forall_const]
    decide
  rw [← Bool.not_eq_false, not_isPlain_iff]
  intro hmem
  have hd := hspecial _ hmem
  by_cases hn : n.isValidChar
  · rw [Char.ofNat, dif_pos hn] at hd
    have heq : (Char.ofNatAux n hn).toNat = n := rfl
    omega
  · rw [Char.ofNat, dif_neg hn] at hd
    exact hd.1 rfl

/-- The characters that are not plain are the capitals of themselves, and of no other character. -/
theorem mem_upperChar_iff {c d : Char} (hd : isPlain d = false) : d ∈ upperChar c ↔ c = d := by
  constructor
  · intro hmem
    have hne : ∀ n, (65 ≤ n ∧ n ≤ 90) ∨ 128 ≤ n → d ≠ Char.ofNat n := by
      rintro n hn rfl
      rw [isPlain_ofNat hn] at hd
      cases hd
    unfold upperChar at hmem
    split at hmem
    · next r hr =>
      have hholds : r.holds c.toNat = true := by
        simpa using List.find?_some hr
      have hshift := shift_of_mem_caseRuns (List.mem_of_find?_eq_some hr) hholds
      exact absurd (List.mem_singleton.1 hmem) (hne _ (by omega))
    · split at hmem
      · next p capitals hp =>
        have hall : ∀ p ∈ longCapitals, ∀ n ∈ p.2, (65 ≤ n ∧ n ≤ 90) ∨ 128 ≤ n := by
          decide +kernel
        obtain ⟨n, hn, rfl⟩ := List.mem_map.1 hmem
        exact absurd rfl (hne n (hall _ (List.mem_of_find?_eq_some hp) n hn))
      · exact (List.mem_singleton.1 hmem).symm
  · rintro rfl
    have hself : ∀ d ∈ ['\'', '"', ' ', '\t', '\r', '\n', '\x7b', '\x7d'], d ∈ upperChar d := by
      simp only [List.mem_cons, forall_eq_or_imp, List.not_mem_nil, false_imp_iff, forall_const]
      decide +kernel
    exact hself c (not_isPlain_iff.1 hd)

theorem mem_upper_iff {s : String} {d : Char} (hd : isPlain d = false) :
    d ∈ (upper s).toList ↔ d ∈ s.toList := by
  rw [upper, String.toList_ofList, List.mem_flatMap]
  simp only [mem_upperChar_iff hd, exists_eq_right]

/-- A text with the capitals of a word consists of plain characters. -/
theorem IsWord.all_isPlain_of_upper_eq {s t : String} (ht : IsWord t) (h : upper s = upper t) :
    s.toList.all isPlain = true := by
  refine List.all_eq_true.2 fun c hc => ?_
  by_contra hplain
  rw [Bool.not_eq_true] at hplain
  have hmem : c ∈ t.toList := by
    rwa [← mem_upper_iff hplain, ← h, mem_upper_iff hplain]
  rw [List.all_eq_true.1 ht.plain c hmem] at hplain
  cases hplain

/-- **A text that is read as one token which means it, up to capitals, is a word.** -/
theorem isWord_of_tokenize {s t : String} (hs : tokenize s = [t]) (ht : isBrace t = false)
    (h : s = t ∨ upper s = upper t) : IsWord s := by
  have hmem : t ∈ tokenize s := by
    rw [hs]
    exact List.mem_singleton_self t
  have hquote : ¬ HasQuote s := by
    intro hq
    refine not_hasQuote_of_mem_tokenize hmem ?_
    have hplain : isPlain '\'' = false := by decide
    obtain rfl | h := h
    · exact hq
    · rwa [HasQuote, ← mem_upper_iff hplain, ← h, mem_upper_iff hplain]
  have hword : IsWord t := by
    obtain hword | hbrace := isWord_or_isBrace hquote hmem
    · exact hword
    · rw [ht] at hbrace
      cases hbrace
  refine ⟨?_, hword.all_isPlain_of_upper_eq ?_⟩
  · intro hnil
    rw [tokenize, hnil] at hs
    cases hs
  · obtain rfl | h := h
    · rfl
    · exact h

end ModelInputs.Record
