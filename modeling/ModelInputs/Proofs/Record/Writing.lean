import Mathlib.Data.List.Basic
import ModelInputs.Record.Token

/-!
# Writing tokens and reading them again

Tokens are written with blanks between them, so each of them is read on its own. A token between
quotes comes back as it is, and one without quotes is cut at its line breaks, which are not among
the characters that call for quotes. No token that is read holds a quote.

* `HasQuote`, `HasLineBreak`, `HasDivider`: the characters that matter;
* `closes`, `IsClosed`, `tokenize_append`: what leaves nothing open is read on its own in front of a
  blank;
* `tokenize_formatTokens_eq_flatMap`: written tokens are read one by one;
* `filter_tokenize_formatToken`: line breaks come back in tokens between quotes only;
* **`tokenize_formatTokens_exact`**: the lists of tokens that come back as they are.
-/

namespace ModelInputs.Record

/-! ## Characters of tokens -/

/-- The token holds a quote. -/
def HasQuote (token : String) : Prop :=
  '\'' ∈ token.toList

/-- The token holds a character that ends a line. -/
def HasLineBreak (token : String) : Prop :=
  '\r' ∈ token.toList ∨ '\n' ∈ token.toList

/-- The token holds a space, a tab, a brace or a double quote. -/
def HasDivider (token : String) : Prop :=
  ∃ c ∈ token.toList, c ∈ [' ', '\t', '\x7b', '\x7d', '"']

instance (token : String) : Decidable (HasQuote token) :=
  inferInstanceAs (Decidable (_ ∈ _))

instance (token : String) : Decidable (HasLineBreak token) :=
  inferInstanceAs (Decidable (_ ∨ _))

instance (token : String) : Decidable (HasDivider token) :=
  inferInstanceAs (Decidable (∃ c ∈ _, _))

/-- A token with line breaks is not empty, so it needs quotes exactly if it holds a divider. -/
theorem needsQuoting_iff_of_hasLineBreak {t : String} (h : HasLineBreak t) :
    needsQuoting t = true ↔ HasDivider t := by
  have hne : t ≠ "" := by
    rintro rfl
    rcases h with h | h <;> cases h
  have hd : ∀ c : Char,
      (c == ' ' || c == '\t' || isBraceChar c || c == '"') = true ↔
        c ∈ [' ', '\t', '\x7b', '\x7d', '"'] := by
    intro c
    simp [isBraceChar, or_assoc]
  rw [needsQuoting, Bool.or_eq_true, beq_iff_eq, or_iff_right hne, List.any_eq_true]
  simp only [hd, HasDivider]

/-- Without quotes, braces and double quotes a character separates tokens or belongs to one. -/
theorem isSeparator_or_isPlain {c : Char} (hq : c ≠ '\'') (hb : isBraceChar c = false)
    (hd : c ≠ '"') : isSeparator c = true ∨ isPlain c = true := by
  cases hs : isSeparator c with
  | true => exact .inl rfl
  | false => simp [isPlain, hq, hb, hd, hs]

/-- A token that is written without quotes holds no double quote. -/
theorem not_mem_of_not_needsQuoting {t : String} (hn : needsQuoting t = false) :
    '"' ∉ t.toList := by
  rw [needsQuoting, Bool.or_eq_false_iff, List.any_eq_false] at hn
  intro hc
  exact hn.2 _ hc rfl

/-- A token that is written without quotes and has no line breaks is a word. -/
theorem all_isPlain_of_not_needsQuoting {t : String} (hq : ¬ HasQuote t) (hl : ¬ HasLineBreak t)
    (hn : needsQuoting t = false) : t.toList ≠ [] ∧ t.toList.all isPlain = true := by
  have hd := not_mem_of_not_needsQuoting hn
  rw [needsQuoting, Bool.or_eq_false_iff, beq_eq_false_iff_ne, List.any_eq_false] at hn
  refine ⟨fun h => hn.1 (String.toList_inj.1 h), List.all_eq_true.2 fun c hc => ?_⟩
  have hc' := hn.2 c hc
  simp only [Bool.or_eq_true, beq_iff_eq, not_or, Bool.not_eq_true] at hc'
  have hquote : c ≠ '\'' := by
    rintro rfl
    exact hq hc
  obtain hs | hp := isSeparator_or_isPlain hquote hc'.1.2 hc'.2
  · simp only [isSeparator, Bool.or_eq_true, beq_iff_eq] at hs
    obtain ((hs | hs) | rfl) | rfl := hs
    · exact absurd hs hc'.1.1.1
    · exact absurd hs hc'.1.1.2
    · exact absurd (.inl hc) hl
    · exact absurd (.inr hc) hl
  · exact hp

/-! ## Scanning -/

/-- The characters so far of the token that is being read. -/
def Reading.read : Reading → List Char
  | .gap => []
  | .word read => read
  | .quoted read => read

/-- A quoted token is being read. -/
def Reading.isQuoted : Reading → Bool
  | .quoted _ => true
  | _ => false

/-- The reading outside quotes once a plain character is added. -/
def Reading.push (c : Char) : Reading → Reading
  | .word read => .word (c :: read)
  | _ => .word [c]

theorem scan_quoted_cons (read : List Char) (c : Char) (cs : List Char) :
    scan (.quoted read) (c :: cs) =
      if c = '\'' then String.ofList read.reverse :: scan .gap cs
      else scan (.quoted (c :: read)) cs := by
  rw [scan]
  rfl

theorem scan_cons {state : Reading} (hs : state.isQuoted = false) (c : Char) (cs : List Char) :
    scan state (c :: cs) =
      if c = '\'' then state.token ++ scan (.quoted []) cs
      else if c = '"' then state.token
      else if isBraceChar c then state.token ++ String.singleton c :: scan .gap cs
      else if isSeparator c then state.token ++ scan .gap cs
      else scan (state.push c) cs := by
  cases state with
  | gap => rfl
  | word read => rfl
  | quoted read => cases hs

theorem scan_nil (state : Reading) : scan state [] = state.token := by
  cases state <;> rfl

theorem mem_token {state : Reading} {t : String} (ht : t ∈ state.token) :
    ∀ c ∈ t.toList, c ∈ state.read := by
  cases state with
  | gap => cases ht
  | word read | quoted read =>
    rw [List.mem_singleton.1 ht, String.toList_ofList]
    exact fun c => List.mem_reverse.1

/-- The characters leave no quote open and start no comment, where they stand behind an open quote or
not. -/
def closes : Bool → List Char → Bool
  | quoted, [] => !quoted
  | true, c :: cs => closes (c != '\'') cs
  | false, c :: cs => if c = '\'' then closes true cs else c != '"' && closes false cs

/-- What stands in front of a blank is read on its own, if no quote is left open and no comment
started there. -/
theorem scan_append_of_closes (state : Reading) {cs : List Char}
    (h : closes state.isQuoted cs = true) (rest : List Char) :
    scan state (cs ++ ' ' :: rest) = scan state cs ++ scan .gap rest := by
  induction cs generalizing state with
  | nil =>
    have hs : state.isQuoted = false := by simpa [closes] using h
    rw [List.nil_append, scan_cons hs, scan_nil]
    rfl
  | cons c cs ih =>
    cases state with
    | quoted read =>
      replace h : closes true (c :: cs) = true := h
      rw [closes] at h
      rw [List.cons_append, scan_quoted_cons, scan_quoted_cons]
      split
      · next hc =>
        rw [hc] at h
        rw [ih .gap h, List.cons_append]
      · next hc =>
        rw [bne_iff_ne.2 hc] at h
        exact ih (.quoted (c :: read)) h
    | gap | word read =>
      replace h : closes false (c :: cs) = true := h
      rw [closes] at h
      rw [List.cons_append, scan_cons rfl, scan_cons rfl]
      split
      · next hc =>
        rw [if_pos hc] at h
        rw [ih (.quoted []) h, List.append_assoc]
      next hc =>
      rw [if_neg hc, Bool.and_eq_true, bne_iff_ne] at h
      have hgap := ih .gap h.2
      rw [if_neg h.1, if_neg h.1]
      split
      · rw [hgap, List.append_assoc, List.cons_append]
      split
      · rw [hgap, List.append_assoc]
      · exact ih _ h.2

/-- Characters without quotes and double quotes leave nothing open. -/
theorem closes_of_not_mem {cs : List Char} (hq : '\'' ∉ cs) (hd : '"' ∉ cs) :
    closes false cs = true := by
  induction cs with
  | nil => rfl
  | cons c cs ih =>
    rw [List.mem_cons, not_or] at hq hd
    rw [closes, if_neg (Ne.symm hq.1), Bool.and_eq_true, bne_iff_ne]
    exact ⟨Ne.symm hd.1, ih hq.2 hd.2⟩

/-- Every quote of the record is closed again, and no double quote outside quotes starts a
comment. -/
def IsClosed (record : String) : Prop :=
  closes false record.toList = true

instance (record : String) : Decidable (IsClosed record) :=
  inferInstanceAs (Decidable (_ = _))

/-- A record that leaves nothing open is read on its own in front of a blank. -/
theorem tokenize_append {record : String} (h : IsClosed record) (record' : String) :
    tokenize (record ++ " " ++ record') = tokenize record ++ tokenize record' := by
  have hchars : (record ++ " " ++ record').toList =
      record.toList ++ ' ' :: record'.toList := by
    simp
  rw [tokenize, hchars]
  exact scan_append_of_closes .gap h _

/-- Tokens consist of characters with a property if those outside quotes have it that separate
nothing, and those within quotes if there are any. -/
theorem forall_mem_scan {P : Char → Prop}
    (hplain : ∀ c, c ≠ '\'' → isSeparator c = false → P c) {state : Reading} {cs : List Char}
    (hread : ∀ c ∈ state.read, P c)
    (hquoted : state.isQuoted = true ∨ '\'' ∈ cs → ∀ c, c ≠ '\'' → P c) :
    ∀ t ∈ scan state cs, ∀ c ∈ t.toList, P c := by
  have htoken : ∀ {state : Reading}, (∀ c ∈ state.read, P c) →
      ∀ t ∈ state.token, ∀ c ∈ t.toList, P c :=
    fun hread t ht c hc => hread c (mem_token ht c hc)
  induction cs generalizing state with
  | nil =>
    rw [scan_nil]
    exact htoken hread
  | cons c cs ih =>
    cases hs : state.isQuoted with
    | true =>
      have hall := hquoted (.inl hs)
      obtain ⟨read, rfl⟩ : ∃ read, state = .quoted read := by
        cases state with
        | quoted read => exact ⟨read, rfl⟩
        | gap | word read => cases hs
      rw [scan_quoted_cons]
      split
      · exact List.forall_mem_cons.2
          ⟨htoken hread _ (List.mem_singleton_self _), ih nofun fun _ => hall⟩
      · next hc => exact ih (List.forall_mem_cons.2 ⟨hall c hc, hread⟩) fun _ => hall
    | false =>
      have hgap : ∀ t ∈ scan .gap cs, ∀ c ∈ t.toList, P c :=
        ih nofun fun h => hquoted (.inr (h.elim nofun (.tail c)))
      rw [scan_cons hs]
      split
      · next hc =>
        have hall := hquoted (.inr (hc ▸ List.mem_cons_self))
        exact List.forall_mem_append.2 ⟨htoken hread, ih nofun fun _ => hall⟩
      next hc =>
      split
      · exact htoken hread
      split
      · next hb =>
        have hsep : isSeparator c = false := by
          rw [isBraceChar, Bool.or_eq_true, beq_iff_eq, beq_iff_eq] at hb
          rcases hb with rfl | rfl <;> rfl
        refine List.forall_mem_append.2 ⟨htoken hread, List.forall_mem_cons.2 ⟨?_, hgap⟩⟩
        rw [String.toList_singleton]
        exact List.forall_mem_singleton.2 (hplain c hc hsep)
      split
      · exact List.forall_mem_append.2 ⟨htoken hread, hgap⟩
      · next hsep =>
        have hp : P c := hplain c hc (Bool.eq_false_iff.2 hsep)
        cases state with
        | gap =>
          exact ih (List.forall_mem_singleton.2 hp) fun h =>
            hquoted (.inr (h.elim nofun (.tail c)))
        | word read =>
          exact ih (List.forall_mem_cons.2 ⟨hp, hread⟩) fun h =>
            hquoted (.inr (h.elim nofun (.tail c)))
        | quoted read => cases hs

/-- No token that is read holds a quote. -/
theorem not_hasQuote_of_mem_tokenize {record t : String} (ht : t ∈ tokenize record) :
    ¬ HasQuote t := by
  have hne : ∀ c ∈ t.toList, c ≠ '\'' :=
    forall_mem_scan (P := (· ≠ '\'')) (fun _ h _ => h) (List.forall_mem_nil _)
      (fun _ _ h => h) t ht
  exact fun h => hne _ h rfl

/-- Outside quotes no line break comes into a token. -/
theorem not_hasLineBreak_of_mem_tokenize {record t : String} (hq : ¬ HasQuote record)
    (ht : t ∈ tokenize record) : ¬ HasLineBreak t := by
  have hsep : ∀ c ∈ t.toList, isSeparator c = false := by
    refine forall_mem_scan (fun _ _ h => h) (List.forall_mem_nil _) ?_ t ht
    rintro (h | h)
    · cases h
    · exact absurd h hq
  rintro (h | h)
  · exact absurd (hsep _ h) (by decide)
  · exact absurd (hsep _ h) (by decide)

/-! ## Written tokens -/

theorem formatToken_of_isBrace {t : String} (hb : isBrace t = true) : formatToken t = t := by
  rw [formatToken, if_pos hb]

theorem formatToken_of_not_needsQuoting {t : String} (hn : needsQuoting t = false) :
    formatToken t = t := by
  rw [formatToken, quoteIfNeeded, if_neg (Bool.eq_false_iff.1 hn), ite_self]

theorem formatToken_of_needsQuoting {t : String} (hq : ¬ HasQuote t) (hb : isBrace t = false)
    (hn : needsQuoting t = true) : formatToken t = "'" ++ t ++ "'" := by
  have : isQuoted t = false := by
    rw [isQuoted, Bool.and_eq_false_iff, Bool.and_eq_false_iff]
    refine .inl (.inr (beq_eq_false_iff_ne.2 fun h => hq ?_))
    exact List.mem_of_head? h
  rw [formatToken, if_neg (Bool.eq_false_iff.1 hb), quoteIfNeeded, if_pos hn, addQuotes,
    if_neg (Bool.eq_false_iff.1 this)]

/-- A token between quotes is read as it is, whatever stands behind it. -/
theorem scan_betweenQuotes {t : String} (hq : ¬ HasQuote t) (rest : List Char) :
    scan .gap (("'" ++ t ++ "'").toList ++ rest) = t :: scan .gap rest := by
  have hchars : ("'" ++ t ++ "'").toList ++ rest = '\'' :: (t.toList ++ '\'' :: rest) := by
    simp
  rw [hchars, scan_cons rfl, if_pos rfl, scan_quoted _ _ _ hq, scan_quoted_cons, if_pos rfl]
  simp [Reading.token]

/-- A written token is read on its own if a blank stands behind it. -/
theorem scan_formatToken_append {t : String} (hq : ¬ HasQuote t) (rest : List Char) :
    scan .gap ((formatToken t).toList ++ ' ' :: rest) =
      tokenize (formatToken t) ++ scan .gap rest := by
  have hplain (hf : formatToken t = t) (hd : '"' ∉ t.toList) :
      scan .gap ((formatToken t).toList ++ ' ' :: rest) =
        tokenize (formatToken t) ++ scan .gap rest := by
    rw [hf]
    exact scan_append_of_closes .gap (closes_of_not_mem hq hd) rest
  cases hb : isBrace t with
  | true =>
    refine hplain (formatToken_of_isBrace hb) ?_
    rw [isBrace, Bool.or_eq_true, beq_iff_eq, beq_iff_eq] at hb
    rcases hb with rfl | rfl <;> decide
  | false =>
    cases hn : needsQuoting t with
    | false =>
      exact hplain (formatToken_of_not_needsQuoting hn) (not_mem_of_not_needsQuoting hn)
    | true =>
      have hself := scan_betweenQuotes hq []
      rw [List.append_nil] at hself
      rw [formatToken_of_needsQuoting hq hb hn, tokenize, scan_betweenQuotes hq, hself,
        scan_cons rfl]
      rfl

/-- **Written tokens are read one by one.** -/
theorem tokenize_formatTokens_eq_flatMap {ts : List String} (hq : ∀ t ∈ ts, ¬ HasQuote t) :
    tokenize (formatTokens ts) = ts.flatMap fun t => tokenize (formatToken t) := by
  rw [tokenize, formatTokens, String.toList_intercalate]
  induction ts with
  | nil => rfl
  | cons t ts ih =>
    obtain ⟨ht, hts⟩ := List.forall_mem_cons.1 hq
    rw [List.flatMap_cons, ← ih hts]
    cases ts with
    | nil => simp [tokenize, scan_nil, Reading.token]
    | cons u us =>
      rw [List.map_cons, List.map_cons, List.map_cons, List.map_cons, List.intercalate_cons_cons,
        List.append_assoc]
      exact scan_formatToken_append ht _

/-- Plain characters are one word. -/
theorem scan_plain {cs : List Char} (hne : cs ≠ []) (h : cs.all isPlain = true) :
    scan .gap cs = [String.ofList cs] := by
  obtain ⟨c, cs, rfl⟩ := List.exists_cons_of_ne_nil hne
  rw [List.all_cons, Bool.and_eq_true] at h
  have hc := h.1
  simp only [isPlain, Bool.not_eq_true', Bool.or_eq_false_iff, beq_eq_false_iff_ne] at hc
  have hword := scan_word [c] cs [] h.2
  rw [List.append_nil] at hword
  rw [scan_cons rfl, if_neg hc.1.1.1, if_neg hc.1.1.2, if_neg (Bool.eq_false_iff.1 hc.2),
    if_neg (Bool.eq_false_iff.1 hc.1.2)]
  show scan (.word [c]) cs = _
  rw [hword, scan_nil, Reading.token]
  simp

/-- A token that is written between quotes if it has line breaks comes back as it is. -/
theorem tokenize_formatToken {t : String} (hq : ¬ HasQuote t)
    (hl : HasLineBreak t → HasDivider t) : tokenize (formatToken t) = [t] := by
  cases hb : isBrace t with
  | true =>
    rw [formatToken_of_isBrace hb]
    rw [isBrace, Bool.or_eq_true, beq_iff_eq, beq_iff_eq] at hb
    rcases hb with rfl | rfl <;> decide
  | false =>
    cases hn : needsQuoting t with
    | true =>
      have hself := scan_betweenQuotes hq []
      rw [List.append_nil] at hself
      rw [formatToken_of_needsQuoting hq hb hn, tokenize, hself]
      rfl
    | false =>
      have hbreak : ¬ HasLineBreak t := fun h =>
        absurd ((needsQuoting_iff_of_hasLineBreak h).2 (hl h)) (Bool.eq_false_iff.1 hn)
      obtain ⟨hne, hall⟩ := all_isPlain_of_not_needsQuoting hq hbreak hn
      rw [formatToken_of_not_needsQuoting hn, tokenize]
      rw [scan_plain hne hall, String.ofList_toList]

/-- The tokens with line breaks that a written token is read as: itself, if it needs quotes. -/
theorem filter_tokenize_formatToken {t : String} (hq : ¬ HasQuote t) :
    (tokenize (formatToken t)).filter (HasLineBreak ·) =
      if HasLineBreak t ∧ HasDivider t then [t] else [] := by
  by_cases hl : HasLineBreak t
  · by_cases hd : HasDivider t
    · rw [tokenize_formatToken hq fun _ => hd, if_pos ⟨hl, hd⟩]
      exact List.filter_cons_of_pos (decide_eq_true hl)
    · have hn : needsQuoting t = false :=
        Bool.eq_false_iff.2 fun h => hd ((needsQuoting_iff_of_hasLineBreak hl).1 h)
      rw [formatToken_of_not_needsQuoting hn, if_neg fun h => hd h.2, List.filter_eq_nil_iff]
      intro u hu h
      exact not_hasLineBreak_of_mem_tokenize hq hu (of_decide_eq_true h)
  · rw [tokenize_formatToken hq fun h => absurd h hl, if_neg fun h => hl h.1]
    exact List.filter_cons_of_neg fun h => hl (of_decide_eq_true h)

/-! ## Lists of tokens -/

/-- If written tokens come back as they are, those with line breaks have dividers. -/
theorem hasDivider_of_tokenize_formatTokens {ts : List String}
    (hq : ∀ t ∈ ts, ¬ HasQuote t) (h : tokenize (formatTokens ts) = ts) {t : String} (ht : t ∈ ts)
    (hl : HasLineBreak t) : HasDivider t := by
  -- the tokens with line breaks are the same on both sides, and on the left they have dividers
  have hfilter := congrArg (List.filter (HasLineBreak ·)) h
  rw [tokenize_formatTokens_eq_flatMap hq, List.filter_flatMap] at hfilter
  have hmem : t ∈ ts.flatMap fun u => (tokenize (formatToken u)).filter (HasLineBreak ·) := by
    rw [hfilter]
    exact List.mem_filter.2 ⟨ht, decide_eq_true hl⟩
  obtain ⟨u, hu, htu⟩ := List.mem_flatMap.1 hmem
  rw [filter_tokenize_formatToken (hq u hu)] at htu
  split at htu
  · next hd =>
    rw [List.mem_singleton.1 htu]
    exact hd.2
  · cases htu

theorem tokenize_formatTokens_iff (ts : List String) :
    tokenize (formatTokens ts) = ts ↔
      ∀ t ∈ ts, ¬ HasQuote t ∧ (HasLineBreak t → HasDivider t) := by
  constructor
  · intro h
    have hq : ∀ t ∈ ts, ¬ HasQuote t := by
      intro t ht
      rw [← h] at ht
      exact not_hasQuote_of_mem_tokenize ht
    exact fun t ht => ⟨hq t ht, hasDivider_of_tokenize_formatTokens hq h ht⟩
  · intro h
    rw [tokenize_formatTokens_eq_flatMap fun t ht => (h t ht).1]
    calc (ts.flatMap fun t => tokenize (formatToken t))
        = ts.flatMap fun t => [t] :=
          List.flatMap_congr fun t ht => tokenize_formatToken (h t ht).1 (h t ht).2
      _ = ts := List.flatMap_singleton' ts

/-- **Written tokens come back as they are if and only if none of them holds a quote, and those with
a line break hold a space, a tab, a brace or a double quote too.** Tokens that were read hold no
quotes, so for them the line breaks alone decide. -/
theorem tokenize_formatTokens_exact :
    (∀ ts : List String, tokenize (formatTokens ts) = ts ↔
      ∀ t ∈ ts, ¬ HasQuote t ∧ (HasLineBreak t → HasDivider t)) ∧
    ∀ record : String, (∀ t ∈ tokenize record, ¬ HasQuote t) ∧
      (tokenize (formatTokens (tokenize record)) = tokenize record ↔
        ∀ t ∈ tokenize record, HasLineBreak t → HasDivider t) := by
  refine ⟨tokenize_formatTokens_iff, fun record => ?_⟩
  have hq : ∀ t ∈ tokenize record, ¬ HasQuote t := fun _ => not_hasQuote_of_mem_tokenize
  refine ⟨hq, ?_⟩
  rw [tokenize_formatTokens_iff]
  exact ⟨fun h t ht => (h t ht).2, fun h t ht => ⟨hq t ht, h t ht⟩⟩

/-- A line break alone is no reason for quotes, so the token is cut there. -/
example : formatTokens ["a\nb"] = "a\nb" ∧ tokenize "a\nb" = ["a", "b"] := by decide

end ModelInputs.Record
