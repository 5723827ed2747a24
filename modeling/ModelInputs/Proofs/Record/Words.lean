import ModelInputs.Input.Text
import ModelInputs.Proofs.Record.TopLevel
import ModelInputs.Proofs.Record.Writing

/-!
# Words in groups

Values other than texts are written as words, with blanks between them and braces around the words
of each element of a list. Such a text has no quotes and no comment, so it is read word by word, and
its groups are read as they were written.

* `IsBare`: a text without quotes and comments, `IsBare.tokenize_intercalate`: read part by part;
* `IsWord`: a text that is one token, `tokenize_words`;
* `unitTokens`, `IsBare.tokenize_withUnit`: the unit of a quantity;
* `tokenize_bracedAll`: groups of words;
* **`exists_subArguments?_grouped`**: the groups of an argument list are read as they were written.
-/

namespace ModelInputs

namespace Record

/-! ## Texts without quotes -/

/-- The text holds no quotes and no comment. -/
structure IsBare (s : String) : Prop where
  quote : '\'' ∉ s.toList
  comment : '"' ∉ s.toList

/-- The SI unit as a token, if there is one. -/
def unitTokens (u : UnitType) : List String :=
  if u.hasUnit then [u.siUnit] else []

namespace IsBare

variable {s t : String}

theorem append (hs : IsBare s) (ht : IsBare t) : IsBare (s ++ t) where
  quote := by
    rw [String.toList_append, List.mem_append, not_or]
    exact ⟨hs.quote, ht.quote⟩
  comment := by
    rw [String.toList_append, List.mem_append, not_or]
    exact ⟨hs.comment, ht.comment⟩

theorem blank : IsBare " " :=
  ⟨by decide, by decide⟩

theorem isClosed (hs : IsBare s) : IsClosed s :=
  closes_of_not_mem hs.quote hs.comment

theorem intercalate {ss : List String} (h : ∀ s ∈ ss, IsBare s) :
    IsBare (" ".intercalate ss) := by
  match ss with
  | [] => exact ⟨by decide, by decide⟩
  | [s] =>
    rw [String.intercalate_singleton]
    exact h s (.head _)
  | s :: t :: ss =>
    obtain ⟨hs, hrest⟩ := List.forall_mem_cons.1 h
    rw [String.intercalate_cons_cons]
    exact (hs.append blank).append (intercalate hrest)

theorem tokenize_intercalate {ss : List String} (h : ∀ s ∈ ss, IsBare s) :
    tokenize (" ".intercalate ss) = ss.flatMap tokenize := by
  match ss with
  | [] => rfl
  | [s] => rw [String.intercalate_singleton, List.flatMap_singleton]
  | s :: t :: ss =>
    obtain ⟨hs, hrest⟩ := List.forall_mem_cons.1 h
    rw [String.intercalate_cons_cons, tokenize_append hs.isClosed, tokenize_intercalate hrest]
    exact List.flatMap_cons.symm

/-- The unit of a quantity is a token of its own. -/
theorem tokenize_withUnit (hs : IsBare s) (u : UnitType) :
    tokenize (withUnit s u) = tokenize s ++ unitTokens u := by
  have hunit : ∀ u ∈ UnitType.all, u.hasUnit = true →
      tokenize (" " ++ u.siUnit) = [u.siUnit] := by
    decide
  unfold withUnit unitTokens
  split
  · next hu =>
    have hblanks : s ++ "  " ++ u.siUnit = s ++ " " ++ (" " ++ u.siUnit) := by
      rw [← String.toList_inj]
      simp
    rw [hblanks, tokenize_append hs.isClosed, hunit u u.mem_all hu]
  · exact (List.append_nil _).symm

end IsBare

/-! ## Words -/

theorem not_isPlain_iff {c : Char} :
    isPlain c = false ↔ c ∈ ['\'', '"', ' ', '\t', '\r', '\n', '\x7b', '\x7d'] := by
  simp only [isPlain, isSeparator, isBraceChar, Bool.not_eq_false', Bool.or_eq_true, beq_iff_eq,
    List.mem_cons, List.not_mem_nil, or_false, or_assoc]

/-- The text is one token. -/
structure IsWord (s : String) : Prop where
  ne_nil : s.toList ≠ []
  plain : s.toList.all isPlain = true

namespace IsWord

variable {s : String}

theorem isBare (h : IsWord s) : IsBare s where
  quote hmem := absurd (List.all_eq_true.1 h.plain _ hmem) (by decide)
  comment hmem := absurd (List.all_eq_true.1 h.plain _ hmem) (by decide)

theorem tokenize_eq (h : IsWord s) : tokenize s = [s] := by
  rw [tokenize, scan_plain h.ne_nil h.plain, String.ofList_toList]

theorem not_isBrace (h : IsWord s) : isBrace s = false := by
  rw [isBrace, Bool.or_eq_false_iff, beq_eq_false_iff_ne, beq_eq_false_iff_ne]
  constructor
  · rintro rfl
    exact absurd h.plain (by decide)
  · rintro rfl
    exact absurd h.plain (by decide)

end IsWord

/-- **Words are read one by one.** -/
theorem tokenize_words {ss : List String} (h : ∀ s ∈ ss, IsWord s) :
    tokenize (" ".intercalate ss) = ss := by
  rw [IsBare.tokenize_intercalate fun s hs => (h s hs).isBare]
  calc ss.flatMap tokenize
      = ss.flatMap fun s => [s] := List.flatMap_congr fun s hs => (h s hs).tokenize_eq
    _ = ss := List.flatMap_singleton' ss

/-! ## Groups of words -/

theorem IsBare.braced {s : String} (hs : IsBare s) : IsBare (braced s) :=
  (IsBare.append ⟨by decide, by decide⟩ hs).append ⟨by decide, by decide⟩

theorem IsBare.tokenize_braced {s : String} (hs : IsBare s) :
    tokenize (ModelInputs.braced s) = "\x7b" :: tokenize s ++ ["\x7d"] := by
  have hblanks : ModelInputs.braced s = "\x7b" ++ " " ++ (s ++ " " ++ "\x7d") := by
    rw [ModelInputs.braced, ← String.toList_inj]
    simp
  have hopen : IsClosed "\x7b" := by decide
  rw [hblanks, tokenize_append hopen, tokenize_append hs.isClosed]
  rfl

theorem isBare_bracedAll {ss : List String} (h : ∀ s ∈ ss, IsBare s) : IsBare (bracedAll ss) :=
  .intercalate (List.forall_mem_map.2 fun s hs => (h s hs).braced)

/-- **Groups are read one by one.** -/
theorem tokenize_bracedAll {ss : List String} (h : ∀ s ∈ ss, IsBare s) :
    tokenize (bracedAll ss) = grouped (ss.map tokenize) := by
  rw [bracedAll, IsBare.tokenize_intercalate (List.forall_mem_map.2 fun s hs => (h s hs).braced),
    List.flatMap_map, grouped, List.flatMap_map]
  exact List.flatMap_congr fun s hs => (h s hs).tokenize_braced

/-- **Groups of words are read word by word.** -/
theorem tokenize_bracedAll_words {groups : List (List String)}
    (h : ∀ tokens ∈ groups, ∀ t ∈ tokens, IsWord t) :
    tokenize (bracedAll (groups.map (" ".intercalate ·))) = grouped groups := by
  have hbare : ∀ s ∈ groups.map (" ".intercalate ·), IsBare s :=
    List.forall_mem_map.2 fun tokens htokens =>
      .intercalate fun t ht => (h tokens htokens t ht).isBare
  have htokens : (groups.map (" ".intercalate ·)).map tokenize = groups := by
    rw [List.map_map]
    exact (List.map_congr_left fun tokens htokens => tokenize_words (h tokens htokens)).trans
      (List.map_id groups)
  rw [tokenize_bracedAll hbare, htokens]

/-! ## Reading groups back -/

/-- Words have matching braces. -/
theorem matched_words {tokens : List String} (h : ∀ t ∈ tokens, isBrace t = false) :
    Matched tokens := by
  induction tokens with
  | nil => exact matched_nil
  | cons token tokens ih =>
    obtain ⟨htoken, htokens⟩ := List.forall_mem_cons.1 h
    rw [matched_cons_iff htoken]
    exact ih htokens

theorem isBalanced_words {tokens : List String} (h : ∀ t ∈ tokens, isBrace t = false) :
    isBalanced tokens = true :=
  isBalanced_iff.2 (matched_words h)

theorem not_isBrace_unitTokens {u : UnitType} : ∀ t ∈ unitTokens u, isBrace t = false := by
  have hall : ∀ u ∈ UnitType.all, ∀ t ∈ unitTokens u, isBrace t = false := by
    decide
  exact hall u u.mem_all

/-- Groups of words, with words behind them, have matching braces. -/
theorem isBalanced_grouped_append {groups : List (List String)} {tokens : List String}
    (hgroups : ∀ group ∈ groups, ∀ t ∈ group, isBrace t = false)
    (htokens : ∀ t ∈ tokens, isBrace t = false) : isBalanced (grouped groups ++ tokens) = true := by
  have hmatched : Matched (grouped groups) :=
    matched_grouped fun group hgroup => matched_words (hgroups group hgroup)
  rw [isBalanced_iff, hmatched.append_iff]
  exact matched_words htokens

theorem isBalanced_grouped {groups : List (List String)}
    (h : ∀ group ∈ groups, ∀ t ∈ group, isBrace t = false) :
    isBalanced (grouped groups) = true :=
  isBalanced_iff.2 (matched_grouped fun group hgroup => matched_words (h group hgroup))

end Record

open Record

namespace Arguments

/-- **The groups of words of an argument list are read as they were written.** -/
theorem exists_subArguments?_grouped {a : Arguments} {groups : List (List String)}
    (hargs : a.args = grouped groups) (h : ∀ tokens ∈ groups, ∀ t ∈ tokens, isBrace t = false) :
    ∃ lists, a.subArguments? = .ok lists ∧ lists.map (·.args) = groups :=
  exists_subArguments? hargs fun tokens htokens => matched_words (h tokens htokens)

end Arguments

end ModelInputs
