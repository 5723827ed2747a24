import ModelInputs.Proofs.Record.Matching
import ModelInputs.Record.Item

/-!
# The grammar of records

A record is a sequence of items: a keyword with a group of tokens, or with a single one. Its tokens
are read item by item, and each item gives its keyword and its tokens. Where the braces match, no
group is cut short, so the only errors are a group without a keyword and a keyword without a value.

* `Item`, `Item.tokens`, `Item.arguments`: an item, the tokens that it is written as, and what it
  gives;
* `closeGroup_append`, `Matched.exists_group`: a group is read up to its own closing brace;
* `splitItems_tokens`, `splitItems_flatMap`: items are read one by one;
* `NoItem`, `splitItems_of_noItem`: what stands where an item should start, and its error;
* `exists_item`, `exists_items`: tokens with matching braces are items, up to what is none;
* `splitRecord?_eq_ok_iff`, `splitRecord?_eq_error_iff`, `splitRecord?_append`: what is accepted and
  what is refused, and records one behind the other;
* **`splitRecord?_exact`**: the token lists that are records, what they give, and the errors of the
  others.
-/

namespace ModelInputs.Record

/-! ## Items -/

/-- An item of a record: a keyword with a single token, or with the tokens of a group. -/
inductive Item where
  | single (keyword value : String) (isKeyword : isBrace keyword = false)
    (isValue : isBrace value = false)
  | braced (keyword : String) (args : List String) (isKeyword : isBrace keyword = false)
    (matched : Matched args)

namespace Item

/-- The tokens that an item is written as. -/
def tokens : Item → List String
  | single keyword value _ _ => [keyword, value]
  | braced keyword args _ _ => keyword :: "\x7b" :: args ++ ["\x7d"]

/-- The keyword of an item and the tokens that are given to it. -/
def arguments (origin : Option Origin) : Item → Arguments
  | single keyword value _ h => ⟨keyword, [value], origin, isBalanced_iff.2 <|
    (matched_cons_iff h).2 matched_nil⟩
  | braced keyword args _ h => ⟨keyword, args, origin, isBalanced_iff.2 h⟩

theorem length_tokens_pos (item : Item) : 0 < item.tokens.length := by
  cases item <;> simp [tokens]

theorem matched_tokens (item : Item) : Matched item.tokens := by
  cases item with
  | single keyword value hkeyword hvalue =>
    rw [tokens, matched_cons_iff hkeyword, matched_cons_iff hvalue]
    exact matched_nil
  | braced keyword args hkeyword hargs =>
    rw [tokens, List.cons_append, matched_cons_iff hkeyword, hargs.braced_iff]
    exact matched_nil

theorem matched_flatMap (items : List Item) : Matched (items.flatMap tokens) := by
  induction items with
  | nil => exact matched_nil
  | cons item items ih =>
    rw [List.flatMap_cons, item.matched_tokens.append_iff]
    exact ih

end Item

/-! ## Groups -/

/-- A group is read up to the closing brace behind tokens that close what they open. -/
theorem closeGroup_append {depth : Nat} {args : List String}
    (h : depthAfter? depth args = some 0) (rest : List String) :
    closeGroup depth (args ++ "\x7d" :: rest) = (args, rest) := by
  induction args generalizing depth with
  | nil =>
    cases h
    rw [List.nil_append, closeGroup, if_pos ⟨rfl, rfl⟩]
  | cons token args ih =>
    rw [List.cons_append, closeGroup]
    obtain rfl | rfl | hword := brace_cases token
    · rw [depthAfter?_open] at h
      simp [ih h]
    · cases depth with
      | zero => cases h
      | succ depth =>
        rw [depthAfter?_close] at h
        simp [ih h]
    · rw [depthAfter?_word _ _ hword] at h
      obtain ⟨hopen, hclose⟩ := ne_of_not_isBrace hword
      simp [hopen, hclose, ih h]

/-- Where the braces match, a group that is opened has its own closing brace. -/
theorem Matched.exists_group {tokens : List String} (h : Matched ("\x7b" :: tokens)) :
    ∃ args rest, tokens = args ++ "\x7d" :: rest ∧ Matched args ∧ Matched rest := by
  obtain ⟨trees, hleaf, hflatten⟩ := matched_iff_exists_flatten.1 h
  match trees, hleaf, hflatten with
  | .leaf token :: trees, hleaf, hflatten =>
    cases hflatten
    cases hleaf
  | .group items :: trees, hleaf, hflatten =>
    rw [noBraceLeaf, Tree.noBraceLeaf, Bool.and_eq_true] at hleaf
    rw [flatten, Tree.flatten, List.append_assoc, List.cons_append] at hflatten
    refine ⟨flatten items, flatten trees, (List.cons.inj hflatten).2.symm, ?_, ?_⟩
    · exact matched_iff_exists_flatten.2 ⟨items, hleaf.1, rfl⟩
    · exact matched_iff_exists_flatten.2 ⟨trees, hleaf.2, rfl⟩

theorem not_matched_close {tokens : List String} : ¬ Matched ("\x7d" :: tokens) := by
  rw [matched_iff_depthAfter?, depthAfter?_close_zero]
  exact nofun

/-! ## Reading items -/

section Reading

variable {origin : Option Origin}

theorem splitItems_nil : splitItems origin [] = .ok [] := by
  rw [splitItems]

/-- An item gives its keyword and its tokens, and what follows is read behind it. -/
theorem splitItems_tokens (item : Item) (rest : List String) :
    splitItems origin (item.tokens ++ rest) =
      (splitItems origin rest).map (item.arguments origin :: ·) := by
  cases item with
  | single keyword value hkeyword hvalue =>
    have hopen : value ≠ "\x7b" := (ne_of_not_isBrace hvalue).1
    have hmake := Arguments.make?_eq (isBalanced_iff.2 ((matched_cons_iff hvalue).2 matched_nil))
      keyword origin
    rw [Item.tokens, List.cons_append, List.cons_append, List.nil_append, splitItems,
      if_neg (by simp [hkeyword])]
    simp only [if_neg hopen, hmake, ok_bind]
    cases splitItems origin rest <;> rfl
  | braced keyword args hkeyword hargs =>
    have hmake := Arguments.make?_eq (isBalanced_iff.2 hargs) keyword origin
    have hgroup := closeGroup_append (matched_iff_depthAfter?.1 hargs) rest
    have htokens : (Item.braced keyword args hkeyword hargs).tokens ++ rest =
        keyword :: "\x7b" :: (args ++ "\x7d" :: rest) := by
      simp [Item.tokens]
    rw [htokens, splitItems, if_neg (by simp [hkeyword])]
    simp only [if_true, hgroup, hmake, ok_bind]
    cases splitItems origin rest <;> rfl

theorem splitItems_flatMap (items : List Item) (rest : List String) :
    splitItems origin (items.flatMap Item.tokens ++ rest) =
      (splitItems origin rest).map (items.map (·.arguments origin) ++ ·) := by
  induction items with
  | nil => cases h : splitItems origin rest <;> simp [h, Except.map]
  | cons item items ih =>
    rw [List.flatMap_cons, List.append_assoc, splitItems_tokens, ih]
    cases splitItems origin rest <;> rfl

/-- The tokens of items are read as these items. -/
theorem splitRecord?_flatMap (items : List Item) :
    splitRecord? (items.flatMap Item.tokens) origin = .ok (items.map (·.arguments origin)) := by
  have hread : splitItems origin (items.flatMap Item.tokens) =
      .ok (items.map (·.arguments origin) ++ []) := by
    rw [← List.append_nil (items.flatMap Item.tokens), splitItems_flatMap, splitItems_nil]
    rfl
  rw [splitRecord?, if_pos (isBalanced_iff.2 (Item.matched_flatMap items)), hread, List.append_nil]

/-! ## What is no item -/

/-- The error where no item starts: a group has no keyword, or the last keyword no value. -/
inductive NoItem (origin : Option Origin) : List String → InputError → Prop where
  | group (rest : List String) : NoItem origin ("\x7b" :: rest) ⟨.keywordExpected "\x7b", origin⟩
  | keyword {keyword : String} (h : isBrace keyword = false) :
    NoItem origin [keyword] ⟨.valueMissing keyword, origin⟩

theorem splitItems_of_noItem {rest : List String} {e : InputError} (h : NoItem origin rest e) :
    splitItems origin rest = .error e := by
  cases h with
  | group rest =>
    rw [splitItems.eq_def]
    exact if_pos rfl
  | keyword h => rw [splitItems, if_neg (by simp [h])]

/-- Tokens with matching braces start with an item, unless there are none or no item starts. -/
theorem exists_item (origin : Option Origin) {tokens : List String} (h : Matched tokens) :
    (tokens = [] ∨ ∃ e, NoItem origin tokens e) ∨
      ∃ (item : Item) (rest : List String), item.tokens ++ rest = tokens ∧ Matched rest := by
  match tokens, h with
  | [], _ => exact .inl (.inl rfl)
  | keyword :: tokens, h =>
    obtain rfl | rfl | hkeyword := brace_cases keyword
    · exact .inl (.inr ⟨_, .group tokens⟩)
    · exact absurd h not_matched_close
    rw [matched_cons_iff hkeyword] at h
    match tokens, h with
    | [], _ => exact .inl (.inr ⟨_, .keyword hkeyword⟩)
    | token :: tokens, h =>
      obtain rfl | rfl | hvalue := brace_cases token
      · obtain ⟨args, rest, rfl, hargs, hrest⟩ := h.exists_group
        exact .inr ⟨.braced keyword args hkeyword hargs, rest, by simp [Item.tokens], hrest⟩
      · exact absurd h not_matched_close
      · rw [matched_cons_iff hvalue] at h
        exact .inr ⟨.single keyword token hkeyword hvalue, tokens, rfl, h⟩

/-- Tokens with matching braces are items, up to where no item starts. -/
theorem exists_items (origin : Option Origin) {tokens : List String} (h : Matched tokens) :
    ∃ (items : List Item) (rest : List String), items.flatMap Item.tokens ++ rest = tokens ∧
      (rest = [] ∨ ∃ e, NoItem origin rest e) := by
  -- what stands behind an item is shorter than the whole
  induction hn : tokens.length using Nat.strong_induction_on generalizing tokens with
  | _ n ih =>
    obtain hend | ⟨item, rest, rfl, hrest⟩ := exists_item origin h
    · exact ⟨[], tokens, rfl, hend⟩
    have hlength : rest.length < n := by
      rw [← hn, List.length_append]
      have := item.length_tokens_pos
      omega
    obtain ⟨items, rest', hitems, hend⟩ := ih _ hlength hrest rfl
    refine ⟨item :: items, rest', ?_, hend⟩
    rw [List.flatMap_cons, List.append_assoc, hitems]

/-- Where no item starts behind some items, a record is refused. -/
theorem splitRecord?_of_noItem {items : List Item} {rest : List String} {e : InputError}
    (h : Matched (items.flatMap Item.tokens ++ rest)) (he : NoItem origin rest e) :
    splitRecord? (items.flatMap Item.tokens ++ rest) origin = .error e := by
  rw [splitRecord?, if_pos (isBalanced_iff.2 h), splitItems_flatMap, splitItems_of_noItem he]
  rfl

theorem splitRecord?_of_not_matched {tokens : List String} (h : ¬ Matched tokens) :
    splitRecord? tokens origin = .error (.common .braces [formatTokens tokens]) := by
  rw [splitRecord?, if_neg (mt isBalanced_iff.1 h)]

/-- What is accepted are the items that the tokens are written from. -/
theorem splitRecord?_eq_ok_iff {tokens : List String} {lists : List Arguments} :
    splitRecord? tokens origin = .ok lists ↔
      ∃ items : List Item, items.flatMap Item.tokens = tokens ∧
        items.map (·.arguments origin) = lists := by
  constructor
  · intro h
    have hmatched : Matched tokens := by
      by_contra hmatched
      rw [splitRecord?_of_not_matched hmatched] at h
      cases h
    obtain ⟨items, rest, rfl, rfl | ⟨e, he⟩⟩ := exists_items origin hmatched
    · rw [List.append_nil] at h ⊢
      rw [splitRecord?_flatMap] at h
      exact ⟨items, rfl, Except.ok.inj h⟩
    · rw [splitRecord?_of_noItem hmatched he] at h
      cases h
  · rintro ⟨items, rfl, rfl⟩
    exact splitRecord?_flatMap items

/-- What is refused has braces that do not match, or a place where no item starts. -/
theorem splitRecord?_eq_error_iff {tokens : List String} {e : InputError} :
    splitRecord? tokens origin = .error e ↔
      (¬ Matched tokens ∧ e = .common .braces [formatTokens tokens]) ∨
      Matched tokens ∧ ∃ (items : List Item) (rest : List String),
        items.flatMap Item.tokens ++ rest = tokens ∧ NoItem origin rest e := by
  constructor
  · intro h
    by_cases hmatched : Matched tokens
    · obtain ⟨items, rest, rfl, rfl | ⟨e', he⟩⟩ := exists_items origin hmatched
      · rw [List.append_nil, splitRecord?_flatMap] at h
        cases h
      · rw [splitRecord?_of_noItem hmatched he] at h
        cases h
        exact .inr ⟨hmatched, items, rest, rfl, he⟩
    · rw [splitRecord?_of_not_matched hmatched] at h
      exact .inl ⟨hmatched, (Except.error.inj h).symm⟩
  · rintro (⟨hmatched, rfl⟩ | ⟨hmatched, items, rest, rfl, he⟩)
    · exact splitRecord?_of_not_matched hmatched
    · exact splitRecord?_of_noItem hmatched he

/-- Records one behind the other are a record. -/
theorem splitRecord?_append {tokens tokens' : List String} {lists lists' : List Arguments}
    (h : splitRecord? tokens origin = .ok lists) (h' : splitRecord? tokens' origin = .ok lists') :
    splitRecord? (tokens ++ tokens') origin = .ok (lists ++ lists') := by
  obtain ⟨items, rfl, rfl⟩ := splitRecord?_eq_ok_iff.1 h
  obtain ⟨items', rfl, rfl⟩ := splitRecord?_eq_ok_iff.1 h'
  rw [← List.flatMap_append, splitRecord?_flatMap, List.map_append]

end Reading

/-- **Tokens are accepted as a record exactly if they are a sequence of items.** Then the record
gives, item by item, the keyword and its tokens, and no token is lost. Else it is refused: as a whole
where its braces do not match, and where they match only because, behind some items, a group stands
in the place of a keyword or the last keyword has no value. That the braces of an item do not match
is never found. -/
theorem splitRecord?_exact (tokens : List String) (origin : Option Origin) :
    (∀ lists, splitRecord? tokens origin = .ok lists ↔
      ∃ items : List Item, items.flatMap Item.tokens = tokens ∧
        items.map (·.arguments origin) = lists) ∧
    ∀ e, splitRecord? tokens origin = .error e ↔
      (¬ Matched tokens ∧ e = .common .braces [formatTokens tokens]) ∨
      Matched tokens ∧ ∃ (items : List Item) (rest : List String),
        items.flatMap Item.tokens ++ rest = tokens ∧ NoItem origin rest e :=
  ⟨fun _ => splitRecord?_eq_ok_iff, fun _ => splitRecord?_eq_error_iff⟩

/-- Groups nest, and a keyword with a single token stands between two with groups. -/
example : (splitRecord? (tokenize "A \x7b \x7b 1 \x7d \x7d B 2 C \x7b\x7d")).toOption.map
    (·.map fun a => (a.keyword, a.args)) =
      some [("A", ["\x7b", "1", "\x7d"]), ("B", ["2"]), ("C", [])] := by
  cbv

end ModelInputs.Record
