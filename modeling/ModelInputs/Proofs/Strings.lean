import ModelInputs.Proofs.Quantities
import ModelInputs.Proofs.Record.Capitals
import ModelInputs.Proofs.Reference.Names

/-!
# Texts come back

A single text and the texts of a list are written as tokens of a record, with quotes where they need
them; a choice is written as it is. So a text comes back unless it has line breaks and nothing else
that calls for quotes, and a choice comes back exactly if it is a word, whether capitals matter or
not: of the choices that a token means it is the first one, and so it is of those that it means
itself.

* `InputKind.holdsTexts`: the kinds of inputs;
* `InputKind.Keeps`: the texts that come back;
* `InputKind.ReadsTexts`: what tokens are read as, `World.readArguments_gives_iff`;
* `InputKind.ReadsTexts.again_iff`: what the tokens of a written value are read as;
* **`World.texts_comeBack_iff`**: the values whose texts are accepted and give them again;
* **`World.choice_isLost`**: a choice and a text that do not.
-/

namespace ModelInputs

open Record

namespace Value

/-- The texts of a value that is no list. -/
def leafTexts : Value → List String
  | text s => [s]
  | _ => []

/-- The texts of a value. -/
def texts : Value → List String
  | list vs => vs.flatMap leafTexts
  | v => v.leafTexts

@[simp] theorem texts_text (s : String) : (text s).texts = [s] := rfl

@[simp] theorem texts_list_map (ss : List String) : (list (ss.map text)).texts = ss := by
  rw [texts, List.flatMap_map]
  exact List.flatMap_singleton' ss

theorem map_text_injective : Function.Injective (List.map text) :=
  List.map_injective_iff.2 fun _ _ h => by
    cases h
    rfl

end Value

namespace InputKind

/-- The kind holds texts: one, one of some choices, or a list of them. -/
def holdsTexts : InputKind → Bool
  | text | choice .. | texts .. => true
  | _ => false

/-- The text is one token as an input of the kind writes it. Choices are written as they are, and
other texts with quotes if they are empty or hold a space, a tab, a brace or a double quote. -/
def Keeps : InputKind → String → Prop
  | choice .., s => IsWord s
  | _, s => HasLineBreak s → HasDivider s

/-- What an input of texts reads tokens as. -/
inductive ReadsTexts : InputKind → List String → Value → Prop where
  | text {s : String} (hquote : ¬ HasQuote s) : ReadsTexts .text [s] (.text s)
  | choice {choices : List String} {caseSensitive : Bool} {token choice : String}
    (hfound : choices.find? (fun c =>
      c == token || (!caseSensitive && Text.upper c == Text.upper token)) = some choice) :
    ReadsTexts (.choice choices caseSensitive) [token] (.text choice)
  | texts {choices : Option (List String)} {counts : CountRange} {ss : List String}
    (hcounts : counts.Contains ss.length) (hquote : ∀ s ∈ ss, ¬ HasQuote s)
    (hchoices : ∀ allowed, choices = some allowed → ∀ s ∈ ss, s ∈ allowed) :
    ReadsTexts (.texts choices counts) ss (.list (ss.map .text))

end InputKind

/-! ## Reading -/

theorem readText?_iff {a : Arguments} {v : Value} :
    readText? a = .ok v ↔ InputKind.text.ReadsTexts a.args v := by
  rw [readText?, bind_eq_ok]
  constructor
  · rintro ⟨s, hs, h⟩
    rw [World.single?_eq_ok.1 hs]
    split at h
    · cases h
    · next hquote =>
      cases h
      exact .text fun hmem => hquote (List.contains_iff_mem.2 hmem)
  · intro h
    generalize hargs : a.args = args at h
    cases h with
    | @text s hquote =>
      refine ⟨s, World.single?_eq_ok.2 hargs, ?_⟩
      rw [if_neg fun hmem => hquote (List.contains_iff_mem.1 hmem)]
      rfl

theorem readChoice?_iff {a : Arguments} {choices : List String} {caseSensitive : Bool}
    {v : Value} : readChoice? a choices caseSensitive = .ok v ↔
      (InputKind.choice choices caseSensitive).ReadsTexts a.args v := by
  rw [readChoice?, bind_eq_ok]
  constructor
  · rintro ⟨token, ht, h⟩
    rw [World.single?_eq_ok.1 ht]
    dsimp only at h
    split at h
    · next hfound =>
      cases h
      exact .choice hfound
    · cases h
  · intro h
    generalize hargs : a.args = args at h
    cases h with
    | @choice _ _ token choice hfound =>
      refine ⟨token, World.single?_eq_ok.2 hargs, ?_⟩
      dsimp only
      rw [hfound]
      rfl

theorem readTexts?_iff {a : Arguments} {choices : Option (List String)} {counts : CountRange}
    {v : Value} : readTexts? a choices counts = .ok v ↔
      (InputKind.texts choices counts).ReadsTexts a.args v := by
  have hnone : a.args.find? (·.toList.contains '\'') = none ↔ ∀ s ∈ a.args, ¬ HasQuote s := by
    simp [List.find?_eq_none, HasQuote]
  unfold readTexts?
  rw [bind_eq_ok]
  constructor
  · rintro ⟨_, hcounts, h⟩
    have hlength := checkCountRange_eq_ok.1 hcounts
    split at h
    · cases h
    next hquote =>
    split at h
    · cases h
      exact .texts hlength (hnone.1 hquote) fun _ h => by cases h
    split at h
    · cases h
    · next allowed _ hall =>
      cases h
      refine .texts hlength (hnone.1 hquote) ?_
      rintro _ ⟨⟩ s hs
      simpa using List.find?_eq_none.1 hall s hs
  · intro h
    generalize hargs : a.args = args at h
    cases h with
    | texts hcounts hquote hchoices =>
      subst hargs
      refine ⟨(), checkCountRange_eq_ok.2 hcounts, ?_⟩
      rw [hnone.2 hquote]
      cases choices with
      | none => rfl
      | some allowed =>
        have hall : a.args.find? (!allowed.contains ·) = none := by
          simpa [List.find?_eq_none] using hchoices allowed rfl
        dsimp only
        rw [hall]
        rfl

namespace World

variable {w w' : World} {this : Option EntityId} {id : InputId} {i i' : Input} {a : Arguments}
  {v : Value}

/-- **An input of texts reads its arguments as their tokens tell.** -/
theorem readArguments_gives_iff (hk : i.kind.holdsTexts = true) :
    (w.readArguments this i a).Gives v ↔ i.kind.ReadsTexts a.args v := by
  unfold readArguments
  cases hkind : i.kind with
  | text => exact Logged.gives_ofInput.trans readText?_iff
  | choice => exact Logged.gives_ofInput.trans readChoice?_iff
  | texts => exact Logged.gives_ofInput.trans readTexts?_iff
  | _ =>
    rw [hkind] at hk
    cases hk

end World

/-! ## Written values -/

namespace InputKind.ReadsTexts

variable {k : InputKind} {choices : List String} {caseSensitive : Bool} {ss args : List String}
  {s token choice : String} {v : Value}

theorem eq_of_text (h : InputKind.text.ReadsTexts ss (.text s)) : ss = [s] := by
  cases h
  rfl

theorem eq_of_texts {allowed : Option (List String)} {counts : CountRange}
    (h : (InputKind.texts allowed counts).ReadsTexts ss (.list (args.map .text))) : ss = args := by
  generalize hv : Value.list (args.map .text) = v at h
  cases h
  exact (Value.map_text_injective (Value.list.inj hv)).symm

/-- The tokens of written texts are read as the texts exactly if each of them is one token. -/
theorem tokenize_formatTokens_eq_iff (hquote : ∀ s ∈ ss, ¬ HasQuote s) :
    tokenize (formatTokens ss) = ss ↔ ∀ s ∈ ss, HasLineBreak s → HasDivider s := by
  rw [tokenize_formatTokens_iff]
  exact ⟨fun h s hs => (h s hs).2, fun h s hs => ⟨hquote s hs, h s hs⟩⟩

/-- A choice that some token means is the first one that it means itself. -/
theorem choice_again (hfound : choices.find? (fun c =>
      c == token || (!caseSensitive && Text.upper c == Text.upper token)) = some choice) :
    choices.find? (fun c =>
      c == choice || (!caseSensitive && Text.upper c == Text.upper choice)) = some choice := by
  have hmeans (c t : String) : (c == t || (!caseSensitive && Text.upper c == Text.upper t)) = true ↔
      c = t ∨ (caseSensitive = false ∧ Text.upper c = Text.upper t) := by
    simp
  rw [List.find?_eq_some_iff_append] at hfound ⊢
  obtain ⟨hchoice, before, behind, hsplit, hbefore⟩ := hfound
  refine ⟨(hmeans _ _).2 (.inl rfl), before, behind, hsplit, fun c hc => ?_⟩
  have hnot := hbefore c hc
  rw [Bool.not_eq_true', Bool.eq_false_iff, ne_eq, hmeans] at hnot ⊢
  obtain rfl | ⟨hcase, hupper⟩ := (hmeans _ _).1 hchoice
  · exact hnot
  · -- a choice before it that it means would be meant by the token too
    rintro (rfl | ⟨-, h⟩)
    · exact hnot (.inr ⟨hcase, hupper⟩)
    · exact hnot (.inr ⟨hcase, h.trans hupper⟩)

/-- A token that is alone is no brace. -/
theorem not_isBrace_of_isBalanced (h : isBalanced [s] = true) : isBrace s = false := by
  rw [Bool.eq_false_iff]
  intro hbrace
  rw [isBrace, Bool.or_eq_true, beq_iff_eq, beq_iff_eq] at hbrace
  rcases hbrace with rfl | rfl <;> cases h

/-- **A value that was read is read from its own text exactly if its texts are kept.** -/
theorem again_iff {w : World} {i : Input} (h : i.kind.ReadsTexts args v)
    (hargs : isBalanced args = true) :
    ∃ text, w.textOf i v = .ok text ∧
      ((isBalanced (tokenize text) = true ∧ i.kind.ReadsTexts (tokenize text) v) ↔
        ∀ s ∈ v.texts, i.kind.Keeps s) := by
  unfold World.textOf
  generalize i.kind = k at h ⊢
  cases h with
  | @text s hquote =>
    have htext : formatTokens [s] = quoteIfNeeded s := by
      rw [formatTokens, List.map_singleton, formatToken,
        if_neg (Bool.eq_false_iff.1 (not_isBrace_of_isBalanced hargs))]
      simp
    have hkeeps := tokenize_formatTokens_eq_iff (List.forall_mem_singleton.2 hquote)
    refine ⟨formatTokens [s], by rw [htext]; rfl, ?_⟩
    constructor
    · rintro ⟨-, h⟩
      exact hkeeps.1 h.eq_of_text
    · intro h
      rw [hkeeps.2 h]
      exact ⟨hargs, .text hquote⟩
  | @texts _ _ _ hcounts hquote hchoices =>
    have hkeeps := tokenize_formatTokens_eq_iff hquote
    have htext : (args.map Value.text).mapM tokenText = .ok args := by
      have := mapM_map_eq_ok (f := tokenText) (g := .text) (r := id) (fun _ => rfl) args
      rwa [List.map_id] at this
    refine ⟨formatTokens args, ?_, ?_⟩
    · show (do return formatTokens (← (args.map Value.text).mapM tokenText)) = _
      rw [htext]
      rfl
    · rw [Value.texts_list_map]
      constructor
      · rintro ⟨-, h⟩
        exact hkeeps.1 h.eq_of_texts
      · intro h
        rw [hkeeps.2 h]
        exact ⟨hargs, .texts hcounts hquote hchoices⟩
  | @choice _ caseSensitive token choice hfound =>
    refine ⟨choice, rfl, ?_⟩
    rw [Value.texts_text, List.forall_mem_singleton]
    constructor
    · rintro ⟨hbalanced, h⟩
      generalize hts : tokenize choice = ts at hbalanced h
      cases h with
      | @choice _ _ t _ hfound' =>
        have hmeans : choice = t ∨ caseSensitive = false ∧ Text.upper choice = Text.upper t := by
          simpa using List.find?_some hfound'
        exact isWord_of_tokenize hts (not_isBrace_of_isBalanced hbalanced)
          (hmeans.imp_right And.right)
    · intro h
      have hword : IsWord choice := h
      rw [hword.tokenize_eq]
      exact ⟨isBalanced_words (List.forall_mem_singleton.2 hword.not_isBrace),
        .choice (choice_again hfound)⟩

end InputKind.ReadsTexts

/-! ## Texts of inputs -/

namespace World

variable {w w' : World} {this : Option EntityId} {id : InputId} {i i' : Input} {a : Arguments}
  {v : Value}

/-- An input of texts is set to what it reads. -/
theorem parseInput_texts_iff (hi : w.input? id = some i) (hk : i.kind.holdsTexts = true) :
    (w.parseInput this id a).Gives w' ↔
      ∃ v, i.kind.ReadsTexts a.args v ∧ w' = w.store id (.value v) := by
  have htarget : i.kind.target? = none := by
    cases hkind : i.kind with
    | synonym =>
      rw [hkind] at hk
      cases hk
    | _ => rfl
  have hvalue : i.kind.holdsValue = true := by
    cases hkind : i.kind with
    | keyLists | attributes | customOutputs | deprecated =>
      rw [hkind] at hk
      cases hk
    | _ => rfl
  rw [parseInput_value_iff hi htarget hvalue]
  exact exists_congr fun v => and_congr_left fun _ => readArguments_gives_iff hk

theorem input?_store_value (hi : w.input? id = some i) (v : Value) :
    (w.store id (.value v)).input? id = some (i.assign v) := by
  rw [input?_store, if_pos rfl, hi]
  rfl

/-- **The texts of an input come back exactly if they are kept.** An input of a text, of a choice or
of a list of texts that has accepted arguments has a text for its value. The tokens of the text are
accepted by the input and give it the same value if and only if each text of the value is one token
as the input writes it: a choice if it is a word, and another text if it has no line breaks, or
holds a space, a tab, a brace or a double quote too. -/
theorem texts_comeBack_iff (hi : w.input? id = some i) (hk : i.kind.holdsTexts = true)
    (h : (w.parseInput this id a).Gives w') (hi' : w'.input? id = some i') :
    ∃ text, w'.textOf i' i'.value = .ok text ∧ ∀ keyword origin,
      ((∃ again w'' i'', Arguments.make? keyword (tokenize text) origin = .ok again ∧
        (w'.parseInput this id again).Gives w'' ∧ w''.input? id = some i'' ∧
        i''.value = i'.value) ↔ ∀ s ∈ i'.value.texts, i.kind.Keeps s) := by
  obtain ⟨v, hv, rfl⟩ := (parseInput_texts_iff hi hk).1 h
  have hset := input?_store_value hi v
  obtain rfl : i.assign v = i' := Option.some.inj (hset.symm.trans hi')
  obtain ⟨text, htext, hagain⟩ :=
    InputKind.ReadsTexts.again_iff (w := w.store id (.value v)) (i := i.assign v) hv a.balanced
  refine ⟨text, htext, fun keyword origin => Iff.trans ?_ hagain⟩
  constructor
  · rintro ⟨again, w'', i'', hmake, hparse, hi'', hsame⟩
    obtain ⟨-, hargs, -⟩ := Arguments.make?_eq_ok hmake
    obtain ⟨v', hv', rfl⟩ := (parseInput_texts_iff hset hk).1 hparse
    rw [input?_store_value hset] at hi''
    cases hi''
    obtain rfl : v' = v := hsame
    rw [← hargs]
    exact ⟨again.balanced, hv'⟩
  · rintro ⟨hbalanced, hreads⟩
    refine ⟨⟨keyword, tokenize text, origin, hbalanced⟩, _, _,
      Arguments.make?_eq hbalanced keyword origin,
      (parseInput_texts_iff hset hk).2 ⟨v, hreads, rfl⟩, input?_store_value hset v, rfl⟩

/-! ## A list, a choice and a text -/

/-- A list of texts. -/
def tagList : Input :=
  .make "Tags" "Key Inputs" (.texts none {})

/-- A text with a space, and one without. -/
def tagArguments : Arguments where
  keyword := "Tags"
  args := ["slow down", "stop"]
  balanced := by decide

/-- The texts that are given. -/
def tags : Value :=
  .list [.text "slow down", .text "stop"]

theorem texts_comeBack_tags :
    (holder tagList).input? ⟨⟨0⟩, "Tags"⟩ = some tagList ∧ tagList.kind.holdsTexts = true ∧
      ((holder tagList).parseInput none ⟨⟨0⟩, "Tags"⟩ tagArguments).Gives
        (holder (tagList.assign tags)) ∧
      ∃ text, (holder (tagList.assign tags)).textOf (tagList.assign tags) tags = .ok text ∧
        ∀ keyword origin, ∃ again w'' i'',
          Arguments.make? keyword (tokenize text) origin = .ok again ∧
            ((holder (tagList.assign tags)).parseInput none ⟨⟨0⟩, "Tags"⟩ again).Gives w'' ∧
            w''.input? ⟨⟨0⟩, "Tags"⟩ = some i'' ∧ i''.value = tags := by
  have hgives : ((holder tagList).parseInput none ⟨⟨0⟩, "Tags"⟩ tagArguments).Gives
      (holder (tagList.assign tags)) :=
    ⟨[], [], rfl⟩
  have hkeeps : ∀ s ∈ ["slow down", "stop"], HasLineBreak s → HasDivider s := by decide
  have hi : (holder tagList).input? ⟨⟨0⟩, "Tags"⟩ = some tagList := rfl
  have hset : (holder (tagList.assign tags)).input? ⟨⟨0⟩, "Tags"⟩ = some (tagList.assign tags) :=
    rfl
  obtain ⟨text, htext, hagain⟩ := texts_comeBack_iff hi rfl hgives hset
  exact ⟨hi, rfl, hgives, text, htext, fun keyword origin => (hagain keyword origin).2 hkeeps⟩

/-- A choice of two ways. -/
def modeChoice : Input :=
  .make "Mode" "Key Inputs" (.choice ["Slow down", "Stop"] true)

/-- The first choice. -/
def modeArguments : Arguments where
  keyword := "Mode"
  args := ["Slow down"]
  balanced := by decide

/-- A text of any kind. -/
def noteText : Input :=
  .make "Note" "Key Inputs" .text

/-- Two lines. -/
def noteArguments : Arguments where
  keyword := "Note"
  args := ["a\nb"]
  balanced := by decide

/-- A choice with a space is written without quotes, and a text of two lines too; what is written is
read as two tokens, which neither input accepts. -/
theorem choice_isLost :
    (((holder modeChoice).parseInput none ⟨⟨0⟩, "Mode"⟩ modeArguments).Gives
        (holder (modeChoice.assign (.text "Slow down"))) ∧
      (holder (modeChoice.assign (.text "Slow down"))).textOf
        (modeChoice.assign (.text "Slow down")) (.text "Slow down") = .ok "Slow down" ∧
      tokenize "Slow down" = ["Slow", "down"] ∧
      ∀ again : Arguments, again.args = ["Slow", "down"] → ∀ w'',
        ¬ ((holder (modeChoice.assign (.text "Slow down"))).parseInput none ⟨⟨0⟩, "Mode"⟩
          again).Gives w'') ∧
    ((holder noteText).parseInput none ⟨⟨0⟩, "Note"⟩ noteArguments).Gives
        (holder (noteText.assign (.text "a\nb"))) ∧
      (holder (noteText.assign (.text "a\nb"))).textOf
        (noteText.assign (.text "a\nb")) (.text "a\nb") = .ok "a\nb" ∧
      tokenize "a\nb" = ["a", "b"] ∧
      ∀ again : Arguments, again.args = ["a", "b"] → ∀ w'',
        ¬ ((holder (noteText.assign (.text "a\nb"))).parseInput none ⟨⟨0⟩, "Note"⟩
          again).Gives w'' := by
  refine ⟨⟨⟨[], [], rfl⟩, rfl, by decide, ?_⟩, ⟨[], [], rfl⟩, rfl, by decide, ?_⟩
  · intro again hargs w'' h
    obtain ⟨v, hv, -⟩ :=
      (parseInput_texts_iff (i := modeChoice.assign (.text "Slow down")) rfl rfl).1 h
    rw [hargs] at hv
    cases hv
  · intro again hargs w'' h
    obtain ⟨v, hv, -⟩ := (parseInput_texts_iff (i := noteText.assign (.text "a\nb")) rfl rfl).1 h
    rw [hargs] at hv
    cases hv

end World

end ModelInputs
