import ModelInputs.Proofs.Record.Writing
import ModelInputs.Proofs.Reference.Denoting
import ModelInputs.Proofs.Run.Inputs

/-!
# The tokens that inputs keep

Whatever is done to a model, entities are registered under valid names. An input that refers to
entities by their names alone keeps the tokens that it was last set by, which were braces and names
of registered entities then. Names have no characters that would be split or need quotes, so these
tokens come back from the text that they are shown as.

* `IsNameOrBrace`: a brace, or what can be the name of an entity;
* `World.TokensNamed`: the registered names are valid, and so are those among the tokens;
* **`World.Step.tokensNamed`**: every step keeps this;
* **`tokenize_formatTokens_of_names`**: the tokens come back from their text;
* **`World.applyArguments_receiver`**, `World.applyArguments_other`: the tokens after a keyword.
-/

namespace ModelInputs

/-- A brace, or what can be the name of an entity. -/
def IsNameOrBrace (token : String) : Prop :=
  Record.isBrace token = true ∨ isValidName token = true

/-! ## Names as text -/

section

open Record

theorem not_mem_of_isValidName {name : String} (h : isValidName name = true) {c : Char}
    (hc : c ∈ nameDelimiters) : c ∉ name.toList := by
  intro hmem
  have hall := List.all_eq_true.1 (Bool.and_eq_true_iff.1 h).2 c hmem
  rw [List.contains_iff_mem.2 hc] at hall
  cases hall

/-- **Names and braces come back from their text.** -/
theorem tokenize_formatTokens_of_names {ts : List String} (h : ∀ t ∈ ts, IsNameOrBrace t) :
    tokenize (formatTokens ts) = ts := by
  refine (tokenize_formatTokens_iff ts).2 fun t ht => ?_
  obtain hbrace | hname := h t ht
  · rw [isBrace, Bool.or_eq_true, beq_iff_eq, beq_iff_eq] at hbrace
    obtain rfl | rfl := hbrace
    · decide
    · decide
  · refine ⟨not_mem_of_isValidName hname (by decide), fun hbreak => ?_⟩
    obtain hc | hc := hbreak
    · exact absurd hc (not_mem_of_isValidName hname (by decide))
    · exact absurd hc (not_mem_of_isValidName hname (by decide))

theorem formatTokens_of_isValidName {name : String} (h : isValidName name = true) :
    formatTokens [name] = name := by
  refine formatToken_of_not_needsQuoting (Bool.or_eq_false_iff.2 ⟨?_, ?_⟩)
  · exact beq_eq_false_iff_ne.2 (bne_iff_ne.1 (Bool.and_eq_true_iff.1 h).1)
  · refine List.any_eq_false.2 fun c hc hdivides => ?_
    have hne {d : Char} (hd : d ∈ nameDelimiters) : c ≠ d := by
      rintro rfl
      exact not_mem_of_isValidName h hd hc
    simp only [isBraceChar, Bool.or_eq_true, beq_iff_eq] at hdivides
    obtain ((hspace | htab) | hopen | hclose) | hquote := hdivides
    · exact hne (by decide) hspace
    · exact hne (by decide) htab
    · exact hne (by decide) hopen
    · exact hne (by decide) hclose
    · exact hne (by decide) hquote

theorem tokenize_of_isValidName {name : String} (h : isValidName name = true) :
    tokenize name = [name] := by
  have htokens : tokenize (formatTokens [name]) = [name] := by
    refine tokenize_formatTokens_of_names fun t ht => .inr ?_
    rwa [List.mem_singleton.1 ht]
  rwa [formatTokens_of_isValidName h] at htokens

theorem isBalanced_of_isValidName {name : String} (h : isValidName name = true) :
    isBalanced [name] = true := by
  have hopen : name ≠ "\x7b" := by
    rintro rfl
    exact absurd h (by decide)
  have hclose : name ≠ "\x7d" := by
    rintro rfl
    exact absurd h (by decide)
  rw [isBalanced, depthAfter?, if_neg hopen, if_neg hclose]
  rfl

end

namespace World

variable {w w' : World} {e : EntityId} {this : Option EntityId} {a : Arguments}

/-! ## What receives a keyword -/

/-- **What a keyword sets refers to the entities that the arguments denote**, and keeps these as its
tokens unless they are too many; nothing else changes. -/
theorem applyArguments_receiver {id : InputId} (h : (w.applyArguments e a).Gives (w', id))
    {i' : Input} (hi' : w'.input? id = some i') (hk : i'.kind.isReference = true) :
    ∃ i v, w.input? id = some i ∧ i'.kind = i.kind ∧ w.Denotes ⟨e, i.keyword⟩ a i.kind v ∧
      i'.stored = v ∧ i'.isDefault = false ∧
      i'.tokens = (if (a.args.length : Int) > w.settings.maxStoredTokens then none
        else some a.args) ∧
      w.ChangesOnly (· = id) (fun _ => False) (fun _ => False) w' := by
  obtain ⟨-, rfl, changed, hparse, rfl⟩ := applyArguments_eq_of_gives h
  have hmarked := w.markReceiver_sameDeclaration e a
  rw [input?_updateInput fun j => (hmarked j).keyword_eq, if_pos rfl] at hi'
  obtain ⟨j, hj, rfl⟩ := Option.map_eq_some_iff.1 hi'
  rw [(hmarked j).kind_eq] at hk
  -- the receiver is no synonym, so it is the input that the arguments were read for
  have hreceiver := (parseInput_changes hparse).kind_eq (w.receiver ⟨e, a.keyword⟩)
  rw [hj, Option.map_some] at hreceiver
  obtain ⟨i, hi, hkind⟩ := Option.map_eq_some_iff.1 hreceiver.symm
  have htarget : w.target ⟨e, a.keyword⟩ = w.receiver ⟨e, a.keyword⟩ := by
    refine target_eq_receiver ?_
    rw [hi, Option.bind_some, hkind, InputKind.target?_of_isReference hk]
  obtain ⟨hnone, -⟩ | ⟨i₀, assignment, hi₀, hread, rfl⟩ := parseInput_gives hparse
  · rw [htarget, hi] at hnone
    cases hnone
  rw [htarget, hi] at hi₀
  cases hi₀
  obtain ⟨v, hv, rfl⟩ := (gives_readKind_iff (hkind ▸ hk)).1 hread
  rw [htarget, input?_store, if_pos rfl, hi] at hj
  cases hj
  have hstored : (w.markReceiver e a (i.assign v)).stored = v := by
    obtain ⟨edited, hmark⟩ := w.markReceiver_eq e a (i.assign v)
    rw [hmark]
    exact i.stored_assign v
  rw [htarget]
  refine ⟨i, v, hi, (hmarked _).kind_eq, denotes_of_gives (hkind ▸ hk) hv, hstored,
    w.isDefault_markReceiver e a _, w.tokens_markReceiver e a _,
    (store_changesOnly ?_ (fun _ _ => nofun) fun _ _ => nofun).trans
      (updateInput_changesOnly ?_ hmarked)⟩
  · rfl
  · rfl

/-- Other inputs keep their tokens, and are as they were unless a synonym set them. -/
theorem applyArguments_other {id id' : InputId} (h : (w.applyArguments e a).Gives (w', id))
    (hne : id' ≠ id) {i' : Input} (hi' : w'.input? id' = some i') :
    ∃ i, w.input? id' = some i ∧ i'.kind = i.kind ∧ i'.tokens = i.tokens ∧
      (id' ≠ w.target ⟨e, a.keyword⟩ → i' = i) := by
  obtain ⟨-, rfl, changed, hparse, rfl⟩ := applyArguments_eq_of_gives h
  rw [input?_updateInput fun j => (w.markReceiver_sameDeclaration e a j).keyword_eq,
    if_neg hne.symm] at hi'
  obtain ⟨-, rfl⟩ | ⟨-, assignment, -, -, rfl⟩ := parseInput_gives hparse
  · exact ⟨i', hi', rfl, rfl, fun _ => rfl⟩
  rw [input?_store] at hi'
  split at hi'
  · next htarget =>
    obtain ⟨i, hi, rfl⟩ := Option.map_eq_some_iff.1 hi'
    exact ⟨i, hi, (w.assigned_sameDeclaration assignment i).kind_eq,
      w.tokens_assigned assignment i, fun hother => absurd htarget.symm hother⟩
  · exact ⟨i', hi', rfl, rfl, fun _ => rfl⟩

/-! ## Worlds -/

/-- The names of registered entities are valid, and those among the tokens that inputs keep are. -/
structure TokensNamed (w : World) : Prop where
  names : ∀ name ∈ w.registry.map (·.1), isValidName name = true
  tokens : ∀ id i, w.input? id = some i → i.kind.namesEntities = true →
    ∀ ts, i.tokens = some ts → ∀ t ∈ ts, IsNameOrBrace t

namespace TokensNamed

/-- A step after which names that are new are valid, and inputs have the tokens that they had, or
none. -/
theorem of_kept (hw : w.TokensNamed)
    (hnames : ∀ name ∈ w'.registry.map (·.1),
      isValidName name = true ∨ name ∈ w.registry.map (·.1))
    (htokens : ∀ id i', w'.input? id = some i' →
      i'.tokens = none ∨ ∃ i, w.input? id = some i ∧ i'.kind = i.kind ∧ i'.tokens = i.tokens) :
    w'.TokensNamed where
  names name hname := (hnames name hname).elim id (hw.names name)
  tokens id i' hi' hk ts hts := by
    obtain hnone | ⟨i, hi, hkind, htokens⟩ := htokens id i' hi'
    · rw [hnone] at hts
      cases hts
    · exact hw.tokens id i hi (hkind ▸ hk) ts (htokens ▸ hts)

theorem create (hw : w.TokensNamed) (hp : w.palette.IsPlain) {className name : String}
    {loose : Bool} (h : w.create? className name loose = .ok (w', e)) : w'.TokensNamed := by
  refine hw.of_kept ?_ fun id i' hi' => ?_
  · intro n hn
    obtain rfl | hold := mem_names_create h hn
    · exact .inl (create?_cases h).1
    · exact .inr hold
  · rw [input?_create h] at hi'
    split at hi'
    · left
      rw [← (hp.inputs className i' (List.mem_of_find?_eq_some hi')).reset_eq]
      rfl
    · exact .inr ⟨i', hi', rfl, rfl⟩

theorem addInput (hw : w.TokensNamed) {i : Input} (hi : i.IsNew) (h : w.addInput? e i = .ok w') :
    w'.TokensNamed := by
  refine hw.of_kept ?_ fun id i' hi' => ?_
  · rw [registry_addInput h]
    exact fun _ => .inr
  · obtain ⟨-, rfl⟩ | hold := input?_addInput h hi'
    · left
      rw [← hi.reset_eq]
      rfl
    · exact .inr ⟨i', hold, rfl, rfl⟩

theorem rename (hw : w.TokensNamed) {name : String} (h : w.rename? e name = .ok w') :
    w'.TokensNamed := by
  refine hw.of_kept ?_ fun id i' hi' => ?_
  · intro n hn
    obtain rfl | hold := mem_names_rename h hn
    · exact .inl (rename?_eq_ok h).1
    · exact .inr hold
  · rw [input?_rename h] at hi'
    exact .inr ⟨i', hi', rfl, rfl⟩

theorem kill (hw : w.TokensNamed) (hwell : w.WellFormed) (he : e ∈ w.registered) :
    (w.kill e).world.TokensNamed := by
  obtain ⟨-, changed, -, hkilled⟩ := hwell.kill he
  refine hw.of_kept ?_ fun id i' hi' => ?_
  · intro n hn
    rw [hkilled.registry_eq] at hn
    exact .inr ((List.filter_sublist.map _).subset hn)
  · rw [hkilled.input?_eq] at hi'
    split at hi'
    · obtain ⟨i, hi, rfl⟩ := Option.map_eq_some_iff.1 hi'
      have hkind := (i.letGo_sameDeclaration e).kind_eq
      exact (i.tokens_letGo e).imp_right fun htokens => ⟨i, hi, hkind, htokens⟩
    · exact .inr ⟨i', hi', rfl, rfl⟩

theorem applyArguments (hw : w.TokensNamed) {id : InputId}
    (h : (w.applyArguments e a).Gives (w', id)) : w'.TokensNamed := by
  have hregistry := (applyArguments_gives h).2.1.registry_eq
  refine ⟨fun name hname => hw.names name (hregistry ▸ hname), fun id' i' hi' hk ts hts t ht => ?_⟩
  by_cases hid : id' = id
  · subst hid
    obtain ⟨i, v, -, hkind, hdenotes, -, -, htokens, -⟩ :=
      applyArguments_receiver h hi' (InputKind.isReference_of_namesEntities hk)
    rw [htokens] at hts
    split at hts
    · cases hts
    cases hts
    refine (hdenotes.names (hkind ▸ hk) ht).imp_right ?_
    rintro ⟨y, hy⟩
    exact hw.names t (List.mem_map_of_mem (mem_registry_of_named? hy))
  · obtain ⟨i, hi, hkind, htokens, -⟩ := applyArguments_other h hid hi'
    exact hw.tokens id' i hi (hkind ▸ hk) ts (htokens ▸ hts) t ht

end TokensNamed

/-- **Every step keeps valid names.** -/
theorem Step.tokensNamed (h : Step w w') (hwell : w.WellFormed) (hw : w.TokensNamed) :
    w'.TokensNamed := by
  cases h with
  | create h => exact hw.create hwell.palette h
  | addInput hi h => exact hw.addInput hi h
  | apply => exact applyItems_induction hw fun _ _ _ _ _ hw h => hw.applyArguments h
  | kill he => exact hw.kill hwell he
  | rename _ h => exact hw.rename h

theorem Reached.tokensNamed {p : Palette} (hp : p.IsPlain) (h : Reached p w) :
    w.TokensNamed := by
  obtain ⟨settings, recordsEdits, h⟩ := h
  induction h with
  | refl => exact ⟨nofun, fun _ _ hi => nomatch hi⟩
  | tail hrun hstep ih =>
    exact hstep.tokensNamed (Reached.wellFormed hp ⟨settings, recordsEdits, hrun⟩) ih

end World

end ModelInputs
