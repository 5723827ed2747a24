import ModelInputs.Proofs.Record.Matching

/-!
# Groups at the top level

The groups of an argument list are its trees. A token that stands outside all groups is a tree of
its own and is refused; else there is one argument list for each group, and the groups between
braces are the arguments again. Groups are looked for once: asked again, an argument list gives the
ones that it keeps.

* `HasStray`, `hasStray_flatten_iff`: a token stands outside all groups;
* `ofTrees?_of_mem_leaf`, `ofTrees?_eq_ok`, `exists_ofTrees?`: one argument list for each tree;
* `subArguments?_eq_ok_iff`, `subArguments?_eq_error_iff`, `exists_subArguments?`: the groups of an
  argument list;
* `Asked.Faithful`, `Asked.groups?_iterate`: what is kept is what would be found;
* **`subArguments?_exact`**: an argument list is split into its groups without loss.
-/

namespace ModelInputs

namespace Record

/-! ## Tokens outside groups -/

/-- A token other than a brace stands outside all groups: the braces before it match. -/
def HasStray (tokens : List String) : Prop :=
  ∃ before token after,
    tokens = before ++ token :: after ∧ Matched before ∧ isBrace token = false

/-- The tokens of trees outside all groups are those that are trees of their own. -/
theorem hasStray_flatten_iff {trees : List Tree} (h : noBraceLeaf trees = true) :
    HasStray (flatten trees) ↔ ∃ token, .leaf token ∈ trees := by
  constructor
  · rintro ⟨before, token, after, htokens, hbefore, htoken⟩
    have hafter : Matched after := by
      rw [← matched_cons_iff htoken, ← hbefore.append_iff, ← htokens]
      exact matched_iff_exists_flatten.2 ⟨trees, h, rfl⟩
    -- trees are read in one way only, so those around the token are the given ones
    obtain ⟨ts, hts, rfl⟩ := matched_iff_exists_flatten.1 hbefore
    obtain ⟨us, hus, rfl⟩ := matched_iff_exists_flatten.1 hafter
    have hread : group? (flatten trees) = some (ts ++ .leaf token :: us) := by
      rw [group?_eq_some_iff, noBraceLeaf_append, htokens, flatten_append]
      refine ⟨?_, rfl⟩
      simp [noBraceLeaf, Tree.noBraceLeaf, hts, hus, htoken]
    have heq : trees = ts ++ .leaf token :: us :=
      Option.some.inj ((group?_flatten h).symm.trans hread)
    exact ⟨token, heq ▸ List.mem_append_right _ (.head _)⟩
  · rintro ⟨token, hmem⟩
    obtain ⟨ts, us, rfl⟩ := List.append_of_mem hmem
    rw [noBraceLeaf_append, noBraceLeaf, Tree.noBraceLeaf] at h
    simp only [Bool.and_eq_true, Bool.not_eq_true'] at h
    refine ⟨flatten ts, token, flatten us, flatten_append _ _, ?_, h.2.1⟩
    exact matched_iff_exists_flatten.2 ⟨ts, h.1, rfl⟩

/-- Tokens in groups have matching braces if those of each group match. -/
theorem matched_grouped {lists : List (List String)} (h : ∀ args ∈ lists, Matched args) :
    Matched (grouped lists) := by
  induction lists with
  | nil => exact matched_nil
  | cons args lists ih =>
    obtain ⟨hargs, hlists⟩ := List.forall_mem_cons.1 h
    rw [grouped, List.flatMap_cons, List.append_assoc, List.singleton_append, hargs.braced_iff]
    exact ih hlists

end Record

open Record

namespace Arguments

/-! ## One argument list for each tree -/

variable {a : Arguments} {trees : List Tree} {groups : List Arguments}

/-- A group of trees is an argument list: what it is written as has matching braces. -/
theorem ofTrees?_group {items : List Tree} (h : noBraceLeaf items = true) :
    a.ofTrees? (.group items :: trees) =
      (a.ofTrees? trees).map (⟨a.keyword, flatten items, a.origin, isBalanced_flatten h⟩ :: ·) := by
  rw [ofTrees?, make?_eq (isBalanced_flatten h)]
  cases a.ofTrees? trees <;> rfl

theorem ofTrees?_of_mem_leaf (h : noBraceLeaf trees = true) {token : String}
    (hmem : .leaf token ∈ trees) :
    a.ofTrees? trees = .error ⟨.bracesExpected a.text, a.origin⟩ := by
  induction trees with
  | nil => cases hmem
  | cons tree trees ih =>
    cases tree with
    | leaf => rfl
    | group items =>
      rw [noBraceLeaf, Bool.and_eq_true] at h
      rw [ofTrees?_group h.1, ih h.2 ((List.mem_cons.1 hmem).resolve_left nofun)]
      rfl

theorem exists_leaf_of_ofTrees? (h : noBraceLeaf trees = true) {e : InputError}
    (herror : a.ofTrees? trees = .error e) : ∃ token, .leaf token ∈ trees := by
  induction trees with
  | nil => cases herror
  | cons tree trees ih =>
    cases tree with
    | leaf token => exact ⟨token, .head _⟩
    | group items =>
      rw [noBraceLeaf, Bool.and_eq_true] at h
      rw [ofTrees?_group h.1] at herror
      cases hothers : a.ofTrees? trees with
      | ok others =>
        rw [hothers] at herror
        cases herror
      | error e' =>
        rw [hothers] at herror
        cases herror
        obtain ⟨token, hmem⟩ := ih h.2 hothers
        exact ⟨token, .tail _ hmem⟩

/-- The argument lists hold what the trees are written as. -/
theorem ofTrees?_eq_ok (h : a.ofTrees? trees = .ok groups) :
    grouped (groups.map (·.args)) = flatten trees ∧
      ∀ group ∈ groups, group.keyword = a.keyword ∧ group.origin = a.origin := by
  induction trees generalizing groups with
  | nil =>
    cases h
    exact ⟨rfl, List.forall_mem_nil _⟩
  | cons tree trees ih =>
    cases tree with
    | leaf => cases h
    | group items =>
      obtain ⟨first, hfirst, h⟩ := bind_eq_ok.1 h
      obtain ⟨others, hothers, h⟩ := bind_eq_ok.1 h
      cases h
      obtain ⟨hkeyword, hargs, horigin⟩ := make?_eq_ok hfirst
      obtain ⟨hgrouped, hothers⟩ := ih hothers
      refine ⟨?_, List.forall_mem_cons.2 ⟨⟨hkeyword, horigin⟩, hothers⟩⟩
      rw [grouped, List.map_cons, List.flatMap_cons, hargs, Record.flatten, Tree.flatten]
      exact congrArg _ hgrouped

/-- Every argument list is one of some trees. -/
theorem exists_ofTrees?
    (h : ∀ group ∈ groups, group.keyword = a.keyword ∧ group.origin = a.origin) :
    ∃ trees, a.ofTrees? trees = .ok groups ∧ noBraceLeaf trees = true := by
  induction groups with
  | nil => exact ⟨[], rfl, rfl⟩
  | cons group groups ih =>
    obtain ⟨⟨hkeyword, horigin⟩, hgroups⟩ := List.forall_mem_cons.1 h
    obtain ⟨trees, htrees, hleaf⟩ := ih hgroups
    obtain ⟨items, hitems, hargs⟩ := matched_iff_exists_flatten.1 (isBalanced_iff.1 group.balanced)
    refine ⟨.group items :: trees, ?_, ?_⟩
    · rw [ofTrees?_group hitems, htrees]
      obtain ⟨keyword, args, origin, hbalanced⟩ := group
      subst hkeyword horigin hargs
      rfl
    · rw [noBraceLeaf, Tree.noBraceLeaf, hitems, hleaf]
      rfl

/-! ## The groups of an argument list -/

theorem subArguments?_eq_ofTrees? (hopen : "\x7b" ∈ a.args) (h : noBraceLeaf trees = true)
    (hflatten : flatten trees = a.args) : a.subArguments? = a.ofTrees? trees := by
  rw [subArguments?, if_pos (List.contains_iff_mem.2 hopen), group?_eq_some_iff.2 ⟨h, hflatten⟩,
    Option.getD_some]

theorem exists_trees (a : Arguments) :
    ∃ trees, noBraceLeaf trees = true ∧ flatten trees = a.args :=
  matched_iff_exists_flatten.1 (isBalanced_iff.1 a.balanced)

/-- The groups are the argument lists that are the arguments once they stand between braces. -/
theorem subArguments?_eq_ok_iff (hopen : "\x7b" ∈ a.args) :
    a.subArguments? = .ok groups ↔ grouped (groups.map (·.args)) = a.args ∧
      ∀ group ∈ groups, group.keyword = a.keyword ∧ group.origin = a.origin := by
  constructor
  · intro h
    obtain ⟨trees, hleaf, hflatten⟩ := a.exists_trees
    rw [subArguments?_eq_ofTrees? hopen hleaf hflatten] at h
    rw [← hflatten]
    exact ofTrees?_eq_ok h
  · rintro ⟨hargs, hgroups⟩
    obtain ⟨trees, htrees, hleaf⟩ := exists_ofTrees? hgroups
    rw [(ofTrees?_eq_ok htrees).1] at hargs
    rw [subArguments?_eq_ofTrees? hopen hleaf hargs, htrees]

/-- Tokens outside all groups are the only reason to refuse arguments with groups. -/
theorem subArguments?_eq_error_iff (hopen : "\x7b" ∈ a.args) {e : InputError} :
    a.subArguments? = .error e ↔
      HasStray a.args ∧ e = ⟨.bracesExpected a.text, a.origin⟩ := by
  obtain ⟨trees, hleaf, hflatten⟩ := a.exists_trees
  rw [subArguments?_eq_ofTrees? hopen hleaf hflatten, ← hflatten, hasStray_flatten_iff hleaf]
  constructor
  · intro h
    obtain ⟨token, hmem⟩ := exists_leaf_of_ofTrees? hleaf h
    rw [ofTrees?_of_mem_leaf hleaf hmem] at h
    cases h
    exact ⟨⟨token, hmem⟩, rfl⟩
  · rintro ⟨⟨token, hmem⟩, rfl⟩
    exact ofTrees?_of_mem_leaf hleaf hmem

/-- Groups between braces are the groups of an argument list. -/
theorem exists_subArguments? {lists : List (List String)} (hargs : a.args = grouped lists)
    (h : ∀ args ∈ lists, Matched args) :
    ∃ groups, a.subArguments? = .ok groups ∧ groups.map (·.args) = lists := by
  cases lists with
  | nil =>
    refine ⟨[], ?_, rfl⟩
    rw [subArguments?, hargs]
    rfl
  | cons args lists =>
    have hopen : "\x7b" ∈ a.args := by
      rw [hargs]
      exact List.mem_append_left _ (.head _)
    let groups := (args :: lists).pmap
      (fun args h => (⟨a.keyword, args, a.origin, h⟩ : Arguments)) fun args hmem =>
        isBalanced_iff.2 (h args hmem)
    have hmap : groups.map (·.args) = args :: lists := by
      rw [List.map_pmap]
      exact (List.pmap_eq_map _).trans (List.map_id _)
    refine ⟨groups, (subArguments?_eq_ok_iff hopen).2 ⟨?_, fun group hgroup => ?_⟩, hmap⟩
    · rw [hmap, hargs]
    · obtain ⟨args, hmem, rfl⟩ := List.mem_pmap.1 hgroup
      exact ⟨rfl, rfl⟩

/-! ## Asking again -/

namespace Asked

variable {k : Asked}

/-- The groups that are kept are those that would be found. -/
def Faithful (k : Asked) : Prop :=
  ∀ groups, k.found = some groups → k.arguments.subArguments? = .ok groups

theorem Faithful.groups? (hk : k.Faithful) : k.groups?.1 = k.arguments.subArguments? := by
  unfold Asked.groups?
  cases hfound : k.found with
  | some groups => exact (hk groups hfound).symm
  | none => cases k.arguments.subArguments? <;> rfl

/-- Asking keeps the arguments, and nothing but their groups. -/
theorem Faithful.asked (hk : k.Faithful) :
    k.groups?.2.Faithful ∧ k.groups?.2.arguments = k.arguments := by
  unfold Asked.groups?
  cases hfound : k.found with
  | some groups => exact ⟨hk, rfl⟩
  | none =>
    cases h : k.arguments.subArguments? with
    | ok groups =>
      refine ⟨?_, rfl⟩
      rintro _ ⟨⟩
      exact h
    | error e => exact ⟨hk, rfl⟩

theorem Faithful.iterate (hk : k.Faithful) (n : Nat) :
    ((·.groups?.2)^[n] k).Faithful ∧ ((·.groups?.2)^[n] k).arguments = k.arguments := by
  induction n generalizing k with
  | zero => exact ⟨hk, rfl⟩
  | succ n ih =>
    obtain ⟨hfaithful, harguments⟩ := ih hk.asked.1
    exact ⟨hfaithful, harguments.trans hk.asked.2⟩

/-- The groups are the same however often they were asked for before. -/
theorem groups?_iterate (a : Arguments) (n : Nat) :
    ((·.groups?.2)^[n] ({ arguments := a } : Asked)).groups?.1 = a.subArguments? := by
  have hnew : ({ arguments := a } : Asked).Faithful := nofun
  obtain ⟨hfaithful, harguments⟩ := hnew.iterate n
  rw [hfaithful.groups?, harguments]

end Asked

/-- **An argument list with groups is split into them without loss.** It is refused exactly if a
token stands outside all of its groups, with an error that shows it whole. Else its groups are the
argument lists of the same keyword and origin that are its tokens again once they stand between
braces, and they stay the same however often they are asked for. Any token lists with matching
braces are the groups of the argument list in which they stand between braces. -/
theorem subArguments?_exact :
    (∀ a : Arguments, "\x7b" ∈ a.args →
      (∀ e, a.subArguments? = .error e ↔
        HasStray a.args ∧ e = ⟨.bracesExpected a.text, a.origin⟩) ∧
      (∀ groups, a.subArguments? = .ok groups ↔ grouped (groups.map (·.args)) = a.args ∧
        ∀ group ∈ groups, group.keyword = a.keyword ∧ group.origin = a.origin) ∧
      ∀ n, ((·.groups?.2)^[n] ({ arguments := a } : Asked)).groups?.1 = a.subArguments?) ∧
    ∀ (keyword : String) (origin : Option Origin) (lists : List (List String)),
      (∀ args ∈ lists, Matched args) →
        ∃ a groups, make? keyword (grouped lists) origin = .ok a ∧ a.subArguments? = .ok groups ∧
          groups.map (·.args) = lists := by
  refine ⟨fun a hopen => ⟨fun e => subArguments?_eq_error_iff hopen,
    fun groups => subArguments?_eq_ok_iff hopen, Asked.groups?_iterate a⟩, ?_⟩
  intro keyword origin lists hlists
  have hbalanced : isBalanced (grouped lists) = true := isBalanced_iff.2 (matched_grouped hlists)
  obtain ⟨groups, hgroups, hargs⟩ :=
    exists_subArguments? (a := ⟨keyword, grouped lists, origin, hbalanced⟩) rfl hlists
  exact ⟨_, groups, make?_eq hbalanced keyword origin, hgroups, hargs⟩

/-- Two groups, the first with a group inside, the second without tokens. -/
def nested : Arguments where
  keyword := "List"
  args := ["\x7b", "a", "\x7b", "b", "\x7d", "\x7d", "\x7b", "\x7d"]
  balanced := by decide

theorem subArguments?_exact_nested :
    "\x7b" ∈ nested.args ∧
      nested.subArguments? =
        .ok [⟨"List", ["a", "\x7b", "b", "\x7d"], none, by decide⟩,
          ⟨"List", [], none, by decide⟩] ∧
      (∀ args ∈ [["a", "\x7b", "b", "\x7d"], []], Matched args) ∧
      ∃ a groups, make? "List" (grouped [["a", "\x7b", "b", "\x7d"], []]) none = .ok a ∧
        a.subArguments? = .ok groups ∧
        groups.map (·.args) = [["a", "\x7b", "b", "\x7d"], []] := by
  have hopen : "\x7b" ∈ nested.args := by decide
  have hmatched : ∀ args ∈ [["a", "\x7b", "b", "\x7d"], []], Matched args := by decide
  obtain ⟨hsplit, hjoin⟩ := subArguments?_exact
  obtain ⟨-, hgroups, -⟩ := hsplit nested hopen
  refine ⟨hopen, (hgroups _).2 ⟨rfl, ?_⟩, hmatched, hjoin "List" none _ hmatched⟩
  simp [nested]

end Arguments

end ModelInputs
