import ModelInputs.Proofs.Record.Words
import ModelInputs.Proofs.Registration
import ModelInputs.Proofs.Run.Tokens
import ModelInputs.Input.Text

/-!
# Key lists as text

The text of a key list is one group of names for each key, the key first, behind a group for the
keys without an entry, unless that list is empty. The groups are read one by one: a group that
starts with the name of a key is the list of that key, in place of any list that it had, and any
other group is the list for keys without an entry. So the lists of all keys come back, but the
other list is taken for that of a key where its first entity may be one, and an empty list is not
written at all.

* `KeyLists.putAll`, **`KeyLists.get_putAll`**: lists that are put in one after the other;
* `World.MeansItself`, `World.TakesList`: the names of entities, and what a list accepts;
* **`World.readEntities_names`**, `World.editList_names`: names are read as their entities;
* `World.keyGroups`, **`World.tokenize_keyListsText`**: the groups of the text;
* **`World.gives_editKeyLists_nil`**, **`World.gives_editKeyLists_keyed`**,
  **`World.gives_editKeyLists_keyless`**: how the groups are read.
-/

namespace ModelInputs

variable {lists : List (EntityId × List EntityId)} {keyless : List EntityId}

/-! ## Lists by key -/

namespace KeyLists

/-- Lists of some keys, put in one after the other. -/
def putAll (lists : List (EntityId × List EntityId)) (l : KeyLists) : KeyLists :=
  lists.foldl (fun l entry => l.put entry.1 entry.2) l

/-- The list that a key has of its own, or else another one. -/
def ownOr (lists : List (EntityId × List EntityId)) (other : List EntityId) (k : EntityId) :
    List EntityId :=
  ((lists.find? (·.1 == k)).map (·.2)).getD other

theorem ownOr_nil (other : List EntityId) (k : EntityId) : ownOr [] other k = other :=
  rfl

theorem ownOr_cons (entry : EntityId × List EntityId) (other : List EntityId) (k : EntityId) :
    ownOr (entry :: lists) other k = if entry.1 = k then entry.2 else ownOr lists other k := by
  unfold ownOr
  rw [List.find?_cons]
  by_cases h : entry.1 = k
  · rw [if_pos h, beq_iff_eq.2 h]
    rfl
  · rw [if_neg h, beq_eq_false_iff_ne.2 h]

/-- A key without an entry has the other list. -/
theorem ownOr_of_not_mem {k : EntityId} (h : k ∉ lists.map (·.1)) (other : List EntityId) :
    ownOr lists other k = other := by
  have hnone : lists.find? (·.1 == k) = none :=
    List.find?_eq_none.2 fun entry hentry heq =>
      h (List.mem_map.2 ⟨entry, hentry, beq_iff_eq.1 heq⟩)
  rw [ownOr, hnone]
  rfl

/-- The other list does not matter for a key with an entry. -/
theorem ownOr_of_mem {k : EntityId} (h : k ∈ lists.map (·.1)) (other other' : List EntityId) :
    ownOr lists other k = ownOr lists other' k := by
  induction lists with
  | nil => cases h
  | cons entry lists ih =>
    rw [ownOr_cons, ownOr_cons]
    split
    · rfl
    · next hne =>
      exact ih ((List.mem_cons.1 h).resolve_left (Ne.symm hne))

/-- Where all keys are different, each entry is what its key has. -/
theorem ownOr_of_entry (hnodup : (lists.map (·.1)).Nodup) {entry : EntityId × List EntityId}
    (hentry : entry ∈ lists) (other : List EntityId) : ownOr lists other entry.1 = entry.2 := by
  induction lists with
  | nil => cases hentry
  | cons head lists ih =>
    obtain ⟨hnew, hnodup⟩ := List.nodup_cons.1 hnodup
    rw [ownOr_cons]
    obtain rfl | hentry := List.mem_cons.1 hentry
    · exact if_pos rfl
    · rw [if_neg fun heq => hnew (List.mem_map.2 ⟨entry, hentry, heq.symm⟩)]
      exact ih hnodup hentry

theorem get_put (key k : EntityId) (es : List EntityId) (l : KeyLists) :
    (l.put key es).get k = if k = key then .ok es else l.get k := by
  rw [get, own?_put]
  by_cases h : k = key
  · rw [if_pos h, if_pos h]
    exact entitiesOf_ofEntities es
  · rw [if_neg h, if_neg h]
    rfl

/-- **The lists of different keys that are put in one after the other** are the lists of those keys,
and the other keys have what they had. -/
theorem get_putAll (hnodup : (lists.map (·.1)).Nodup) {l : KeyLists} {other : List EntityId}
    {k : EntityId} (hl : l.get k = .ok other) :
    (l.putAll lists).get k = .ok (ownOr lists other k) := by
  induction lists generalizing l other with
  | nil => exact hl
  | cons entry lists ih =>
    obtain ⟨hnew, hnodup⟩ := List.nodup_cons.1 hnodup
    have hput : (l.put entry.1 entry.2).get k =
        .ok (if k = entry.1 then entry.2 else other) := by
      rw [get_put, hl]
      split <;> rfl
    rw [ownOr_cons]
    refine (ih hnodup hput).trans (congrArg Except.ok ?_)
    split
    · next h =>
      subst h
      rw [if_pos rfl, ownOr_of_not_mem hnew]
    · next h => rw [if_neg (Ne.symm h)]

/-- What lists that are put in leave is compared with the lists of a key list. -/
theorem forall_get_putAll_iff (hnodup : (lists.map (·.1)).Nodup) {l : KeyLists}
    {other : EntityId → List EntityId} (hl : ∀ k, l.get k = .ok (other k)) :
    (∀ k, (l.putAll lists).get k = .ok (ownOr lists keyless k)) ↔
      ∀ k, ownOr lists (other k) k = ownOr lists keyless k := by
  refine forall_congr' fun k => ?_
  rw [get_putAll hnodup (hl k), Except.ok.injEq]

theorem own?_keyEntries (k : EntityId) :
    own? ⟨Value.keyEntries lists, keyless⟩ k =
      (lists.find? (·.1 == k)).map fun entry => .ofEntities entry.2 := by
  have hkey : (fun entry : Value × Value => entry.1.isEntity k) ∘
      (fun entry : EntityId × List EntityId => (Value.entity entry.1, Value.ofEntities entry.2)) =
        (·.1 == k) :=
    rfl
  rw [own?, Value.keyEntries, List.find?_map, hkey, Option.map_map]
  rfl

theorem get_keyEntries (k : EntityId) :
    get ⟨Value.keyEntries lists, keyless⟩ k = .ok (ownOr lists keyless k) := by
  rw [get, own?_keyEntries, ownOr]
  cases lists.find? (·.1 == k) with
  | none => rfl
  | some entry => exact entitiesOf_ofEntities entry.2

theorem isSome_own?_keyEntries (k : EntityId) :
    (own? ⟨Value.keyEntries lists, keyless⟩ k).isSome = true ↔ k ∈ lists.map (·.1) := by
  rw [own?_keyEntries, Option.isSome_map, List.find?_isSome, List.mem_map]
  simp only [beq_iff_eq]

end KeyLists

namespace World

variable {w : World} {this : Option EntityId} {type keyType valueType : TypeRef}
  {keyword : String} {e key : EntityId} {es default : List EntityId} {l l' : KeyLists}

/-! ## Names -/

/-- In a list of entities of a class, the name of the entity means that entity alone: it is
registered, stands for no members, and its name is no sign for additions or removals. -/
structure MeansItself (w : World) (type : TypeRef) (e : EntityId) : Prop where
  registered : e ∈ w.registered
  alone : w.expand type e = .ok [.entity e]
  noPlus : w.nameOf e ≠ "++"
  noMinus : w.nameOf e ≠ "--"

/-- A list of an input accepts the entities: they are of the class and no two are the same. -/
structure TakesList (w : World) (this : Option EntityId) (type : TypeRef) (es : List EntityId) :
    Prop where
  hasNamespace : w.hasNamespace this = true
  instances : ∀ e ∈ es, w.isInstance e type = true
  nodup : es.Nodup

theorem MeansItself.standsFor_iff (hw : w.Faithful) (he : w.MeansItself type e) :
    w.StandsFor type (w.nameOf e) es ↔ es = [e] := by
  have hnamed := hw.named?_nameOf he.registered
  constructor
  · rintro ⟨y, hy, hexpand⟩
    rw [hnamed] at hy
    cases hy
    rw [he.alone] at hexpand
    have hmap : [e].map Value.entity = es.map .entity := Except.ok.inj hexpand
    exact (List.map_injective_iff.2 (fun _ _ => Value.entity.inj) hmap).symm
  · rintro rfl
    exact ⟨e, hnamed, he.alone⟩

/-- **Names are read as their entities**, if the list accepts these. -/
theorem readEntities_names (hw : w.Faithful) (hes : ∀ e ∈ es, w.MeansItself type e)
    {r : List EntityId} :
    w.readEntities this type true (es.map w.nameOf) = .ok r ↔
      w.TakesList this type es ∧ r = es := by
  have hparts (parts : List (List EntityId)) :
      List.Forall₂ (w.StandsFor type) (es.map w.nameOf) parts ↔ parts = es.map ([·]) := by
    induction es generalizing parts with
    | nil => rw [List.map_nil, List.forall₂_nil_left_iff, List.map_nil]
    | cons e es ih =>
      obtain ⟨he, hes⟩ := List.forall_mem_cons.1 hes
      rw [List.map_cons, List.map_cons, List.forall₂_cons_left_iff]
      simp only [he.standsFor_iff hw, ih hes]
      constructor
      · rintro ⟨_, _, rfl, rfl, rfl⟩
        rfl
      · rintro rfl
        exact ⟨_, _, rfl, rfl, rfl⟩
  have hflatten : (es.map ([·])).flatten = es := by
    rw [← List.flatMap_def, List.flatMap_singleton']
  rw [readEntities_eq_ok]
  constructor
  · rintro ⟨hns, ⟨parts, hstand, rfl⟩, hinstances, hnodup⟩
    rw [(hparts parts).1 hstand, hflatten] at hinstances hnodup ⊢
    exact ⟨⟨hns, hinstances, hnodup rfl⟩, rfl⟩
  · rintro ⟨htakes, rfl⟩
    exact ⟨htakes.hasNamespace, ⟨_, (hparts _).2 rfl, hflatten.symm⟩, htakes.instances,
      fun _ => htakes.nodup⟩

/-- Names that are no signs replace a list, whatever it was. -/
theorem editList_names (hes : ∀ e ∈ es, w.MeansItself type e)
    (before : Except Failure (List EntityId)) :
    w.editList this keyword type before (es.map w.nameOf) =
      Logged.ofExcept (w.readEntities this type true (es.map w.nameOf)) := by
  cases es with
  | nil => rfl
  | cons e es =>
    have he := hes e (.head _)
    unfold editList
    dsimp only
    split
    · next h => exact absurd (List.cons.inj h).1 he.noPlus
    · next h => exact absurd (List.cons.inj h).1 he.noMinus
    · rfl

/-! ## The text -/

/-- The names in the groups of a key list: those of the list for keys without an entry, unless it
is empty, and then each key with those of its list. -/
def keyGroups (w : World) (keyless : List EntityId) (lists : List (EntityId × List EntityId)) :
    List (List String) :=
  (if keyless.isEmpty then [] else [keyless.map w.nameOf]) ++
    lists.map fun entry => (entry.1 :: entry.2).map w.nameOf

theorem keyListsText_eq :
    w.keyListsText keyless (.map (Value.keyEntries lists)) =
      .ok (bracedAll ((w.keyGroups keyless lists).map (" ".intercalate ·))) := by
  have hentry (entry : EntityId × List EntityId) :
      w.entryText (.entity entry.1, .ofEntities entry.2) =
        .ok (" ".intercalate ((entry.1 :: entry.2).map w.nameOf)) := by
    have hname (e : EntityId) : w.nameIn (.entity e) = .ok (w.nameOf e) := rfl
    have hnames : (entry.2.map Value.entity).mapM w.nameIn = .ok (entry.2.map w.nameOf) :=
      mapM_map_eq_ok hname _
    simp only [entryText, nameIn, Value.ofEntities, Value.members, ok_bind, hnames, List.map_cons]
    rfl
  have hentries : (Value.keyEntries lists).mapM w.entryText =
      .ok (lists.map fun entry => " ".intercalate ((entry.1 :: entry.2).map w.nameOf)) :=
    mapM_map_eq_ok hentry _
  rw [keyListsText, hentries, ok_bind, keyGroups, List.map_append, List.map_map]
  split
  · rfl
  · rfl

/-- The name of an entity is read as one word. -/
theorem Faithful.isWord_nameOf (hw : w.Faithful) (he : (w.entity? e).isSome = true) :
    Record.IsWord (w.nameOf e) := by
  have hvalid := hw.valid e he
  refine ⟨fun hnil => bne_iff_ne.1 (Bool.and_eq_true_iff.1 hvalid).1 (String.toList_inj.1 hnil),
    List.all_eq_true.2 fun c hc => ?_⟩
  rw [← Bool.not_eq_false, Record.not_isPlain_iff]
  intro hspecial
  refine not_mem_of_isValidName hvalid ?_ hc
  have hsub : ['\'', '"', ' ', '\t', '\r', '\n', '\x7b', '\x7d'] ⊆ nameDelimiters := by decide
  exact hsub hspecial

/-- The lists by key are as edits leave them: the keys are different ones that their names are read
as, and their lists are accepted. -/
structure Keyed (w : World) (this : Option EntityId) (keyType valueType : TypeRef)
    (lists : List (EntityId × List EntityId)) : Prop where
  nodup : (lists.map (·.1)).Nodup
  found : ∀ entry ∈ lists, w.keyNamed? this keyType (w.nameOf entry.1) = some entry.1
  takes : ∀ entry ∈ lists, w.TakesList this valueType entry.2

/-- The names of all listed entities mean these. -/
structure ListsMean (w : World) (type : TypeRef) (keyless : List EntityId)
    (lists : List (EntityId × List EntityId)) : Prop where
  keyless : ∀ e ∈ keyless, w.MeansItself type e
  lists : ∀ entry ∈ lists, ∀ e ∈ entry.2, w.MeansItself type e

/-- A key is a registered entity of the class. -/
theorem keyNamed?_eq_some {name : String} :
    w.keyNamed? this keyType name = some key ↔
      w.hasNamespace this = true ∧ w.named? name = some key ∧ w.isInstance key keyType = true := by
  rw [keyNamed?, Option.filter_eq_some_iff, findNamed?_eq_some, and_assoc]

/-- The groups of a key list hold names only, each of which is one word. -/
theorem isWord_keyGroups (hw : w.Faithful) (hkeyed : w.Keyed this keyType valueType lists)
    (hmean : w.ListsMean valueType keyless lists) :
    ∀ names ∈ w.keyGroups keyless lists, ∀ name ∈ names, Record.IsWord name := by
  have hregistered {e : EntityId} (he : e ∈ w.registered) : Record.IsWord (w.nameOf e) :=
    hw.isWord_nameOf (hw.isSome_entity? he)
  intro names hnames name hname
  rw [keyGroups, List.mem_append] at hnames
  obtain hnames | hnames := hnames
  · split at hnames
    · cases hnames
    rw [List.mem_singleton.1 hnames] at hname
    obtain ⟨e, he, rfl⟩ := List.mem_map.1 hname
    exact hregistered (hmean.keyless e he).registered
  · obtain ⟨entry, hentry, rfl⟩ := List.mem_map.1 hnames
    obtain ⟨e, he, rfl⟩ := List.mem_map.1 hname
    obtain rfl | he := List.mem_cons.1 he
    · have hkey := keyNamed?_eq_some.1 (hkeyed.found entry hentry)
      exact hregistered (mem_registered_of_named? hkey.2.1)
    · exact hregistered (hmean.lists entry hentry e he).registered

/-- **The text of a key list is read as its groups.** -/
theorem tokenize_keyListsText (hw : w.Faithful) (hkeyed : w.Keyed this keyType valueType lists)
    (hmean : w.ListsMean valueType keyless lists) :
    ∃ text, w.keyListsText keyless (.map (Value.keyEntries lists)) = .ok text ∧
      Record.tokenize text = Record.grouped (w.keyGroups keyless lists) :=
  ⟨_, keyListsText_eq, Record.tokenize_bracedAll_words (isWord_keyGroups hw hkeyed hmean)⟩

/-! ## Reading -/

section

variable {group : Arguments} {groups : List Arguments} {first : EntityId} {others : List EntityId}

/-- A group that starts with the name of a key edits the list that this key has of its own. -/
theorem editGroup_of_key {name : String} {tokens : List String}
    (hkey : w.keyNamed? this keyType name = some key) (hargs : group.args = name :: tokens) :
    w.editGroup this keyword keyType valueType l group =
      (w.editList this keyword valueType (l.ownList key) tokens >>= fun es =>
        pure (l.put key es)) := by
  rw [editGroup, hargs]
  dsimp only
  rw [hkey]

/-- If names follow then they are its list. -/
theorem editGroup_keyed (hkey : w.keyNamed? this keyType (w.nameOf key) = some key)
    (hes : ∀ e ∈ es, w.MeansItself valueType e)
    (hargs : group.args = (key :: es).map w.nameOf) :
    w.editGroup this keyword keyType valueType l group =
      (Logged.ofExcept (w.readEntities this valueType true (es.map w.nameOf)) >>= fun es =>
        pure (l.put key es)) := by
  rw [List.map_cons] at hargs
  rw [editGroup_of_key hkey hargs, editList_names hes]

/-- A group that starts with the name of no key is the list for keys without an entry. -/
theorem editGroup_keyless (hkey : w.keyNamed? this keyType (w.nameOf first) = none)
    (hes : ∀ e ∈ first :: others, w.MeansItself valueType e)
    (hargs : group.args = (first :: others).map w.nameOf) :
    w.editGroup this keyword keyType valueType l group =
      (Logged.ofExcept (w.readEntities this valueType true ((first :: others).map w.nameOf)) >>=
        fun es => pure { l with keyless := es }) := by
  rw [editGroup, hargs, List.map_cons]
  dsimp only
  rw [hkey]
  dsimp only
  rw [← List.map_cons, editList_names hes]

/-- **The groups of the keys are read as their lists**, whatever lists there were. -/
theorem foldlM_editGroup (hw : w.Faithful) (hkeyed : w.Keyed this keyType valueType lists)
    (hmean : ∀ entry ∈ lists, ∀ e ∈ entry.2, w.MeansItself valueType e)
    (hgroups : groups.map (·.args) = lists.map fun entry => (entry.1 :: entry.2).map w.nameOf) :
    groups.foldlM (w.editGroup this keyword keyType valueType) l = pure (l.putAll lists) := by
  induction lists generalizing groups l with
  | nil =>
    rw [List.map_eq_nil_iff.1 hgroups]
    rfl
  | cons entry lists ih =>
    obtain ⟨group, groups, rfl, hargs, hgroups⟩ := List.map_eq_cons_iff.1 hgroups
    obtain ⟨hentry, hmean⟩ := List.forall_mem_cons.1 hmean
    have hread : w.readEntities this valueType true (entry.2.map w.nameOf) = .ok entry.2 :=
      (readEntities_names hw hentry).2 ⟨hkeyed.takes entry (.head _), rfl⟩
    have hrest : w.Keyed this keyType valueType lists :=
      ⟨(List.nodup_cons.1 hkeyed.nodup).2, fun _ h => hkeyed.found _ (.tail _ h),
        fun _ h => hkeyed.takes _ (.tail _ h)⟩
    rw [List.foldlM_cons, editGroup_keyed (hkeyed.found entry (.head _)) hentry hargs, hread]
    exact ih hrest hmean hgroups

variable {a : Arguments}

/-- The groups of a text are edits that are made one after the other. -/
theorem exists_foldlM_editGroup (hw : w.Faithful) (hkeyed : w.Keyed this keyType valueType lists)
    (hmean : w.ListsMean valueType keyless lists)
    (hargs : a.args = Record.grouped (w.keyGroups keyless lists)) :
    ∃ groups : List Arguments, groups.map (·.args) = w.keyGroups keyless lists ∧
      w.editKeyLists this keyword keyType valueType l a =
        groups.foldlM (w.editGroup this keyword keyType valueType) l := by
  have hwords := isWord_keyGroups hw hkeyed hmean
  obtain ⟨groups, hgroups, hnames⟩ := Arguments.exists_subArguments?_grouped hargs
    fun names hnames name hname => (hwords names hnames name hname).not_isBrace
  refine ⟨groups, hnames, ?_⟩
  rw [editKeyLists, hgroups]
  rfl

/-- **Without a list for keys without an entry**, the text leaves that list as it was. -/
theorem gives_editKeyLists_nil (hw : w.Faithful) (hkeyed : w.Keyed this keyType valueType lists)
    (hmean : w.ListsMean valueType [] lists)
    (hargs : a.args = Record.grouped (w.keyGroups [] lists)) :
    (w.editKeyLists this keyword keyType valueType l a).Gives l' ↔ l' = l.putAll lists := by
  obtain ⟨groups, hgroups, hedit⟩ := exists_foldlM_editGroup hw hkeyed hmean hargs
  rw [hedit, foldlM_editGroup hw hkeyed hmean.lists hgroups, Logged.gives_pure]

/-- The list for keys without an entry comes first, and then those of the keys. -/
theorem gives_editKeyLists_cons (hw : w.Faithful) (hkeyed : w.Keyed this keyType valueType lists)
    (hmean : w.ListsMean valueType (first :: others) lists)
    (hargs : a.args = Record.grouped (w.keyGroups (first :: others) lists))
    {names : List String} {put : List EntityId → KeyLists}
    (hfirst : ∀ group : Arguments, group.args = (first :: others).map w.nameOf →
      w.editGroup this keyword keyType valueType l group =
        (Logged.ofExcept (w.readEntities this valueType true names) >>= fun es => pure (put es))) :
    (w.editKeyLists this keyword keyType valueType l a).Gives l' ↔
      ∃ es, w.readEntities this valueType true names = .ok es ∧ l' = (put es).putAll lists := by
  obtain ⟨groups, hgroups, hedit⟩ := exists_foldlM_editGroup hw hkeyed hmean hargs
  obtain ⟨group, groups, rfl, hargs, hgroups⟩ := List.map_eq_cons_iff.1 hgroups
  rw [hedit, List.foldlM_cons, hfirst group hargs, bind_assoc, Logged.gives_ofExcept_bind]
  simp only [pure_bind, foldlM_editGroup hw hkeyed hmean.lists hgroups, Logged.gives_pure]

/-- **Where the first entity of that list may be a key**, the list is taken for that of the key. -/
theorem gives_editKeyLists_keyed (hw : w.Faithful) (hkeyed : w.Keyed this keyType valueType lists)
    (hmean : w.ListsMean valueType (first :: others) lists)
    (hargs : a.args = Record.grouped (w.keyGroups (first :: others) lists))
    (hkey : w.keyNamed? this keyType (w.nameOf first) = some first) :
    (w.editKeyLists this keyword keyType valueType l a).Gives l' ↔
      w.TakesList this valueType others ∧ l' = (l.put first others).putAll lists := by
  have hothers := (List.forall_mem_cons.1 hmean.keyless).2
  rw [gives_editKeyLists_cons hw hkeyed hmean hargs fun _ => editGroup_keyed hkey hothers]
  simp only [readEntities_names hw hothers, and_assoc, exists_and_left, exists_eq_left]

/-- **Otherwise the list is read as it is.** -/
theorem gives_editKeyLists_keyless (hw : w.Faithful)
    (hkeyed : w.Keyed this keyType valueType lists)
    (hmean : w.ListsMean valueType (first :: others) lists)
    (hargs : a.args = Record.grouped (w.keyGroups (first :: others) lists))
    (hkey : w.keyNamed? this keyType (w.nameOf first) = none) :
    (w.editKeyLists this keyword keyType valueType l a).Gives l' ↔
      w.TakesList this valueType (first :: others) ∧
        l' = KeyLists.putAll lists { l with keyless := first :: others } := by
  rw [gives_editKeyLists_cons hw hkeyed hmean hargs fun _ =>
    editGroup_keyless hkey hmean.keyless]
  simp only [readEntities_names hw hmean.keyless, and_assoc, exists_and_left, exists_eq_left]

end

end World

end ModelInputs
