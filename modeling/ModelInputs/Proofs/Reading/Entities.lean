import ModelInputs.Proofs.Folding
import ModelInputs.Proofs.Parsing

/-!
# The entities of a result

An expression that is read from a text has names of entities in it, but no entities: its constants
are numbers, texts, the absent entity and what is folded from these. So an entity gets into its
result from the environment only, as the one that the expression belongs to, as one that is found
under its name, or as part of what an output yields. Operators add none, since they yield numbers
and texts; indexing and choosing select one of several results.

* `Result.entities`, `Result.HoldsOnly`: the entities that a result is or holds;
* `Confined`: what holds no other entities if there is a result at all;
* `BinaryOp.confined_apply`, `Function.confined_apply`: operators and functions;
* `Expr.mentions`: the entities in the constants of a tree;
* **`Expr.confined_eval`**: a result holds no other entities than the environment and the constants;
* **`Expression.addsNone_of_parse?`**: the constants of a text hold none.
-/

namespace ModelInputs

/-! ## Results -/

namespace Result

mutual

/-- The entities that a result is or holds. -/
def entities : Result → List EntityId
  | entity (some e) => [e]
  | array items => entitiesOfItems items
  | map entries => entitiesOfEntries entries
  | _ => []

/-- The entities that the items of an array are or hold. -/
def entitiesOfItems : List Result → List EntityId
  | [] => []
  | r :: rs => r.entities ++ entitiesOfItems rs

/-- The entities that the entries of a map are or hold. -/
def entitiesOfEntries : List (String × Result) → List EntityId
  | [] => []
  | (_, r) :: entries => r.entities ++ entitiesOfEntries entries

end

/-- The result is or holds no other entities than those. -/
def HoldsOnly (S : EntityId → Prop) (r : Result) : Prop :=
  ∀ e ∈ r.entities, S e

variable {S : EntityId → Prop} {r : Result}

theorem entitiesOfItems_eq (rs : List Result) : entitiesOfItems rs = rs.flatMap entities := by
  induction rs with
  | nil => rfl
  | cons r rs ih => rw [entitiesOfItems, ih, List.flatMap_cons]

theorem entitiesOfEntries_eq (entries : List (String × Result)) :
    entitiesOfEntries entries = entries.flatMap (·.2.entities) := by
  induction entries with
  | nil => rfl
  | cons entry entries ih => rw [entitiesOfEntries, ih, List.flatMap_cons]

theorem HoldsOnly.of_eq_nil (h : r.entities = []) : r.HoldsOnly S := by
  rw [HoldsOnly, h]
  exact nofun

theorem holdsOnly_number (x : Float) (u : UnitType) : (number x u).HoldsOnly S :=
  .of_eq_nil rfl

theorem holdsOnly_ofBool (b : Bool) : (ofBool b).HoldsOnly S :=
  .of_eq_nil rfl

theorem holdsOnly_entity_iff {e : EntityId} : (entity (some e)).HoldsOnly S ↔ S e := by
  rw [HoldsOnly, entities, List.forall_mem_singleton]

theorem holdsOnly_array_iff {items : List Result} :
    (array items).HoldsOnly S ↔ ∀ r ∈ items, r.HoldsOnly S := by
  rw [HoldsOnly, entities, entitiesOfItems_eq, List.forall_mem_flatMap]
  rfl

theorem holdsOnly_map_iff {entries : List (String × Result)} :
    (map entries).HoldsOnly S ↔ ∀ entry ∈ entries, entry.2.HoldsOnly S := by
  rw [HoldsOnly, entities, entitiesOfEntries_eq, List.forall_mem_flatMap]
  rfl

end Result

/-! ## Outcomes -/

/-- A result, if there is one, holds no other entities than those. -/
def Confined {ε : Type} (S : EntityId → Prop) (x : Except ε Result) : Prop :=
  ∀ r, x = .ok r → r.HoldsOnly S

section

variable {ε ε' α : Type} {S : EntityId → Prop} {r : Result}

theorem confined_ok (h : r.HoldsOnly S) : Confined S (.ok r : Except ε Result) := by
  rintro _ ⟨⟩
  exact h

theorem confined_error {f : ε} : Confined S (.error f) :=
  nofun

theorem confined_bind {x : Except ε α} {k : α → Except ε Result}
    (h : ∀ a, x = .ok a → Confined S (k a)) : Confined S (x >>= k) := by
  intro r hr
  obtain ⟨a, ha, hk⟩ := bind_eq_ok.1 hr
  exact h a ha r hk

theorem confined_mapError {f : ε → ε'} {x : Except ε Result} (h : Confined S x) :
    Confined S (x.mapError f) :=
  fun r hr => h r (mapError_eq_ok.1 hr)

end

/-! ## Operators -/

section

variable {S : EntityId → Prop}

theorem UnaryOp.confined_apply (op : UnaryOp) (operand : Result) :
    Confined S (op.apply operand) := by
  refine confined_bind fun number hnumber => ?_
  cases op with
  | neg => exact confined_ok (Result.holdsOnly_number _ _)
  | pos =>
    -- the operand itself is the result, but only where it is a number
    cases operand with
    | number x u => exact confined_ok (Result.holdsOnly_number x u)
    | _ => cases hnumber
  | not => exact confined_ok (Result.holdsOnly_ofBool _)

namespace BinaryOp

theorem confined_numberOf (x : Float) (u v : UnitType) (unit : Option UnitType) :
    Confined S (numberOf x u v unit) := by
  cases unit with
  | none => exact confined_error
  | some w => exact confined_ok (Result.holdsOnly_number x w)

theorem confined_comparison (op : BinaryOp) (left right : Result) :
    Confined S (op.comparison left right) := by
  unfold comparison
  split
  · exact confined_ok (Result.holdsOnly_ofBool _)
  · exact confined_bind fun _ _ => confined_bind fun _ _ =>
      confined_ok (Result.holdsOnly_ofBool _)

theorem confined_sum (left right : Result) : Confined S (sum left right) := by
  unfold sum
  split
  · exact confined_ok (.of_eq_nil rfl)
  · exact confined_bind fun _ _ => confined_bind fun _ _ =>
      confined_ok (Result.holdsOnly_number _ _)

theorem confined_remainder (left right : Result) : Confined S (remainder left right) := by
  refine confined_bind fun _ _ => confined_bind fun _ _ => ?_
  split
  · exact confined_ok (Result.holdsOnly_number _ _)
  · split
    · exact confined_ok (Result.holdsOnly_number _ _)
    · exact confined_error

theorem confined_power (left right : Result) : Confined S (power left right) := by
  refine confined_bind ?_
  rintro ⟨⟨x, u⟩, y, v⟩ -
  dsimp only
  split
  · exact confined_ok (Result.holdsOnly_number _ _)
  · exact confined_error

theorem confined_map_ofBool (x : Except OpFault Bool) (f : Bool → Bool) :
    Confined S (x.map fun b => .ofBool (f b)) := by
  intro r hr
  obtain ⟨b, -, rfl⟩ := map_eq_ok.1 hr
  exact Result.holdsOnly_ofBool _

/-- **An operator yields numbers and texts.** -/
theorem confined_apply (op : BinaryOp) (left right : Result) :
    Confined S (op.apply left right) := by
  cases op with
  | add => exact confined_sum left right
  | sub =>
    exact confined_bind fun _ _ => confined_bind fun _ _ =>
      confined_ok (Result.holdsOnly_number _ _)
  | mul => exact confined_bind fun _ _ => confined_numberOf _ _ _ _
  | div => exact confined_bind fun _ _ => confined_numberOf _ _ _ _
  | mod => exact confined_remainder left right
  | pow => exact confined_power left right
  | eq => exact confined_map_ofBool _ id
  | ne => exact confined_map_ofBool _ not
  | lt | le | gt | ge => exact confined_comparison _ left right
  | and | or => exact confined_error

end BinaryOp

/-! ## Functions -/

theorem confined_ofAngle (f : Function) (g : Float → Float) (arg : Result) :
    Confined S (ofAngle f g arg) := by
  refine confined_bind ?_
  rintro ⟨x, u⟩ -
  dsimp only
  split
  · split
    · exact confined_ok (Result.holdsOnly_number _ _)
    · exact confined_error
  · exact confined_error

theorem confined_ofDimensionless (f : Function) (g : Float → Float) (unit : UnitType)
    (arg : Result) : Confined S (ofDimensionless f g unit arg) := by
  refine confined_bind ?_
  rintro ⟨x, u⟩ -
  dsimp only
  split
  · exact confined_ok (Result.holdsOnly_number _ _)
  · exact confined_error

theorem confined_sizeOfResult (arg : Result) : Confined S (sizeOfResult arg) := by
  cases arg with
  | array | map | text => exact confined_ok (Result.holdsOnly_number _ _)
  | _ => exact confined_error

/-- A choice is one of the results to choose from. -/
theorem confined_chooseAt {index : Result} {choices : List Result}
    (h : ∀ r ∈ choices, r.HoldsOnly S) : Confined S (chooseAt index choices) := by
  refine confined_bind ?_
  rintro ⟨x, u⟩ -
  dsimp only
  split
  · split
    · next r hr => exact confined_ok (h r (List.mem_of_getElem? hr))
    · exact confined_error
  · exact confined_error

namespace Function

theorem confined_applyOne (f : Function) (arg : Result) : Confined S (f.applyOne arg) := by
  cases f with
  | abs | ceil | floor | signum =>
    exact confined_bind fun _ _ => confined_ok (Result.holdsOnly_number _ _)
  | sqrt | exp | ln | log | asin | acos | atan => exact confined_ofDimensionless _ _ _ arg
  | sin | cos | tan => exact confined_ofAngle _ _ arg
  | size => exact confined_sizeOfResult arg
  | notNull => exact confined_ok (Result.holdsOnly_ofBool _)
  | _ => exact confined_error

/-- **A function yields a number, or one of its arguments.** -/
theorem confined_apply {f : Function} {args : List Result} (h : ∀ r ∈ args, r.HoldsOnly S) :
    Confined S (f.apply args) := by
  unfold Function.apply
  split
  · exact confined_bind fun _ _ => confined_ok (Result.holdsOnly_number _ _)
  · exact confined_bind fun _ _ => confined_ok (Result.holdsOnly_number _ _)
  · exact confined_bind fun _ _ => confined_ok (Result.holdsOnly_number _ _)
  · exact confined_bind fun _ _ => confined_ok (Result.holdsOnly_number _ _)
  · exact confined_ok (Result.holdsOnly_number _ _)
  · exact confined_ok (Result.holdsOnly_number _ _)
  · exact confined_chooseAt fun r hr => h r (.tail _ hr)
  · exact confined_bind fun _ _ => confined_bind fun _ _ => confined_bind fun _ _ =>
      confined_ok (Result.holdsOnly_number _ _)
  · exact confined_applyOne _ _
  · exact confined_error

end Function

end

/-! ## Expressions -/

/-- An environment knows no other entities than those, and what their outputs yield holds no other
ones either. -/
structure Env.KnowsOnly (env : Env) (S : EntityId → Prop) : Prop where
  this : ∀ e, env.this = some e → S e
  lookup : ∀ name e, env.lookup name = some e → S e
  read : ∀ e name x, S e → env.read e name = some x → Confined S x

namespace Expr

mutual

/-- The entities in the constants of a tree. -/
def mentions : Expr → List EntityId
  | literal value _ => value.entities
  | entity _ _ => []
  | output target _ _ => mentions target
  | index target i _ => mentions target ++ mentions i
  | binary _ left right _ => mentions left ++ mentions right
  | unary _ operand _ => mentions operand
  | cond condition thenExpr elseExpr _ =>
    mentions condition ++ (mentions thenExpr ++ mentions elseExpr)
  | call _ args _ => mentionsOfItems args
  | array items _ => mentionsOfItems items
  | map entries _ => mentionsOfEntries entries

/-- The entities in the constants of some trees. -/
def mentionsOfItems : List Expr → List EntityId
  | [] => []
  | item :: items => mentions item ++ mentionsOfItems items

/-- The entities in the constants of the entries of a map. -/
def mentionsOfEntries : List (String × Expr) → List EntityId
  | [] => []
  | (_, value) :: entries => mentions value ++ mentionsOfEntries entries

end

section

variable {env : Env} {S : EntityId → Prop} {pos : Nat}

theorem confined_evalEntity (h : env.KnowsOnly S) (name : Option String) :
    Confined S (evalEntity env name pos) := by
  unfold evalEntity
  split
  · split
    · next e he => exact confined_ok (Result.holdsOnly_entity_iff.2 (h.this e he))
    · exact confined_error
  · split
    · next e he => exact confined_ok (Result.holdsOnly_entity_iff.2 (h.lookup _ e he))
    · exact confined_error

theorem confined_evalOutput (h : env.KnowsOnly S) {target : Result} (ht : target.HoldsOnly S)
    (name : String) : Confined S (evalOutput env target name pos) := by
  unfold evalOutput
  split
  · next e =>
    split
    · next x hx =>
      exact confined_mapError (h.read e name x (Result.holdsOnly_entity_iff.1 ht) hx)
    · exact confined_error
  · exact confined_error
  · exact confined_error

/-- An item is one of those of the array or map. -/
theorem confined_itemAt {nameOf : EntityId → String} {target index : Result}
    (ht : target.HoldsOnly S) : Confined S (itemAt nameOf target index) := by
  unfold itemAt
  split
  · next items =>
    split
    · split
      · dsimp only
        split
        · split
          · next r hr =>
            exact confined_ok (Result.holdsOnly_array_iff.1 ht r (List.mem_of_getElem? hr))
          · exact confined_error
        · exact confined_error
      · exact confined_error
    · exact confined_error
  · next entries =>
    split
    · next key =>
      split
      · next r hr =>
        obtain ⟨before, behind, rfl, -⟩ := List.lookup_eq_some_iff.1 hr
        exact confined_ok (Result.holdsOnly_map_iff.1 ht (key, r)
          (List.mem_append_right _ (.head _)))
      · exact confined_error
    · exact confined_error
  · exact confined_error

theorem confined_evalAnd (left : Result) (right : Unit → Except Failure Result) :
    Confined S (evalAnd pos left right) := by
  refine confined_bind fun b _ => ?_
  cases b with
  | false => exact confined_ok (Result.holdsOnly_ofBool _)
  | true =>
    exact confined_bind fun _ _ => confined_bind fun _ _ =>
      confined_ok (Result.holdsOnly_ofBool _)

theorem confined_evalOr (left : Result) (right : Unit → Except Failure Result) :
    Confined S (evalOr pos left right) := by
  refine confined_bind fun b _ => ?_
  cases b with
  | true => exact confined_ok (Result.holdsOnly_ofBool _)
  | false =>
    exact confined_bind fun _ _ => confined_bind fun _ _ =>
      confined_ok (Result.holdsOnly_ofBool _)

end

mutual

/-- **A result holds no other entities than the environment and the constants.** -/
theorem confined_eval {env : Env} {S : EntityId → Prop} (h : env.KnowsOnly S) :
    ∀ e : Expr, (∀ y ∈ e.mentions, S y) → Confined S (e.eval env)
  | literal value pos, he => confined_ok he
  | entity name pos, _ => confined_evalEntity h name
  | output target name pos, he => by
    rw [eval_output]
    exact confined_bind fun r hr => confined_evalOutput h (confined_eval h target he r hr) name
  | index target i pos, he => by
    obtain ⟨ht, -⟩ := List.forall_mem_append.1 he
    rw [eval_index]
    exact confined_bind fun r hr => confined_bind fun _ _ =>
      confined_mapError (confined_itemAt (confined_eval h target ht r hr))
  | binary op left right pos, he => by
    rw [eval_binary]
    refine confined_bind fun l _ => ?_
    cases op with
    | and => exact confined_evalAnd l _
    | or => exact confined_evalOr l _
    | _ => exact confined_bind fun _ _ => confined_mapError (BinaryOp.confined_apply _ _ _)
  | unary op operand pos, he => by
    rw [eval_unary]
    exact confined_bind fun _ _ => confined_mapError (op.confined_apply _)
  | cond condition thenExpr elseExpr pos, he => by
    obtain ⟨-, he⟩ := List.forall_mem_append.1 he
    obtain ⟨hthen, helse⟩ := List.forall_mem_append.1 he
    rw [eval_cond]
    refine confined_bind fun _ _ => confined_bind fun b _ => ?_
    cases b with
    | true => exact confined_eval h thenExpr hthen
    | false => exact confined_eval h elseExpr helse
  | call function args pos, he => by
    rw [eval_call]
    exact confined_bind fun rs hrs =>
      confined_mapError (Function.confined_apply (confined_evalItems h args he rs hrs))
  | array items pos, he => by
    rw [eval_array]
    exact confined_bind fun rs hrs =>
      confined_ok (Result.holdsOnly_array_iff.2 (confined_evalItems h items he rs hrs))
  | map entries pos, he => by
    rw [eval_map]
    exact confined_bind fun rs hrs =>
      confined_ok (Result.holdsOnly_map_iff.2 (confined_evalEntries h entries he rs hrs))

theorem confined_evalItems {env : Env} {S : EntityId → Prop} (h : env.KnowsOnly S) :
    ∀ items : List Expr, (∀ y ∈ mentionsOfItems items, S y) →
      ∀ rs, evalItems env items = .ok rs → ∀ r ∈ rs, r.HoldsOnly S
  | [], _ => by
    rintro _ ⟨⟩
    exact nofun
  | item :: items, he => by
    obtain ⟨hitem, hitems⟩ := List.forall_mem_append.1 he
    intro rs hrs
    rw [evalItems_cons] at hrs
    obtain ⟨r, hr, hrs⟩ := bind_eq_ok.1 hrs
    obtain ⟨rest, hrest, heq⟩ := bind_eq_ok.1 hrs
    cases heq
    exact List.forall_mem_cons.2
      ⟨confined_eval h item hitem r hr, confined_evalItems h items hitems rest hrest⟩

theorem confined_evalEntries {env : Env} {S : EntityId → Prop} (h : env.KnowsOnly S) :
    ∀ entries : List (String × Expr), (∀ y ∈ mentionsOfEntries entries, S y) →
      ∀ rs, evalEntries env entries = .ok rs → ∀ entry ∈ rs, entry.2.HoldsOnly S
  | [], _ => by
    rintro _ ⟨⟩
    exact nofun
  | (key, value) :: entries, he => by
    obtain ⟨hvalue, hentries⟩ := List.forall_mem_append.1 he
    intro rs hrs
    rw [evalEntries_cons] at hrs
    obtain ⟨r, hr, hrs⟩ := bind_eq_ok.1 hrs
    obtain ⟨rest, hrest, heq⟩ := bind_eq_ok.1 hrs
    cases heq
    exact List.forall_mem_cons.2
      ⟨confined_eval h value hvalue r hr, confined_evalEntries h entries hentries rest hrest⟩

end

end Expr

/-! ## Texts -/

mutual

/-- **The constants of a derivation hold no entities.** -/
theorem IsExpr.mentions_eq_nil :
    ∀ {ts : List Token} {e : Expr}, IsExpr ts e → e.mentions = []
  | _, _, .operation h => h.mentions_eq_nil
  | _, _, .choice hc _ ha _ hb => by
    rw [Expr.mentions, hc.mentions_eq_nil, ha.mentions_eq_nil, hb.mentions_eq_nil]
    rfl

theorem IsOperation.mentions_eq_nil :
    ∀ {l : Level} {ts : List Token} {e : Expr}, IsOperation l ts e → e.mentions = []
  | _, _, _, .tighter _ h => h.mentions_eq_nil
  | _, _, _, .left _ _ hleft _ hright => by
    rw [Expr.mentions, hleft.mentions_eq_nil, hright.mentions_eq_nil]
    rfl
  | _, _, _, .power hleft _ hright => by
    rw [Expr.mentions, hleft.mentions_eq_nil, hright.mentions_eq_nil]
    rfl
  | _, _, _, .prefixed h => h.mentions_eq_nil

theorem IsPrefixed.mentions_eq_nil :
    ∀ {ts : List Token} {e : Expr}, IsPrefixed ts e → e.mentions = []
  | _, _, .operator _ h => h.mentions_eq_nil
  | _, _, .primary h => h.mentions_eq_nil

theorem IsPrimary.mentions_eq_nil :
    ∀ {ts : List Token} {e : Expr}, IsPrimary ts e → e.mentions = []
  | _, _, .number _ _ => rfl
  | _, _, .quantity _ _ _ _ => rfl
  | _, _, .text _ => rfl
  | _, _, .null _ _ => rfl
  | _, _, .this _ _ h => h.mentions_eq_nil rfl
  | _, _, .entity _ _ h => h.mentions_eq_nil rfl
  | _, _, .call _ _ h _ _ => h.mentions_eq_nil
  | _, _, .group _ h _ => h.mentions_eq_nil
  | _, _, .emptyArray _ _ => rfl
  | _, _, .array _ h _ => h.mentions_eq_nil
  | _, _, .map _ h _ _ => h.mentions_eq_nil

theorem IsChain.mentions_eq_nil :
    ∀ {target : Expr} {ts : List Token} {e : Expr}, IsChain target ts e →
      target.mentions = [] → e.mentions = []
  | _, _, _, .done, ht => ht
  | _, _, _, .output _ _ h, ht => h.mentions_eq_nil ht
  | _, _, _, .index _ _ hi _ h, ht => by
    refine h.mentions_eq_nil ?_
    rw [Expr.mentions, ht, hi.mentions_eq_nil]
    rfl

theorem IsArgs.mentions_eq_nil :
    ∀ {ts : List Token} {args : List Expr}, IsArgs ts args → Expr.mentionsOfItems args = []
  | _, _, .none _ _ => rfl
  | _, _, .some _ h _ => h.mentions_eq_nil

theorem IsItems.mentions_eq_nil :
    ∀ {ts : List Token} {items : List Expr}, IsItems ts items → Expr.mentionsOfItems items = []
  | _, _, .one h => by
    rw [Expr.mentionsOfItems, h.mentions_eq_nil]
    rfl
  | _, _, .more h _ hs => by
    rw [Expr.mentionsOfItems, h.mentions_eq_nil, hs.mentions_eq_nil]
    rfl

theorem IsEntries.mentions_eq_nil :
    ∀ {ts : List Token} {entries : List (String × Expr)}, IsEntries ts entries →
      Expr.mentionsOfEntries entries = []
  | _, _, .one _ _ h => by
    rw [Expr.mentionsOfEntries, h.mentions_eq_nil]
    rfl
  | _, _, .more _ _ h _ hs => by
    rw [Expr.mentionsOfEntries, h.mentions_eq_nil, hs.mentions_eq_nil]
    rfl

end

/-- The results of the tree hold no other entities than its environment, whatever that is. -/
def Expr.AddsNone (e : Expr) : Prop :=
  ∀ (S : EntityId → Prop) (env : Env), env.KnowsOnly S → Confined S (e.eval env)

theorem Expr.addsNone_of_mentions {e : Expr} (h : e.mentions = []) : e.AddsNone :=
  fun _ _ henv => confined_eval henv e (h ▸ nofun)

/-- **An expression that is read from a text adds no entities**, with and without folding. -/
theorem Expression.addsNone_of_parse? {source : String} {fold : Bool} {exp : Expression}
    (h : Expression.parse? source fold = .ok exp) : exp.root.AddsNone := by
  have hunfolded {e : Expr} (he : Expr.parse? source false = .ok e) : e.AddsNone := by
    obtain ⟨tokens, htokens, he⟩ := bind_eq_ok.1 he
    have hend := Token.tokenize_finish (mapError_eq_ok.1 htokens)
    obtain ⟨ts, -, -, -, hexpr⟩ := derives_of_ofTokens? hend (anchored_eq_ok.1 he)
    exact Expr.addsNone_of_mentions hexpr.mentions_eq_nil
  obtain ⟨root, hroot, heq⟩ := bind_eq_ok.1 h
  cases heq
  cases fold with
  | false => exact hunfolded hroot
  | true =>
    obtain ⟨e, he, hsame⟩ := parse?_follows source root hroot
    intro S env henv
    show Confined S (root.eval env)
    rw [hsame env]
    exact hunfolded he S env henv

end ModelInputs
