import ModelInputs.Proofs.Parser.Grammar
import ModelInputs.Proofs.Printing.Tokens

/-!
# Trees that texts are read as

The tree of a derivation can be written again: its numbers have no minus sign, its names and texts
are those of tokens, outputs and places stand behind references, and its collections and calls are
as large as the grammar asks.

* `Expr.numbers`: the numbers of a tree; `Expr.withoutPositions`: the tree up to positions;
* `Number.IsReadBack`: a finite number that is read back from its text;
* `Expr.IsWritten`: the trees that can be written again;
* **`IsExpr.isWritten`** and its like: the trees of derivations are among them.
-/

namespace ModelInputs

open Token (IsClean IsNameText IsWordText)
open ModelInputs.Parser (isIndexable)

/-! ## Numbers and positions of a tree -/

namespace Expr

mutual

/-- The numbers that stand in a tree. -/
def numbers : Expr → List Float
  | literal (.number x _) _ => [x]
  | literal _ _ => []
  | entity _ _ => []
  | output target _ _ => numbers target
  | index target i _ => numbers target ++ numbers i
  | binary _ left right _ => numbers left ++ numbers right
  | unary _ operand _ => numbers operand
  | cond condition thenExpr elseExpr _ =>
    numbers condition ++ (numbers thenExpr ++ numbers elseExpr)
  | call _ args _ => numbersOfItems args
  | array items _ => numbersOfItems items
  | map entries _ => numbersOfEntries entries

/-- The numbers that stand in some trees. -/
def numbersOfItems : List Expr → List Float
  | [] => []
  | item :: items => numbers item ++ numbersOfItems items

/-- The numbers that stand in the entries of a map. -/
def numbersOfEntries : List (String × Expr) → List Float
  | [] => []
  | (_, value) :: entries => numbers value ++ numbersOfEntries entries

end

mutual

/-- The tree with all its nodes at the same position. -/
def withoutPositions : Expr → Expr
  | literal value _ => literal value 0
  | entity name _ => entity name 0
  | output target name _ => output (withoutPositions target) name 0
  | index target i _ => index (withoutPositions target) (withoutPositions i) 0
  | binary op left right _ => binary op (withoutPositions left) (withoutPositions right) 0
  | unary op operand _ => unary op (withoutPositions operand) 0
  | cond condition thenExpr elseExpr _ =>
    cond (withoutPositions condition) (withoutPositions thenExpr) (withoutPositions elseExpr) 0
  | call function args _ => call function (itemsWithoutPositions args) 0
  | array items _ => array (itemsWithoutPositions items) 0
  | map entries _ => map (entriesWithoutPositions entries) 0

/-- The trees with all their nodes at the same position. -/
def itemsWithoutPositions : List Expr → List Expr
  | [] => []
  | item :: items => withoutPositions item :: itemsWithoutPositions items

/-- The entries of a map with all nodes at the same position. -/
def entriesWithoutPositions : List (String × Expr) → List (String × Expr)
  | [] => []
  | (key, value) :: entries => (key, withoutPositions value) :: entriesWithoutPositions entries

end

/-- An entity, an output or a place: what an output or a place can be looked up in. -/
def isReference : Expr → Bool
  | entity .. => true
  | output .. => true
  | index .. => true
  | _ => false

theorem isReference_of_isIndexable {e : Expr} (h : isIndexable e = true) :
    e.isReference = true := by
  cases e <;> first | rfl | cases h

end Expr

/-! ## Trees that can be written again -/

/-- A finite number that is read back from its full text. -/
structure Number.IsReadBack (x : Float) : Prop where
  finite : x.isFinite = true
  read : Number.readFloat? (Number.fullText x) = some x

/-- The trees that can be written so that they are read again. -/
inductive Expr.IsWritten : Expr → Prop
  | number {x : Float} {u : UnitType} {p : Nat} (hx : Number.IsReadBack x)
      (hn : Number.isNegative x = false) (hu : u = .dimensionless ∨ u.hasUnit = true) :
      IsWritten (.literal (.number x u) p)
  | text {s : String} {p : Nat} (hs : '"' ∉ s.toList) : IsWritten (.literal (.text s) p)
  | null {p : Nat} : IsWritten (.literal .null p)
  | emptyArray {p : Nat} : IsWritten (.literal (.array []) p)
  | this {p : Nat} : IsWritten (.entity none p)
  | entity {name : String} {p : Nat} (hne : name ≠ "") (hname : IsNameText name.toList) :
      IsWritten (.entity (some name) p)
  | output {target : Expr} {name : String} {p : Nat} (ht : IsWritten target)
      (href : target.isReference = true) (hname : IsWordText name.toList) :
      IsWritten (.output target name p)
  | index {target i : Expr} {p : Nat} (ht : IsWritten target) (href : isIndexable target = true)
      (hi : IsWritten i) : IsWritten (.index target i p)
  | binary {op : BinaryOp} {left right : Expr} {p : Nat} (hl : IsWritten left)
      (hr : IsWritten right) : IsWritten (.binary op left right p)
  | unary {op : UnaryOp} {operand : Expr} {p : Nat} (h : IsWritten operand) :
      IsWritten (.unary op operand p)
  | cond {c a b : Expr} {p : Nat} (hc : IsWritten c) (ha : IsWritten a) (hb : IsWritten b) :
      IsWritten (.cond c a b p)
  | call {f : Function} {args : List Expr} {p : Nat} (hargs : ∀ e ∈ args, IsWritten e)
      (hmin : f.minArgs ≤ args.length)
      (hmax : ∀ most, f.maxArgs = some most → args.length ≤ most) : IsWritten (.call f args p)
  | array {items : List Expr} {p : Nat} (hne : items ≠ []) (hitems : ∀ e ∈ items, IsWritten e) :
      IsWritten (.array items p)
  | map {entries : List (String × Expr)} {p : Nat} (hne : entries ≠ [])
      (hkeys : (entries.map (·.1)).Nodup) (htexts : ∀ entry ∈ entries, '"' ∉ entry.1.toList)
      (hvalues : ∀ entry ∈ entries, IsWritten entry.2) : IsWritten (.map entries p)

/-! ## Trees of derivations -/

/-- Every token among them can be written again. -/
def AreClean (tokens : List Token) : Prop :=
  ∀ t ∈ tokens, t.IsClean

/-- Every number among them is read back. -/
def AreReadBack (xs : List Float) : Prop :=
  ∀ x ∈ xs, Number.IsReadBack x

theorem AreClean.cons {t : Token} {ts : List Token} (h : AreClean (t :: ts)) :
    t.IsClean ∧ AreClean ts :=
  List.forall_mem_cons.1 h

theorem AreClean.append {ts us : List Token} (h : AreClean (ts ++ us)) :
    AreClean ts ∧ AreClean us :=
  List.forall_mem_append.1 h

theorem AreReadBack.append {xs ys : List Float} (h : AreReadBack (xs ++ ys)) :
    AreReadBack xs ∧ AreReadBack ys :=
  List.forall_mem_append.1 h

section Clean

variable {t : Token}

theorem isNameText_of_isClean (h : t.IsClean) (ht : t.kind = .square) :
    IsNameText t.value.toList := by
  unfold Token.IsClean at h
  rwa [ht] at h

theorem isWordText_of_isClean (h : t.IsClean) (ht : t.kind = .word) :
    IsWordText t.value.toList := by
  unfold Token.IsClean at h
  rwa [ht] at h

theorem not_mem_of_isClean (h : t.IsClean) (ht : t.kind = .text) : '"' ∉ t.value.toList := by
  unfold Token.IsClean at h
  rwa [ht] at h

theorem isNegative_of_isClean {x : Float} (h : t.IsClean) (ht : t.kind = .number)
    (hx : Number.readFloat? t.value = some x) : Number.isNegative x = false := by
  unfold Token.IsClean at h
  rw [ht] at h
  obtain ⟨c, rest, hcs, hb, hc⟩ := h
  rw [← String.ofList_toList (s := t.value), hcs] at hx
  exact Number.isNegative_of_readFloat? hb hc hx

end Clean

/-- The numbers of what a chain starts with stand in the whole chain. -/
theorem IsChain.numbers_subset {target e : Expr} {ts : List Token} (h : IsChain target ts e) :
    ∀ x ∈ target.numbers, x ∈ e.numbers := by
  match h with
  | .done => exact fun _ hx => hx
  | .output _ _ h => exact h.numbers_subset
  | .index _ _ _ _ h => exact fun x hx => h.numbers_subset x (List.mem_append_left _ hx)

theorem quantity_isWritten {unit : PhysicalUnit} {name : String} {x : Float} {p : Nat}
    (hunit : PhysicalUnit.find? name = some unit) (hn : Number.isNegative x = false)
    (hx : Number.IsReadBack (unit.toSI x)) :
    Expr.IsWritten (.literal (ModelInputs.Parser.quantity x unit) p) := by
  have hall : ∀ u ∈ PhysicalUnit.all, u.unitType.hasUnit = true := by decide
  exact .number hx (Number.isNegative_toSI hunit hn)
    (.inr (hall unit (List.mem_of_find?_eq_some hunit)))

theorem IsItems.ne_nil {ts : List Token} {items : List Expr} (h : IsItems ts items) :
    items ≠ [] := by
  cases h <;> exact List.cons_ne_nil _ _

theorem IsEntries.ne_nil {ts : List Token} {entries : List (String × Expr)}
    (h : IsEntries ts entries) : entries ≠ [] := by
  cases h <;> exact List.cons_ne_nil _ _

mutual

/-- **The tree of a derivation can be written again**, if its numbers are read back. -/
theorem IsExpr.isWritten : ∀ {ts : List Token} {e : Expr}, IsExpr ts e → AreClean ts →
    AreReadBack e.numbers → e.IsWritten
  | _, _, .operation h, hclean, hn => h.isWritten hclean hn
  | _, _, .choice hc _ ha _ hb, hclean, hn => by
    obtain ⟨hcs, hclean⟩ := hclean.append
    obtain ⟨has, hclean⟩ := hclean.cons.2.append
    obtain ⟨hnc, hn⟩ := hn.append
    obtain ⟨hna, hnb⟩ := hn.append
    exact .cond (hc.isWritten hcs hnc) (ha.isWritten has hna) (hb.isWritten hclean.cons.2 hnb)

theorem IsOperation.isWritten : ∀ {l : Level} {ts : List Token} {e : Expr}, IsOperation l ts e →
    AreClean ts → AreReadBack e.numbers → e.IsWritten
  | _, _, _, .tighter _ h, hclean, hn => h.isWritten hclean hn
  | _, _, _, .left _ _ hl _ hr, hclean, hn =>
    .binary (hl.isWritten hclean.append.1 hn.append.1)
      (hr.isWritten hclean.append.2.cons.2 hn.append.2)
  | _, _, _, .power hl _ hr, hclean, hn =>
    .binary (hl.isWritten hclean.append.1 hn.append.1)
      (hr.isWritten hclean.append.2.cons.2 hn.append.2)
  | _, _, _, .prefixed h, hclean, hn => h.isWritten hclean hn

theorem IsPrefixed.isWritten : ∀ {ts : List Token} {e : Expr}, IsPrefixed ts e → AreClean ts →
    AreReadBack e.numbers → e.IsWritten
  | _, _, .operator _ h, hclean, hn => .unary (h.isWritten hclean.cons.2 hn)
  | _, _, .primary h, hclean, hn => h.isWritten hclean hn

theorem IsPrimary.isWritten : ∀ {ts : List Token} {e : Expr}, IsPrimary ts e → AreClean ts →
    AreReadBack e.numbers → e.IsWritten
  | _, _, .number ht hx, hclean, hn =>
    .number (hn _ List.mem_cons_self) (isNegative_of_isClean hclean.cons.1 ht hx) (.inl rfl)
  | _, _, .quantity ht hx _ hunit, hclean, hn =>
    quantity_isWritten hunit (isNegative_of_isClean hclean.cons.1 ht hx)
      (hn _ List.mem_cons_self)
  | _, _, .text ht, hclean, _ => .text (not_mem_of_isClean hclean.cons.1 ht)
  | _, _, .null _ _, _, _ => .null
  | _, _, .this _ _ h, hclean, hn => h.isWritten hclean.cons.2 hn .this rfl
  | _, _, .entity ht hv h, hclean, hn =>
    h.isWritten hclean.cons.2 hn (.entity hv (isNameText_of_isClean hclean.cons.1 ht)) rfl
  | _, _, .call _ _ h hmin hmax, hclean, hn =>
    .call (h.isWritten hclean.cons.2 hn) hmin hmax
  | _, _, .group _ h _, hclean, hn => h.isWritten hclean.cons.2.append.1 hn
  | _, _, .emptyArray _ _, _, _ => .emptyArray
  | _, _, .array _ h _, hclean, hn =>
    .array h.ne_nil (h.isWritten hclean.cons.2.append.1 hn)
  | _, _, .map _ h hkeys _, hclean, hn => by
    have hentries := h.isWritten hclean.cons.2.append.1 hn
    exact .map h.ne_nil hkeys (fun entry he => (hentries entry he).1)
      (fun entry he => (hentries entry he).2)

theorem IsChain.isWritten : ∀ {target : Expr} {ts : List Token} {e : Expr}, IsChain target ts e →
    AreClean ts → AreReadBack e.numbers → target.IsWritten → target.isReference = true →
    e.IsWritten
  | _, _, _, .done, _, _, ht, _ => ht
  | _, _, _, .output _ hname h, hclean, hn, ht, href =>
    h.isWritten hclean.cons.2.cons.2 hn
      (.output ht href (isWordText_of_isClean hclean.cons.2.cons.1 hname)) rfl
  | _, _, _, .index hi _ hindex _ h, hclean, hn, ht, _ => by
    obtain ⟨his, hclean⟩ := hclean.cons.2.append
    have hni : AreReadBack _ := fun x hx => hn x (h.numbers_subset x (List.mem_append_right _ hx))
    exact h.isWritten hclean.cons.2 hn (.index ht hi (hindex.isWritten his hni)) rfl

theorem IsArgs.isWritten : ∀ {ts : List Token} {args : List Expr}, IsArgs ts args → AreClean ts →
    AreReadBack (Expr.numbersOfItems args) → ∀ e ∈ args, e.IsWritten
  | _, _, .none _ _, _, _ => fun _ h => absurd h List.not_mem_nil
  | _, _, .some _ h _, hclean, hn => h.isWritten hclean.cons.2.append.1 hn

theorem IsItems.isWritten : ∀ {ts : List Token} {items : List Expr}, IsItems ts items →
    AreClean ts → AreReadBack (Expr.numbersOfItems items) → ∀ e ∈ items, e.IsWritten
  | _, _, .one h, hclean, hn =>
    List.forall_mem_singleton.2 (h.isWritten hclean hn.append.1)
  | _, _, .more h _ hs, hclean, hn =>
    List.forall_mem_cons.2 ⟨h.isWritten hclean.append.1 hn.append.1,
      hs.isWritten hclean.append.2.cons.2 hn.append.2⟩

theorem IsEntries.isWritten : ∀ {ts : List Token} {entries : List (String × Expr)},
    IsEntries ts entries → AreClean ts → AreReadBack (Expr.numbersOfEntries entries) →
    ∀ entry ∈ entries, '"' ∉ entry.1.toList ∧ entry.2.IsWritten
  | _, _, .one hkey _ h, hclean, hn =>
    List.forall_mem_singleton.2 ⟨not_mem_of_isClean hclean.cons.1 hkey,
      h.isWritten hclean.cons.2.cons.2 hn.append.1⟩
  | _, _, .more hkey _ h _ hs, hclean, hn => by
    obtain ⟨hts, hclean'⟩ := hclean.cons.2.cons.2.append
    exact List.forall_mem_cons.2 ⟨⟨not_mem_of_isClean hclean.cons.1 hkey,
      h.isWritten hts hn.append.1⟩, hs.isWritten hclean'.cons.2 hn.append.2⟩

end

end ModelInputs
