import ModelInputs.Proofs.Parsing
import ModelInputs.Proofs.Printing.Symbols
import ModelInputs.Proofs.Printing.Trees

/-!
# The text of every kind of tree

The printer sets parentheses around every operation with two operands and every choice, and around
nothing else, so the text of every tree is an operand with operators in front of it; and its parts
end where the printer lets them end, in front of a blank, a comma, a closing parenthesis or brace.
For each kind of tree, if the texts of its parts are read as the parts, then its own text is read as
the tree.

* `EndsItem`: the text does not go on with an item;
* `Expr.Prints`: the text of a tree is read as the tree; `Expr.PrintsChain`: as a reference that
  outputs and places may follow;
* `prints_plain`, `prints_quantity`, `prints_text`, ...: leaves;
* `printsChain_entity`, `printsChain_output`, `printsChain_index`: references;
* `prints_unary`, `prints_binary`, `prints_cond`: operations and choices;
* `prints_call`, `prints_array`, `prints_map`: calls and collections.
-/

namespace ModelInputs

open Token
open ModelInputs.Parser (isIndexable quantity)

/-! ## Where items end -/

/-- A blank, a comma or a closing parenthesis or brace comes next, or nothing. -/
def EndsItem (cs : List Char) : Prop :=
  ∀ c ∈ cs.head?, c ∈ [' ', ',', ')', '\x7d']

theorem EndsItem.endsNumber {cs : List Char} (h : EndsItem cs) : Number.EndsNumber cs := by
  have hall : ∀ c ∈ [' ', ',', ')', '\x7d'],
      Text.isDigit c = false ∧ c ≠ '.' ∧ c ≠ 'e' ∧ c ≠ 'E' :=
    List.all_iff_forall_prop.1 (by decide)
  exact fun c hc => hall c (h c hc)

theorem EndsItem.endsWord {cs : List Char} (h : EndsItem cs) : EndsWord cs := by
  have hall : ∀ c ∈ [' ', ',', ')', '\x7d'], isMark c = true :=
    List.all_eq_true.1 (by decide)
  exact fun c hc => isWordChar_of_isMark (hall c (h c hc))

theorem endsItem_cons {c : Char} (hc : c ∈ [' ', ',', ')', '\x7d']) (cs : List Char) :
    EndsItem (c :: cs) := by
  rintro _ ⟨⟩
  exact hc

theorem endsWord_cons {c : Char} (hc : isMark c = true) (cs : List Char) :
    EndsWord (c :: cs) := by
  rintro _ ⟨⟩
  exact isWordChar_of_isMark hc

/-! ## Trees up to positions -/

namespace Expr

theorem isIndexable_withoutPositions (e : Expr) :
    isIndexable e.withoutPositions = isIndexable e := by
  cases e <;> rfl

theorem length_itemsWithoutPositions (items : List Expr) :
    (itemsWithoutPositions items).length = items.length := by
  induction items with
  | nil => rfl
  | cons item items ih => rw [itemsWithoutPositions, List.length_cons, List.length_cons, ih]

theorem map_fst_entriesWithoutPositions (entries : List (String × Expr)) :
    (entriesWithoutPositions entries).map (·.1) = entries.map (·.1) := by
  induction entries with
  | nil => rfl
  | cons entry entries ih =>
    rw [entriesWithoutPositions, List.map_cons, List.map_cons, ih]

/-! ## What the text of a tree is read as -/

/-- The text of the tree is read as an operand with operators in front, which is the tree up to
positions. -/
def Prints (e : Expr) : Prop :=
  ∀ pos, ∃ ts e', IsPrefixed ts e' ∧ e'.withoutPositions = e.withoutPositions ∧
    Lexes EndsItem pos e.render.toList ts

/-- The text of the reference is read as the beginning of a chain, up to positions. -/
def PrintsChain (target : Expr) : Prop :=
  ∀ pos, ∃ ts target', (∀ us e, IsChain target' us e → IsPrimary (ts ++ us) e) ∧
    target'.withoutPositions = target.withoutPositions ∧
    Lexes EndsWord pos target.render.toList ts

theorem PrintsChain.prints {target : Expr} (h : target.PrintsChain) : target.Prints := by
  intro pos
  obtain ⟨ts, target', hchain, hsame, hlex⟩ := h pos
  have hprimary := hchain [] target' .done
  rw [List.append_nil] at hprimary
  exact ⟨ts, target', .primary hprimary, hsame, hlex.mono fun _ => EndsItem.endsWord⟩

end Expr

theorem isExpr_of_isPrefixed {ts : List Token} {e : Expr} (h : IsPrefixed ts e) : IsExpr ts e :=
  (h.isOperation .power).isExpr

/-- Operands make an operation of every operator. -/
theorem isExpr_binary {ls rs : List Token} {left right : Expr} {t : Token} {op : BinaryOp}
    (hl : IsPrefixed ls left) (ht : t.isSymbol op.symbol = true) (hr : IsPrefixed rs right) :
    IsExpr (ls ++ t :: rs) (.binary op left right t.pos) := by
  cases hnext : op.level.next? with
  | some l => exact (IsOperation.left rfl hnext (hl.isOperation _) ht (hr.isOperation l)).isExpr
  | none =>
    obtain rfl : op = .pow := by
      revert hnext
      cases op <;> decide
    exact (IsOperation.power hl ht (hr.isOperation .power)).isExpr

/-- What stands between parentheses or braces ends in front of the closing one. -/
theorem lexes_enclosed {o c : Char} {cs : List Char} {ts : List Token} {pos : Nat}
    (ho : o ∈ ['(', '\x7b']) (hc : c ∈ [')', '\x7d']) (h : Lexes EndsItem (pos + 1) cs ts) :
    Lexes Anything pos (o :: (cs ++ [c])) (⟨.symbol, String.singleton o, pos⟩ ::
      (ts ++ [⟨.symbol, String.singleton c, pos + 1 + cs.length⟩])) := by
  have hopen : ∀ o ∈ ['(', '\x7b'], o ∈ ['(', ')', '\x7b', '\x7d', ',', ':', '?'] :=
    List.all_iff_forall_prop.1 (by decide)
  have hends : ∀ c ∈ [')', '\x7d'], c ∈ [' ', ',', ')', '\x7d'] ∧
      c ∈ ['(', ')', '\x7b', '\x7d', ',', ':', '?'] :=
    List.all_iff_forall_prop.1 (by decide)
  have hclose := h.append (lexes_mark _ (hends c hc).2) fun rest _ =>
    endsItem_cons (hends c hc).1 rest
  exact (lexes_mark pos (hopen o ho)).append hclose fun _ _ => trivial

/-! ## Leaves -/

section Leaves

variable {x : Float} {u : UnitType} {p : Nat}

theorem prints_plain (hx : Number.IsReadBack x) (hn : Number.isNegative x = false) :
    (Expr.literal (.plain x) p).Prints := by
  intro pos
  obtain ⟨n, hproper, htext⟩ := Number.exists_numeral hx.finite hn
  have hread := Number.readFloat?_plainText hx.finite hn hx.read
  rw [htext] at hread
  have hrender : (Expr.literal (.plain x) p).render = n.text := htext
  rw [hrender, Number.Numeral.text, String.toList_ofList]
  exact ⟨_, _, .primary (.number (t := ⟨.number, n.text, pos⟩) rfl hread), rfl,
    (lexes_number pos hproper).mono fun _ => EndsItem.endsNumber⟩

/-- Every SI unit is found under its name, with the factor one. -/
theorem find?_siUnit (hu : u.hasUnit = true) :
    ∃ unit ∈ PhysicalUnit.find? u.siUnit, unit.unitType = u ∧ unit.factor = 1.0 := by
  have hall : ∀ u ∈ UnitType.all, u.hasUnit = true →
      ∃ unit ∈ PhysicalUnit.find? u.siUnit, unit.unitType = u ∧ unit.factor = 1.0 := by
    decide
  exact hall u u.mem_all hu

theorem siUnit_isNameText (u : UnitType) : IsNameText u.siUnit.toList := by
  have hall : ∀ u ∈ UnitType.all, (u.siUnit.toList.all fun c => c ≠ ']' ∧ c ≠ '[') = true ∧
      Text.stripList u.siUnit.toList = u.siUnit.toList := by
    decide
  obtain ⟨hplain, hstripped⟩ := hall u u.mem_all
  exact ⟨List.all_iff_forall_prop.1 hplain, hstripped⟩

theorem prints_quantity (hx : Number.IsReadBack x) (hn : Number.isNegative x = false)
    (hu : u.hasUnit = true) : (Expr.literal (.number x u) p).Prints := by
  intro pos
  obtain ⟨n, hproper, htext⟩ := Number.exists_numeral hx.finite hn
  have hread := Number.readFloat?_plainText hx.finite hn hx.read
  rw [htext] at hread
  obtain ⟨unit, hfind, rfl, hfactor⟩ := find?_siUnit hu
  have hquantity : quantity x unit = .number x unit.unitType := by
    rw [quantity, PhysicalUnit.toSI, hfactor, Number.mul_one]
  have hrender : (Expr.literal (.number x unit.unitType) p).render.toList =
      n.chars ++ ('[' :: (unit.unitType.siUnit.toList ++ [']'])) := by
    rw [Expr.render, Result.render, Result.renderNumber, if_pos hu, htext]
    simp [Number.Numeral.text]
  have hlex := (lexes_number pos hproper).append
    (lexes_square _ (siUnit_isNameText unit.unitType)) fun rest _ => by
      rintro _ ⟨⟩
      decide
  rw [String.ofList_toList, ← hrender] at hlex
  have hprimary := IsPrimary.quantity (t := ⟨.number, n.text, pos⟩)
    (u := ⟨.square, unit.unitType.siUnit, pos + n.chars.length⟩) rfl hread rfl hfind
  refine ⟨_, _, .primary hprimary, ?_, hlex.mono fun _ _ => trivial⟩
  rw [hquantity]
  rfl

theorem prints_text {s : String} (hs : '"' ∉ s.toList) : (Expr.literal (.text s) p).Prints := by
  intro pos
  have hrender : (Expr.literal (.text s) p).render.toList = '"' :: (s.toList ++ ['"']) := by
    rw [Expr.render, Result.render]
    simp
  have hlex := lexes_text pos hs
  rw [String.ofList_toList, ← hrender] at hlex
  exact ⟨_, _, .primary (.text rfl), rfl, hlex.mono fun _ _ => trivial⟩

set_option maxRecDepth 4000 in
/-- The words of the language are words. -/
theorem isWordText_keyword {s : String} (h : s ∈ "this" :: "null" :: Function.all.map (·.name)) :
    IsWordText s.toList := by
  have hall : ∀ s ∈ "this" :: "null" :: Function.all.map (·.name),
      (s.toList.head?.any fun c => Text.isWordStart c = true ∧ Text.isDigit c = false ∧
        Text.isBlank c = false ∧ c ≠ '#' ∧ c ≠ '.') = true ∧
      s.toList.all Text.isWordChar = true := by
    decide
  obtain ⟨hhead, hrest⟩ := hall s h
  obtain ⟨c, hc, hstart⟩ := (Option.any_eq_true _ _).1 hhead
  obtain ⟨rest, hcs⟩ := List.head?_eq_some_iff.1 hc
  exact ⟨⟨c, rest, hcs, of_decide_eq_true hstart⟩, List.all_eq_true.1 hrest⟩

theorem isWordText_name (f : Function) : IsWordText f.name.toList := by
  have hall : f ∈ Function.all := by cases f <;> decide
  exact isWordText_keyword
    (List.mem_cons_of_mem _ (List.mem_cons_of_mem _ (List.mem_map_of_mem hall)))

theorem prints_null : (Expr.literal .null p).Prints := by
  intro pos
  have hlex := lexes_word pos (isWordText_keyword (s := "null") (by decide))
  rw [String.ofList_toList] at hlex
  exact ⟨_, _, .primary (.null (t := ⟨.word, "null", pos⟩) rfl rfl), rfl,
    hlex.mono fun _ => EndsItem.endsWord⟩

theorem prints_emptyArray : (Expr.literal (.array []) p).Prints := by
  intro pos
  have hrender : (Expr.literal (.array []) p).render.toList = '\x7b' :: ([] ++ ['\x7d']) := by
    rw [Expr.render, Result.render, Result.renderItems]
    simp
  have hlex := lexes_enclosed (o := '\x7b') (c := '\x7d') (by decide) (by decide)
    (show Lexes EndsItem (pos + 1) [] [] from .nil)
  rw [← hrender] at hlex
  exact ⟨_, _, .primary (.emptyArray rfl rfl), rfl, hlex.mono fun _ _ => trivial⟩

end Leaves

/-! ## References -/

section Chains

variable {p : Nat}

theorem printsChain_this : (Expr.entity none p).PrintsChain := by
  intro pos
  have hlex := lexes_word pos (isWordText_keyword (s := "this") (by decide))
  rw [String.ofList_toList] at hlex
  exact ⟨_, .entity none pos, fun us e h => .this (t := ⟨.word, "this", pos⟩) rfl rfl h, rfl, hlex⟩

theorem printsChain_entity {name : String} (hne : name ≠ "") (hname : IsNameText name.toList) :
    (Expr.entity (some name) p).PrintsChain := by
  intro pos
  have hrender : (Expr.entity (some name) p).render.toList = '[' :: (name.toList ++ [']']) := by
    rw [Expr.render]
    simp
  have hlex := lexes_square pos hname
  rw [String.ofList_toList, ← hrender] at hlex
  exact ⟨_, .entity (some name) pos,
    fun us e h => .entity (t := ⟨.square, name, pos⟩) rfl hne h, rfl, hlex.mono fun _ _ => trivial⟩

theorem printsChain_output {target : Expr} {name : String} (ht : target.PrintsChain)
    (hname : IsWordText name.toList) : (Expr.output target name p).PrintsChain := by
  intro pos
  obtain ⟨ts, target', hchain, hsame, hlex⟩ := ht pos
  have hrender : (Expr.output target name p).render.toList =
      target.render.toList ++ (['.'] ++ name.toList) := by
    rw [Expr.render]
    simp
  have hpoint : ∀ rest, EndsWord rest → EndsSymbol '.' (name.toList ++ rest) := by
    obtain ⟨⟨c, cs, hcs, -, hdigit, -⟩, -⟩ := hname
    rw [hcs]
    rintro rest - _ ⟨⟩
    exact ⟨not_mem_longSymbols (by decide), fun _ => hdigit⟩
  have hname' := (lexes_symbol (pos + target.render.toList.length) (c := '.') (by decide)).append
    (lexes_word _ hname) hpoint
  have hlex' := hlex.append hname' fun rest _ => endsWord_cons (by decide) _
  rw [← hrender, String.ofList_toList] at hlex'
  refine ⟨_, .output target' name (pos + target.render.toList.length + 1), fun us e h => ?_, ?_,
    hlex'⟩
  · rw [List.append_assoc]
    exact hchain _ _ (.output rfl rfl h)
  · rw [Expr.withoutPositions, hsame, Expr.withoutPositions]

theorem printsChain_index {target i : Expr} (ht : target.PrintsChain)
    (href : isIndexable target = true) (hi : i.Prints) :
    (Expr.index target i p).PrintsChain := by
  intro pos
  obtain ⟨ts, target', hchain, hsame, hlex⟩ := ht pos
  obtain ⟨is, i', hprefixed, hsame', hlex'⟩ := hi (pos + target.render.toList.length + 1)
  have hrender : (Expr.index target i p).render.toList =
      target.render.toList ++ '(' :: (i.render.toList ++ [')']) := by
    rw [Expr.render]
    simp
  have href' : isIndexable target' = true := by
    rw [← Expr.isIndexable_withoutPositions, hsame, Expr.isIndexable_withoutPositions, href]
  have hall := hlex.append (lexes_enclosed (o := '(') (c := ')') (by decide) (by decide) hlex')
    fun rest _ => endsWord_cons (by decide) _
  rw [← hrender] at hall
  refine ⟨_, .index target' i' (pos + target.render.toList.length), fun us e h => ?_, ?_,
    hall.mono fun _ _ => trivial⟩
  · rw [List.append_assoc, List.cons_append, List.append_assoc]
    exact hchain _ _ (.index href' rfl (isExpr_of_isPrefixed hprefixed) rfl h)
  · rw [Expr.withoutPositions, hsame, hsame', Expr.withoutPositions]

end Chains

/-! ## Operations -/

section Operations

variable {p : Nat}

theorem prints_unary {op : UnaryOp} {operand : Expr} (h : operand.Prints)
    (hhead : ∀ rest, NoEquals (operand.render.toList ++ rest)) :
    (Expr.unary op operand p).Prints := by
  intro pos
  obtain ⟨ts, operand', hprefixed, hsame, hlex⟩ := h (pos + op.symbol.toList.length)
  have hrender : (Expr.unary op operand p).render.toList =
      op.symbol.toList ++ operand.render.toList := by
    rw [Expr.render]
    simp
  have hall := (lexes_unaryOp pos op).append hlex fun rest _ => hhead rest
  rw [← hrender] at hall
  have ht : Token.isSymbol ⟨.symbol, op.symbol, pos⟩ op.symbol = true :=
    Token.isSymbol_iff.2 ⟨rfl, rfl⟩
  refine ⟨_, _, .operator ht hprefixed, ?_, hall⟩
  rw [Expr.withoutPositions, hsame, Expr.withoutPositions]

/-- What stands between parentheses is an operand. -/
theorem prints_group {e : Expr} (cs : List Char) (hrender : e.render.toList = '(' :: (cs ++ [')']))
    (h : ∀ pos, ∃ ts e', IsExpr ts e' ∧ e'.withoutPositions = e.withoutPositions ∧
      Lexes EndsItem pos cs ts) : e.Prints := by
  intro pos
  obtain ⟨ts, e', hexpr, hsame, hlex⟩ := h (pos + 1)
  have hall := lexes_enclosed (o := '(') (c := ')') (by decide) (by decide) hlex
  have ho : Token.isSymbol ⟨.symbol, String.singleton '(', pos⟩ "(" = true := rfl
  have hc : Token.isSymbol ⟨.symbol, String.singleton ')', pos + 1 + cs.length⟩ ")" = true := rfl
  refine ⟨_, e', .primary (.group ho hexpr hc), hsame, ?_⟩
  rw [hrender]
  exact hall.mono fun _ _ => trivial

/-- Two expressions with a spaced symbol between them -/
theorem lexes_between {cs ds ss : List Char} {ts us : List Token} {t : Token} {pos : Nat}
    (hl : Lexes EndsItem pos cs ts) (ht : Lexes StartsBlank (pos + cs.length + 1) ss [t])
    (hr : Lexes EndsItem (pos + cs.length + (ss.length + 2)) ds us) :
    Lexes EndsItem pos (cs ++ (' ' :: (ss ++ [' ']) ++ ds)) (ts ++ ([t] ++ us)) := by
  have hlen : pos + cs.length + (ss.length + 2) =
      pos + cs.length + (' ' :: (ss ++ [' '])).length := by
    simp
  rw [hlen] at hr
  exact hl.append ((lexes_spaced _ ht).append hr fun _ _ => trivial) fun rest _ =>
    endsItem_cons (by decide) _

theorem prints_binary {op : BinaryOp} {left right : Expr} (hl : left.Prints) (hr : right.Prints) :
    (Expr.binary op left right p).Prints := by
  refine prints_group (left.render.toList ++
    (' ' :: (op.symbol.toList ++ [' ']) ++ right.render.toList)) ?_ fun pos => ?_
  · rw [Expr.render]
    simp
  obtain ⟨ls, left', hpl, hsl, hlexl⟩ := hl pos
  obtain ⟨rs, right', hpr, hsr, hlexr⟩ :=
    hr (pos + left.render.toList.length + (op.symbol.toList.length + 2))
  have hall := lexes_between hlexl (lexes_binaryOp _ op) hlexr
  have ht : Token.isSymbol ⟨.symbol, op.symbol, pos + left.render.toList.length + 1⟩ op.symbol =
      true := Token.isSymbol_iff.2 ⟨rfl, rfl⟩
  refine ⟨_, _, isExpr_binary hpl ht hpr, ?_, hall⟩
  rw [Expr.withoutPositions, hsl, hsr, Expr.withoutPositions]

theorem prints_cond {c a b : Expr} (hc : c.Prints) (ha : a.Prints) (hb : b.Prints) :
    (Expr.cond c a b p).Prints := by
  refine prints_group (c.render.toList ++ (' ' :: (['?'] ++ [' ']) ++ (a.render.toList ++
    (' ' :: ([':'] ++ [' ']) ++ b.render.toList)))) ?_ fun pos => ?_
  · rw [Expr.render]
    simp
  obtain ⟨cts, c', hpc, hsc, hlexc⟩ := hc pos
  obtain ⟨ats, a', hpa, hsa, hlexa⟩ := ha (pos + c.render.toList.length + 3)
  obtain ⟨bts, b', hpb, hsb, hlexb⟩ :=
    hb (pos + c.render.toList.length + 3 + a.render.toList.length + 3)
  have hq := lexes_mark (pos + c.render.toList.length + 1) (c := '?') (by decide)
  have hcolon := lexes_mark (pos + c.render.toList.length + 3 + a.render.toList.length + 1)
    (c := ':') (by decide)
  have hall := lexes_between hlexc (hq.mono fun _ _ => trivial)
    (lexes_between hlexa (hcolon.mono fun _ _ => trivial) hlexb)
  have htq : Token.isSymbol ⟨.symbol, String.singleton '?', pos + c.render.toList.length + 1⟩ "?" =
      true := rfl
  have htcolon : Token.isSymbol ⟨.symbol, String.singleton ':',
      pos + c.render.toList.length + 3 + a.render.toList.length + 1⟩ ":" = true := rfl
  refine ⟨_, _, .choice (hpc.isOperation _) htq (isExpr_of_isPrefixed hpa) htcolon
    (isExpr_of_isPrefixed hpb), ?_, hall⟩
  rw [Expr.withoutPositions, hsc, hsa, hsb, Expr.withoutPositions]

end Operations

/-! ## Calls and collections -/

section Collections

variable {p : Nat}

/-- Two parts with a comma and a blank between them -/
theorem lexes_comma {cs ds : List Char} {ts us : List Token} {pos : Nat}
    (hl : Lexes EndsItem pos cs ts) (hr : Lexes EndsItem (pos + cs.length + 2) ds us) :
    Lexes EndsItem pos (cs ++ ([',', ' '] ++ ds))
      (ts ++ (⟨.symbol, String.singleton ',', pos + cs.length⟩ :: us)) := by
  have hcomma : Lexes Anything (pos + cs.length) ([','] ++ [' '])
      ([⟨.symbol, String.singleton ',', pos + cs.length⟩] ++ []) :=
    (lexes_mark _ (c := ',') (by decide)).append (lexes_blank _) fun _ _ => trivial
  exact hl.append (hcomma.append hr fun _ _ => trivial) fun rest _ =>
    endsItem_cons (by decide) _

/-- The texts of some trees with commas between them are read as the trees. -/
theorem lexes_items : ∀ {items : List Expr}, items ≠ [] → (∀ e ∈ items, e.Prints) → ∀ pos,
    ∃ ts items', IsItems ts items' ∧
      Expr.itemsWithoutPositions items' = Expr.itemsWithoutPositions items ∧
      Lexes EndsItem pos (", ".intercalate (Expr.renderItems items)).toList ts
  | [], hne, _, _ => absurd rfl hne
  | [e], _, h, pos => by
    obtain ⟨ts, e', hprefixed, hsame, hlex⟩ := h e List.mem_cons_self pos
    refine ⟨ts, [e'], .one (isExpr_of_isPrefixed hprefixed), ?_, hlex⟩
    rw [Expr.itemsWithoutPositions, hsame, Expr.itemsWithoutPositions]
    rfl
  | e :: e₂ :: es, _, h, pos => by
    obtain ⟨ts, e', hprefixed, hsame, hlex⟩ := h e List.mem_cons_self pos
    obtain ⟨us, es', hitems, hsame', hlex'⟩ := lexes_items (List.cons_ne_nil e₂ es)
      (fun e he => h e (List.mem_cons_of_mem _ he)) (pos + e.render.toList.length + 2)
    have hcomma : Token.isSymbol ⟨.symbol, String.singleton ',', pos + e.render.toList.length⟩ "," =
        true := rfl
    have hrender : (", ".intercalate (Expr.renderItems (e :: e₂ :: es))).toList =
        e.render.toList ++ ([',', ' '] ++
          (", ".intercalate (Expr.renderItems (e₂ :: es))).toList) := by
      rw [Expr.renderItems, Expr.renderItems, String.intercalate_cons_cons, String.toList_append,
        String.toList_append, List.append_assoc]
      rfl
    rw [hrender]
    refine ⟨_, e' :: es', .more (isExpr_of_isPrefixed hprefixed) hcomma hitems, ?_,
      lexes_comma hlex hlex'⟩
    rw [Expr.itemsWithoutPositions, hsame, hsame', ← Expr.itemsWithoutPositions]

/-- The text of an entry of a map is read as its key and its value. -/
theorem lexes_entry {key : String} {e : Expr} (hkey : '"' ∉ key.toList) (he : e.Prints)
    (pos : Nat) :
    ∃ k colon ts e', k.kind = .text ∧ k.value = key ∧ colon.isSymbol ":" = true ∧ IsExpr ts e' ∧
      e'.withoutPositions = e.withoutPositions ∧
      Lexes EndsItem pos ("\"" ++ key ++ "\": " ++ e.render).toList (k :: colon :: ts) := by
  obtain ⟨ts, e', hprefixed, hsame, hlex⟩ :=
    he (pos + ('"' :: (key.toList ++ ['"'])).length + [':', ' '].length)
  have hrender : ("\"" ++ key ++ "\": " ++ e.render).toList =
      '"' :: (key.toList ++ ['"']) ++ (([':'] ++ [' ']) ++ e.render.toList) := by
    simp
  have hcolon := (lexes_mark (pos + ('"' :: (key.toList ++ ['"'])).length) (c := ':')
    (by decide)).append (lexes_blank _) fun _ _ => trivial
  have hall := (lexes_text pos hkey).append (hcolon.append hlex fun _ _ => trivial)
    fun _ _ => trivial
  rw [String.ofList_toList, ← hrender] at hall
  exact ⟨_, _, ts, e', rfl, rfl, rfl, isExpr_of_isPrefixed hprefixed, hsame, hall⟩

/-- The texts of some entries with commas between them are read as the entries. -/
theorem lexes_entries : ∀ {entries : List (String × Expr)}, entries ≠ [] →
    (∀ entry ∈ entries, '"' ∉ entry.1.toList) → (∀ entry ∈ entries, entry.2.Prints) → ∀ pos,
    ∃ ts entries', IsEntries ts entries' ∧
      Expr.entriesWithoutPositions entries' = Expr.entriesWithoutPositions entries ∧
      Lexes EndsItem pos (", ".intercalate (Expr.renderEntries entries)).toList ts
  | [], hne, _, _, _ => absurd rfl hne
  | [(key, e)], _, hkeys, h, pos => by
    obtain ⟨k, colon, ts, e', hk, rfl, hcolon, hexpr, hsame, hlex⟩ :=
      lexes_entry (hkeys _ List.mem_cons_self) (h _ List.mem_cons_self) pos
    refine ⟨_, [(k.value, e')], .one hk hcolon hexpr, ?_, hlex⟩
    rw [Expr.entriesWithoutPositions, hsame, Expr.entriesWithoutPositions]
    rfl
  | (key, e) :: (key₂, e₂) :: entries, _, hkeys, h, pos => by
    obtain ⟨k, colon, ts, e', hk, rfl, hcolon, hexpr, hsame, hlex⟩ :=
      lexes_entry (hkeys _ List.mem_cons_self) (h _ List.mem_cons_self) pos
    obtain ⟨us, entries', hentries, hsame', hlex'⟩ :=
      lexes_entries (List.cons_ne_nil (key₂, e₂) entries)
        (fun entry he => hkeys entry (List.mem_cons_of_mem _ he))
        (fun entry he => h entry (List.mem_cons_of_mem _ he))
        (pos + ("\"" ++ k.value ++ "\": " ++ e.render).toList.length + 2)
    have hrender :
        (", ".intercalate (Expr.renderEntries ((k.value, e) :: (key₂, e₂) :: entries))).toList =
          ("\"" ++ k.value ++ "\": " ++ e.render).toList ++ ([',', ' '] ++
            (", ".intercalate (Expr.renderEntries ((key₂, e₂) :: entries))).toList) := by
      rw [Expr.renderEntries, Expr.renderEntries, String.intercalate_cons_cons,
        String.toList_append, String.toList_append, List.append_assoc]
      rfl
    rw [hrender]
    have hcomma : Token.isSymbol ⟨.symbol, String.singleton ',',
        pos + ("\"" ++ k.value ++ "\": " ++ e.render).toList.length⟩ "," = true := rfl
    refine ⟨_, (k.value, e') :: entries', .more hk hcolon hexpr hcomma hentries, ?_,
      lexes_comma hlex hlex'⟩
    rw [Expr.entriesWithoutPositions, hsame, hsame', ← Expr.entriesWithoutPositions]

/-- The text of arguments between parentheses is read as the arguments. -/
theorem lexes_args {args : List Expr} (h : ∀ e ∈ args, e.Prints) (pos : Nat) :
    ∃ ts args', IsArgs ts args' ∧
      Expr.itemsWithoutPositions args' = Expr.itemsWithoutPositions args ∧
      Lexes Anything pos ('(' :: ((", ".intercalate (Expr.renderItems args)).toList ++ [')']))
        ts := by
  cases args with
  | nil =>
    exact ⟨_, [], .none rfl rfl, rfl, lexes_enclosed (by decide) (by decide) Lexes.nil⟩
  | cons e es =>
    obtain ⟨ts, args', hitems, hsame, hlex⟩ := lexes_items (List.cons_ne_nil e es) h (pos + 1)
    exact ⟨_, args', .some rfl hitems rfl, hsame, lexes_enclosed (by decide) (by decide) hlex⟩

theorem prints_call {f : Function} {args : List Expr} (h : ∀ e ∈ args, e.Prints)
    (hmin : f.minArgs ≤ args.length) (hmax : ∀ most, f.maxArgs = some most → args.length ≤ most) :
    (Expr.call f args p).Prints := by
  intro pos
  obtain ⟨ts, args', hargs, hsame, hlex⟩ := lexes_args h (pos + f.name.toList.length)
  have hlen : args'.length = args.length := by
    rw [← Expr.length_itemsWithoutPositions, hsame, Expr.length_itemsWithoutPositions]
  have hrender : (Expr.call f args p).render.toList =
      f.name.toList ++ '(' :: ((", ".intercalate (Expr.renderItems args)).toList ++ [')']) := by
    rw [Expr.render]
    simp
  have hall := (lexes_word pos (isWordText_name f)).append hlex fun rest _ =>
    endsWord_cons (by decide) _
  rw [String.ofList_toList, ← hrender] at hall
  rw [← hlen] at hmin hmax
  refine ⟨_, _, .primary (.call (t := ⟨.word, f.name, pos⟩) rfl rfl hargs hmin hmax), ?_,
    hall.mono fun _ _ => trivial⟩
  rw [Expr.withoutPositions, hsame, Expr.withoutPositions]

theorem prints_array {items : List Expr} (hne : items ≠ []) (h : ∀ e ∈ items, e.Prints) :
    (Expr.array items p).Prints := by
  intro pos
  obtain ⟨ts, items', hitems, hsame, hlex⟩ := lexes_items hne h (pos + 1)
  have hrender : (Expr.array items p).render.toList =
      '\x7b' :: ((", ".intercalate (Expr.renderItems items)).toList ++ ['\x7d']) := by
    rw [Expr.render]
    simp
  have hall := lexes_enclosed (o := '\x7b') (c := '\x7d') (by decide) (by decide) hlex
  rw [← hrender] at hall
  refine ⟨_, _, .primary (.array rfl hitems rfl), ?_, hall.mono fun _ _ => trivial⟩
  rw [Expr.withoutPositions, hsame, Expr.withoutPositions]

theorem prints_map {entries : List (String × Expr)} (hne : entries ≠ [])
    (hkeys : (entries.map (·.1)).Nodup) (htexts : ∀ entry ∈ entries, '"' ∉ entry.1.toList)
    (h : ∀ entry ∈ entries, entry.2.Prints) : (Expr.map entries p).Prints := by
  intro pos
  obtain ⟨ts, entries', hentries, hsame, hlex⟩ := lexes_entries hne htexts h (pos + 1)
  have hkeys' : (entries'.map (·.1)).Nodup := by
    rw [← Expr.map_fst_entriesWithoutPositions, hsame, Expr.map_fst_entriesWithoutPositions]
    exact hkeys
  have hrender : (Expr.map entries p).render.toList =
      '\x7b' :: ((", ".intercalate (Expr.renderEntries entries)).toList ++ ['\x7d']) := by
    rw [Expr.render]
    simp
  have hall := lexes_enclosed (o := '\x7b') (c := '\x7d') (by decide) (by decide) hlex
  rw [← hrender] at hall
  refine ⟨_, _, .primary (.map rfl hentries hkeys' rfl), ?_, hall.mono fun _ _ => trivial⟩
  rw [Expr.withoutPositions, hsame, Expr.withoutPositions]

end Collections

end ModelInputs
