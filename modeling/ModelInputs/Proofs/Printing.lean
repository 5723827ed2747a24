import ModelInputs.Proofs.Printing.Nodes

/-!
# Printing and reading again

The text of a tree is read as the same tree, up to the positions of its nodes. This is so for all
trees that can be written, whose texts never start with an equals sign, and so it is for everything
that a text is read as.

* `StartsPlain`, `Expr.IsWritten.startsPlain`: no text of a tree starts with an equals sign;
* **`Expr.IsWritten.prints`**: the text of every tree that can be written is read as the tree;
* `parse?_iff`: a text is read as a tree if its tokens have a derivation of it;
* **`parse?_render`**: what a text is read as, is read again from its own text.
-/

namespace ModelInputs

open ModelInputs.Token

/-! ## How texts start -/

/-- The text starts with a character other than an equals sign. -/
def StartsPlain (s : String) : Prop :=
  ∃ c cs, s.toList = c :: cs ∧ c ≠ '='

theorem StartsPlain.append {s : String} (h : StartsPlain s) (t : String) :
    StartsPlain (s ++ t) := by
  obtain ⟨c, cs, hs, hc⟩ := h
  refine ⟨c, cs ++ t.toList, ?_, hc⟩
  rw [String.toList_append, hs, List.cons_append]

theorem StartsPlain.noEquals {s : String} (h : StartsPlain s) (rest : List Char) :
    NoEquals (s.toList ++ rest) := by
  obtain ⟨c, cs, hs, hc⟩ := h
  rw [hs]
  rintro _ ⟨⟩
  exact hc

/-- A number starts with a digit. -/
theorem startsPlain_plainText {x : Float} (hx : x.isFinite = true)
    (hn : Number.isNegative x = false) : StartsPlain (Number.plainText x) := by
  obtain ⟨n, hproper, htext⟩ := Number.exists_numeral hx hn
  obtain ⟨c, cs, hcs⟩ := List.exists_cons_of_ne_nil hproper.whole_ne_nil
  have hc := hproper.whole c (hcs ▸ List.mem_cons_self)
  have hchars : (Number.plainText x).toList = n.chars := by
    rw [htext, Number.Numeral.text, String.toList_ofList]
  rw [Number.Numeral.chars, hcs] at hchars
  refine ⟨c, _, hchars, ?_⟩
  rintro rfl
  exact absurd hc (by decide)

theorem startsPlain_renderNumber {x : Float} (u : UnitType) (hx : x.isFinite = true)
    (hn : Number.isNegative x = false) : StartsPlain (Result.renderNumber x u) := by
  have hplain := startsPlain_plainText hx hn
  rw [Result.renderNumber]
  split
  · exact ((hplain.append _).append _).append _
  · exact hplain

/-- No text of a tree starts with an equals sign. -/
theorem Expr.IsWritten.startsPlain {e : Expr} (h : e.IsWritten) : StartsPlain e.render := by
  have hquote : StartsPlain "\"" := ⟨_, _, rfl, by decide⟩
  have hbrace : StartsPlain "\x7b" := ⟨_, _, rfl, by decide⟩
  have hbracket : StartsPlain "[" := ⟨_, _, rfl, by decide⟩
  have hparen : StartsPlain "(" := ⟨_, _, rfl, by decide⟩
  have hnull : StartsPlain "null" := ⟨_, _, rfl, by decide⟩
  have hthis : StartsPlain "this" := ⟨_, _, rfl, by decide⟩
  induction h with
  | number hx hn _ => exact startsPlain_renderNumber _ hx.finite hn
  | text _ => exact (hquote.append _).append _
  | null => exact hnull
  | emptyArray => exact (hbrace.append _).append _
  | this => exact hthis
  | entity _ _ => exact (hbracket.append _).append _
  | output _ _ _ ih => exact (ih.append _).append _
  | index _ _ _ ih _ => exact ((ih.append _).append _).append _
  | binary _ _ _ _ =>
    rw [Expr.render]
    simp only [String.append_assoc]
    exact hparen.append _
  | cond _ _ _ _ _ _ =>
    rw [Expr.render]
    simp only [String.append_assoc]
    exact hparen.append _
  | @unary op _ _ _ _ =>
    have hop : StartsPlain op.symbol := by
      cases op <;> exact ⟨_, _, rfl, by decide⟩
    exact hop.append _
  | @call f _ _ _ _ _ _ =>
    have hname : StartsPlain f.name := by
      cases f <;> exact ⟨_, _, rfl, by decide⟩
    exact ((hname.append _).append _).append _
  | array _ _ _ => exact (hbrace.append _).append _
  | map _ _ _ _ _ => exact (hbrace.append _).append _

/-! ## All trees -/

/-- **The text of every tree that can be written is read as the tree**, and that of a reference as
one that outputs and places may follow. -/
theorem Expr.IsWritten.prints {e : Expr} (h : e.IsWritten) :
    e.Prints ∧ (e.isReference = true → e.PrintsChain) := by
  induction h with
  | number hx hn hu =>
    refine ⟨?_, nofun⟩
    obtain rfl | hu := hu
    · exact prints_plain hx hn
    · exact prints_quantity hx hn hu
  | text hs => exact ⟨prints_text hs, nofun⟩
  | null => exact ⟨prints_null, nofun⟩
  | emptyArray => exact ⟨prints_emptyArray, nofun⟩
  | this => exact ⟨printsChain_this.prints, fun _ => printsChain_this⟩
  | entity hne hname =>
    exact ⟨(printsChain_entity hne hname).prints, fun _ => printsChain_entity hne hname⟩
  | output _ href hname ih =>
    have hchain := ih.2 href
    exact ⟨(printsChain_output hchain hname).prints, fun _ => printsChain_output hchain hname⟩
  | index _ href _ iht ihi =>
    have hchain := iht.2 (isReference_of_isIndexable href)
    exact ⟨(printsChain_index hchain href ihi.1).prints,
      fun _ => printsChain_index hchain href ihi.1⟩
  | binary _ _ ihl ihr => exact ⟨prints_binary ihl.1 ihr.1, nofun⟩
  | unary h ih => exact ⟨prints_unary ih.1 h.startsPlain.noEquals, nofun⟩
  | cond _ _ _ ihc iha ihb => exact ⟨prints_cond ihc.1 iha.1 ihb.1, nofun⟩
  | call _ hmin hmax ih => exact ⟨prints_call (fun e he => (ih e he).1) hmin hmax, nofun⟩
  | array hne _ ih => exact ⟨prints_array hne fun e he => (ih e he).1, nofun⟩
  | map hne hkeys htexts _ ih =>
    exact ⟨prints_map hne hkeys htexts fun entry he => (ih entry he).1, nofun⟩

/-! ## Whole texts -/

/-- A text is read as a tree if and only if its tokens have a derivation of it. -/
theorem parse?_iff {source : String} {e : Expr} :
    Expr.parse? source false = .ok e ↔
      ∃ tokens, tokensFrom 0 source.toList = .ok tokens ∧ Derives tokens e := by
  rw [Expr.parse?, bind_eq_ok]
  constructor
  · rintro ⟨tokens, ht, he⟩
    have htokens := mapError_eq_ok.1 ht
    exact ⟨tokens, mapError_eq_ok.1 htokens,
      derives_of_ofTokens? (tokenize_finish htokens) (anchored_eq_ok.1 he)⟩
  · rintro ⟨tokens, ht, he⟩
    exact ⟨tokens, mapError_eq_ok.2 (mapError_eq_ok.2 ht),
      anchored_eq_ok.2 (ofTokens?_of_derives he)⟩

/-- What a text is read as can be written again, if its numbers are read back. -/
theorem isWritten_of_parse? {source : String} {e : Expr} (h : Expr.parse? source false = .ok e)
    (hn : AreReadBack e.numbers) : e.IsWritten := by
  obtain ⟨tokens, ht, ts, finish, rfl, -, he⟩ := parse?_iff.1 h
  have hclean := isClean_of_mem_tokensFrom ht
  exact he.isWritten (fun t ht => hclean t (List.mem_append_left _ ht)) hn

/-- A tree that can be written is read from its text, up to positions. -/
theorem Expr.IsWritten.exists_parse? {e : Expr} (h : e.IsWritten) :
    ∃ e', Expr.parse? e.render false = .ok e' ∧ e'.withoutPositions = e.withoutPositions := by
  obtain ⟨ts, e', hprefixed, hsame, hlex⟩ := h.prints.1 0
  refine ⟨e', parse?_iff.2 ?_, hsame⟩
  have hend : tokensFrom (0 + e.render.toList.length) [] =
      .ok [⟨.finish, "", 0 + e.render.toList.length⟩] := by
    rw [tokensFrom]
  have hends : EndsItem [] := by
    rintro c ⟨⟩
  have htokens := hlex [] _ hends hend
  rw [List.append_nil] at htokens
  exact ⟨_, htokens, ts, _, rfl, rfl, isExpr_of_isPrefixed hprefixed⟩

/-- **What a text is read as, is read again from its own text**, up to positions: the tree printed
and read once more is the same tree, if its numbers are finite and are read back from their full
texts. -/
theorem parse?_render {source : String} {e : Expr} (h : Expr.parse? source false = .ok e)
    (hfinite : ∀ x ∈ e.numbers, x.isFinite = true)
    (hread : ∀ x ∈ e.numbers, Number.readFloat? (Number.fullText x) = some x) :
    ∃ e', Expr.parse? e.render false = .ok e' ∧ e'.withoutPositions = e.withoutPositions := by
  have hwritten := isWritten_of_parse? h fun x hx => ⟨hfinite x hx, hread x hx⟩
  exact hwritten.exists_parse?

/-! ## An item and a distance -/

/-- The item of an output with its sign turned, and a distance. -/
def itemAndDistance : Expr :=
  .binary .add
    (.unary .neg (.index (.output (.entity none 1) "Speed" 6) (.literal (.plain 2.0) 12) 11) 0)
    (.literal (.number 1500.0 .distance) 17) 15

set_option maxRecDepth 20000 in
theorem parse?_itemAndDistance :
    Expr.parse? "-this.Speed(2) + 1.5[km]" false = .ok itemAndDistance := by
  have ht : tokensFrom 0 "-this.Speed(2) + 1.5[km]".toList =
      .ok [⟨.symbol, "-", 0⟩, ⟨.word, "this", 1⟩, ⟨.symbol, ".", 5⟩, ⟨.word, "Speed", 6⟩,
        ⟨.symbol, "(", 11⟩, ⟨.number, "2", 12⟩, ⟨.symbol, ")", 13⟩, ⟨.symbol, "+", 15⟩,
        ⟨.number, "1.5", 17⟩, ⟨.square, "km", 20⟩, ⟨.finish, "", 24⟩] := by
    cbv
  have hminus : Token.isSymbol ⟨.symbol, "-", 0⟩ UnaryOp.neg.symbol = true := rfl
  have hplus : Token.isSymbol ⟨.symbol, "+", 15⟩ BinaryOp.add.symbol = true := rfl
  have htwo : IsExpr [⟨.number, "2", 12⟩] (.literal (.plain 2.0) 12) :=
    isExpr_of_isPrefixed (.primary (.number rfl (by decide +kernel)))
  have hleft : IsPrefixed [⟨.symbol, "-", 0⟩, ⟨.word, "this", 1⟩, ⟨.symbol, ".", 5⟩,
      ⟨.word, "Speed", 6⟩, ⟨.symbol, "(", 11⟩, ⟨.number, "2", 12⟩, ⟨.symbol, ")", 13⟩] _ :=
    .operator hminus (.primary (.this rfl rfl (.output rfl rfl (.index rfl rfl htwo rfl .done))))
  have hfind : PhysicalUnit.find? "km" = some ⟨"km", .distance, 1000.0⟩ := by rfl
  have hquantity : Parser.quantity 1.5 ⟨"km", .distance, 1000.0⟩ = .number 1500.0 .distance := by
    rw [Parser.quantity]
    congr 1
  have hright : IsPrefixed [⟨.number, "1.5", 17⟩, ⟨.square, "km", 20⟩]
      (.literal (.number 1500.0 .distance) 17) := by
    rw [← hquantity]
    exact .primary (.quantity (t := ⟨.number, "1.5", 17⟩) rfl (by decide +kernel) rfl hfind)
  exact parse?_iff.2 ⟨_, ht, _, ⟨.finish, "", 24⟩, rfl, rfl, isExpr_binary hleft hplus hright⟩

/-- The item and the distance are written in another way than they were, and read again. -/
theorem parse?_render_itemAndDistance :
    Expr.parse? "-this.Speed(2) + 1.5[km]" false = .ok itemAndDistance ∧
      (∀ x ∈ itemAndDistance.numbers, x.isFinite = true) ∧
      (∀ x ∈ itemAndDistance.numbers, Number.readFloat? (Number.fullText x) = some x) ∧
      itemAndDistance.render = "(-this.Speed(2) + 1500[m])" ∧
      ∃ e', Expr.parse? itemAndDistance.render false = .ok e' ∧
        e'.withoutPositions = itemAndDistance.withoutPositions := by
  have hfinite : ∀ x ∈ itemAndDistance.numbers, x.isFinite = true := by decide +kernel
  have hread : ∀ x ∈ itemAndDistance.numbers,
      Number.readFloat? (Number.fullText x) = some x := by
    decide +kernel
  exact ⟨parse?_itemAndDistance, hfinite, hread, by decide +kernel,
    parse?_render parse?_itemAndDistance hfinite hread⟩

end ModelInputs
