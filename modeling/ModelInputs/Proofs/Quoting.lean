import ModelInputs.Proofs.Record.Items
import ModelInputs.Proofs.Repeating
import ModelInputs.Proofs.Strings

/-!
# Texts between quotes

Quotes hold a text together, blanks, line breaks, braces and all, and the input that is given it
stores it as it is. But a token does not show that it stood between quotes, and the braces of a record
are counted token by token. So a text that is nothing but a brace opens or closes a group although it
is quoted, and the record is refused.

* `Record.quoted`, `Record.tokenize_quoted`: a keyword with a text between quotes, and its tokens;
* `Record.splitRecord?_group_iff`: when a keyword and a group of one token are a record;
* `World.applyRecord_text`, `World.applyRecord_brace`: what the record does;
* **`World.quoted_isStored_iff`**: the texts that are stored as they are;
* **`World.not_forall_quoted_isStored`**: one that is not.
-/

namespace ModelInputs

open Record

/-! ## Tokens -/

namespace Record

/-- A keyword with a text between quotes. -/
def quoted (keyword text : String) : String :=
  keyword ++ " \x7b '" ++ text ++ "' \x7d"

/-- The text is one token, whatever characters it has. -/
theorem tokenize_quoted {keyword text : String} (hclosed : IsClosed keyword)
    (hquote : ¬ HasQuote text) :
    tokenize (quoted keyword text) = tokenize keyword ++ ["\x7b", text, "\x7d"] := by
  have hblanks : quoted keyword text =
      keyword ++ " " ++ ("\x7b" ++ " " ++ ("'" ++ text ++ "'" ++ " \x7d")) := by
    rw [quoted, ← String.toList_inj]
    simp
  have hopen : IsClosed "\x7b" := by decide
  have htext : tokenize ("'" ++ text ++ "'" ++ " \x7d") = text :: tokenize " \x7d" := by
    rw [tokenize, String.toList_append]
    exact scan_betweenQuotes hquote _
  rw [hblanks, tokenize_append hclosed, tokenize_append hopen, htext]
  rfl

variable {keyword text : String} {origin : Option Origin}

theorem matched_singleton_iff : Matched [text] ↔ isBrace text = false := by
  constructor
  · intro h
    obtain rfl | rfl | hword := brace_cases text
    · exact absurd h (by decide)
    · exact absurd h not_matched_close
    · exact hword
  · intro h
    exact (matched_cons_iff h).2 matched_nil

/-- A brace alone in a group is a brace that does not match. -/
theorem not_matched_of_isBrace (hkeyword : isBrace keyword = false) (htext : isBrace text = true) :
    ¬ Matched [keyword, "\x7b", text, "\x7d"] := by
  rw [matched_cons_iff hkeyword]
  obtain rfl | rfl | hword := brace_cases text
  · decide
  · decide
  · rw [hword] at htext
    cases htext

/-- A keyword and a group of one token are one item. -/
theorem splitRecord?_group (hkeyword : isBrace keyword = false) (htext : isBrace text = false) :
    splitRecord? [keyword, "\x7b", text, "\x7d"] origin =
      .ok [⟨keyword, [text], origin, isBalanced_iff.2 (matched_singleton_iff.2 htext)⟩] :=
  splitRecord?_flatMap [.braced keyword [text] hkeyword (matched_singleton_iff.2 htext)]

/-- **A keyword and a group of one token are a record exactly if neither of them is a brace.** -/
theorem splitRecord?_group_iff :
    (∃ lists, splitRecord? [keyword, "\x7b", text, "\x7d"] origin = .ok lists) ↔
      isBrace keyword = false ∧ isBrace text = false := by
  constructor
  · rintro ⟨lists, h⟩
    obtain ⟨items, htokens, -⟩ := splitRecord?_eq_ok_iff.1 h
    have hmatched : Matched [keyword, "\x7b", text, "\x7d"] :=
      htokens ▸ Item.matched_flatMap items
    -- an item starts with its keyword
    have hkeyword : isBrace keyword = false := by
      match items with
      | [] => cases htokens
      | .single _ _ hkeyword _ :: _ | .braced _ _ hkeyword _ :: _ =>
        cases (List.cons.inj htokens).1
        exact hkeyword
    refine ⟨hkeyword, Bool.eq_false_iff.2 fun htext => ?_⟩
    exact not_matched_of_isBrace hkeyword htext hmatched
  · rintro ⟨hkeyword, htext⟩
    exact ⟨_, splitRecord?_group hkeyword htext⟩

end Record

/-! ## Records -/

namespace World

variable {w w' : World} {e : EntityId} {keyword text : String} {i : Input} {a : Arguments}

/-- A text that is given to an input of a text is its value then. -/
theorem valueOf_applied_text (hi : w.input? ⟨e, a.keyword⟩ = some i) (hk : i.kind = .text)
    (text : String) :
    (w.applied e a (.value (.text text))).valueOf ⟨e, a.keyword⟩ = .ok (.text text) := by
  have htarget : i.kind.target? = none := by rw [hk]; rfl
  have hself := target_eq_self hi htarget
  obtain ⟨i', hi', hkind, -, hstored⟩ := input?_applied (hself.symm ▸ hi) (.value (.text text))
  rw [hself] at hi'
  have htarget' : i'.kind.target? = none := hkind ▸ htarget
  rw [valueOf, target_eq_self hi' htarget', hi']
  dsimp only
  rw [Input.current?, hkind, hk]
  dsimp only
  rw [hstored]
  exact congrArg Except.ok (i.stored_assign (.text text))

/-- An input of a text accepts a text without quotes, and is set to it. -/
theorem applyArguments_text (hi : w.input? ⟨e, a.keyword⟩ = some i) (hk : i.kind = .text)
    (hargs : a.args = [text]) (hquote : ¬ HasQuote text) :
    (w.applyArguments e a).Gives (w.applied e a (.value (.text text)), ⟨e, a.keyword⟩) := by
  have htarget : i.kind.target? = none := by rw [hk]; rfl
  have hself := target_eq_self hi htarget
  have hreceiver : w.receiver ⟨e, a.keyword⟩ = ⟨e, a.keyword⟩ := by
    rw [receiver, hi, Option.bind_some, htarget]
    rfl
  have hread : (w.readArguments (some e) i a).Gives (.text text) := by
    refine (readArguments_gives_iff (by rw [hk]; rfl)).2 ?_
    rw [hk, hargs]
    exact .text hquote
  have hassigned : (w.readKind (some e) i a).Gives (.value (.text text)) := by
    rw [readKind_value (by rw [hk]; rfl)]
    exact (Logged.Steady.gives_bind fun _ => Logged.steady_pure _).2
      ⟨_, hread, Logged.gives_pure.2 rfl⟩
  exact (applyArguments_gives_iff (hi ▸ rfl) (hself.symm ▸ hi)).2
    ⟨hreceiver.symm, _, hassigned, rfl⟩

variable {written : String} {origin : Option Origin}

/-- A text that is no brace reaches the input, which stores it. -/
theorem applyRecord_text (hi : w.input? ⟨e, keyword⟩ = some i) (hk : i.kind = .text)
    (hclosed : IsClosed written) (hwritten : tokenize written = [keyword])
    (hquote : ¬ HasQuote text) (hkeyword : isBrace keyword = false)
    (htext : isBrace text = false) :
    (w.applyRecord e (quoted written text) origin).result = .ok [⟨e, keyword⟩] ∧
      (w.applyRecord e (quoted written text) origin).world.valueOf ⟨e, keyword⟩ =
        .ok (.text text) := by
  let a : Arguments :=
    ⟨keyword, [text], origin, isBalanced_iff.2 (matched_singleton_iff.2 htext)⟩
  have hsplit : splitRecord? (tokenize (quoted written text)) origin = .ok [a] := by
    rw [tokenize_quoted hclosed hquote, hwritten]
    exact splitRecord?_group hkeyword htext
  have hgives : (w.applyArguments e a).Gives (w.applied e a (.value (.text text)), ⟨e, keyword⟩) :=
    applyArguments_text hi hk rfl hquote
  obtain ⟨log, happlied⟩ := w.applyItems_singleton a hgives
  rw [applyRecord, hsplit]
  dsimp only
  rw [happlied]
  exact ⟨rfl, valueOf_applied_text (a := a) hi hk text⟩

/-- A brace is refused with its record, as the brace of a group that does not match. -/
theorem applyRecord_brace (hclosed : IsClosed written) (hwritten : tokenize written = [keyword])
    (hkeyword : isBrace keyword = false) (htext : isBrace text = true) :
    w.applyRecord e (quoted written text) origin =
      ⟨w, [], .error (.input (.common .braces [formatTokens [keyword, "\x7b", text, "\x7d"]]))⟩ := by
  have hquote : ¬ HasQuote text := by
    obtain rfl | rfl | hword := brace_cases text
    · decide
    · decide
    · rw [hword] at htext
      cases htext
  rw [applyRecord, tokenize_quoted hclosed hquote, hwritten, List.singleton_append,
    splitRecord?_of_not_matched (not_matched_of_isBrace hkeyword htext)]

/-- **A text is stored as it stands between quotes exactly if it is no brace.** Any other text
without quotes, empty or not, reaches an input of a text unchanged with a record that gives it to
the keyword of the input, if the keyword can be written at all. An opening or closing brace is
taken for one of the record in spite of its quotes: the record is refused, with the error of braces
that do not match, and nothing changes. -/
theorem quoted_isStored_iff (hi : w.input? ⟨e, keyword⟩ = some i) (hk : i.kind = .text)
    (hclosed : IsClosed written) (hwritten : tokenize written = [keyword])
    (hquote : ¬ HasQuote text) (origin : Option Origin) :
    ((w.applyRecord e (quoted written text) origin).result = .ok [⟨e, keyword⟩] ∧
        (w.applyRecord e (quoted written text) origin).world.valueOf ⟨e, keyword⟩ =
          .ok (.text text) ↔
      isBrace keyword = false ∧ isBrace text = false) ∧
    (isBrace keyword = false → isBrace text = true →
      w.applyRecord e (quoted written text) origin =
        ⟨w, [], .error (.input (.common .braces
          [formatTokens [keyword, "\x7b", text, "\x7d"]]))⟩) := by
  refine ⟨⟨?_, ?_⟩, applyRecord_brace hclosed hwritten⟩
  · rintro ⟨hresult, -⟩
    rw [applyRecord, tokenize_quoted hclosed hquote, hwritten] at hresult
    split at hresult
    · next lists hlists => exact splitRecord?_group_iff.1 ⟨lists, hlists⟩
    · cases hresult
  · rintro ⟨hkeyword, htext⟩
    exact applyRecord_text hi hk hclosed hwritten hquote hkeyword htext

/-- Braces, line breaks and double quotes stand in a text like any other character. -/
theorem quoted_isStored_iff_description :
    ∃ i, oneServer.input? ⟨⟨0⟩, "Description"⟩ = some i ∧ i.kind = .text ∧
      IsClosed "Description" ∧ tokenize "Description" = ["Description"] ∧
      ¬ HasQuote "\x7b half \"open\"\n" ∧
      (oneServer.applyRecord ⟨0⟩ (quoted "Description" "\x7b half \"open\"\n")).result =
        .ok [⟨⟨0⟩, "Description"⟩] ∧
      (oneServer.applyRecord ⟨0⟩ (quoted "Description" "\x7b half \"open\"\n")).world.valueOf
        ⟨⟨0⟩, "Description"⟩ = .ok (.text "\x7b half \"open\"\n") := by
  have hclosed : IsClosed "Description" := by decide
  have hwritten : tokenize "Description" = ["Description"] := by decide
  have hquote : ¬ HasQuote "\x7b half \"open\"\n" := by decide
  have hfound : oneServer.input? ⟨⟨0⟩, "Description"⟩ = some _ := rfl
  exact ⟨_, hfound, rfl, hclosed, hwritten, hquote,
    (quoted_isStored_iff hfound rfl hclosed hwritten hquote none).1.2 ⟨by decide, by decide⟩⟩

/-- The opening brace between quotes is refused as the description of a server. -/
theorem not_forall_quoted_isStored :
    ¬ ∀ (w : World) (e : EntityId) (i : Input) (text : String), Reached .standard w →
      w.input? ⟨e, "Description"⟩ = some i → i.kind = .text → ¬ HasQuote text →
        (w.applyRecord e (quoted "Description" text)).result = .ok [⟨e, "Description"⟩] ∧
          (w.applyRecord e (quoted "Description" text)).world.valueOf ⟨e, "Description"⟩ =
            .ok (.text text) := by
  intro h
  have hcreate : create? { palette := .standard } "Server" "S" = .ok (oneServer, ⟨0⟩) := rfl
  have hreached : Reached .standard oneServer := ⟨{}, false, .tail .refl (.create hcreate)⟩
  have hwritten : tokenize "Description" = ["Description"] := by decide
  have hrefused : oneServer.applyRecord ⟨0⟩ (quoted "Description" "\x7b") = _ :=
    applyRecord_brace (by decide) hwritten (by decide) (by decide)
  have hresult := (h oneServer ⟨0⟩ _ "\x7b" hreached rfl rfl (by decide)).1
  rw [hrefused] at hresult
  cases hresult

end World

end ModelInputs
