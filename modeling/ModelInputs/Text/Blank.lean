import ModelInputs.Text.Ranges

/-!
# Blank characters

The characters that separate words in running text: the Unicode white space characters together
with the four ASCII separators.

* `isBlank`, `strip`;
* **`isBlank_of_isWhitespace`**: the ASCII white space characters are blank.
-/

namespace ModelInputs.Text

/-- The blank code points. -/
def blanks : List (Nat × Nat) :=
  [(0x9, 0xD), (0x1C, 0x20), (0x85, 0x85), (0xA0, 0xA0), (0x1680, 0x1680), (0x2000, 0x200A),
   (0x2028, 0x2029), (0x202F, 0x202F), (0x205F, 0x205F), (0x3000, 0x3000)]

/-- A blank character. -/
def isBlank (c : Char) : Bool :=
  inRanges blanks c.toNat

theorem isBlank_of_isWhitespace {c : Char} (h : c.isWhitespace = true) : isBlank c = true := by
  simp only [Char.isWhitespace, Bool.or_eq_true, decide_eq_true_eq] at h
  rcases h with ((rfl | rfl) | rfl) | rfl <;> decide

/-- The list without its leading and trailing blanks. -/
def stripList (cs : List Char) : List Char :=
  ((cs.dropWhile isBlank).reverse.dropWhile isBlank).reverse

/-- The text without its leading and trailing blanks. -/
def strip (s : String) : String :=
  String.ofList (stripList s.toList)

end ModelInputs.Text
