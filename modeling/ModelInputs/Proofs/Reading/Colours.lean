import ModelInputs.Proofs.Reading.Numbers

/-!
# Colours as arguments

A colour is written by the first name of its hue, or else by its components, and with its opacity
unless that is one. The components of a colour lie between zero and one, so they are not taken for
numbers that count up to 255, and the colour is read from its text as it was.

* `Colour.IsFraction`: a component between zero and one that comes back from its text;
* `Colour.tokens`, `Colour.tokenize_text`: a colour as arguments;
* **`Colour.read?_tokens`**: a colour comes back.
-/

namespace ModelInputs

open Number Record
open Float.Model (UnpackedFloat)

/-! ## Numbers between zero and one -/

namespace Number

variable {x : Float}

/-- A number between zero and one is finite. -/
theorem isFinite_of_isFraction (hleast : 0.0 ≤ x) (hmost : x ≤ 1.0) : x.isFinite = true := by
  refine Bool.not_eq_false _ ▸ fun hinfinite => ?_
  obtain ⟨rfl, -⟩ | ⟨rfl, -⟩ := eq_infinity (isInf_of_not_isFinite (isNaN_of_le hleast) hinfinite)
  · exact absurd hmost (by decide)
  · exact absurd hleast (by decide)

theorem le_of_le_one (h : x ≤ 1.0) : x ≤ 255.0 := by
  have hone : (1.0 : Float).toModel.unpack = .finite .positive (2 ^ 52) (-52) (by decide) := rfl
  have hmost : (255.0 : Float).toModel.unpack =
      .finite .positive (255 * 2 ^ 45) (-45) (by decide) := rfl
  rw [le_iff_unpack, hone, UnpackedFloat.le] at h
  rw [le_iff_unpack, hmost, UnpackedFloat.le]
  cases hx : x.toModel.unpack with
  | notANumber =>
    rw [hx] at h
    cases h
  | infinity s =>
    rw [hx] at h
    cases s with
    | positive => cases h
    | negative => rfl
  | zero s => rfl
  | finite s m e hm =>
    rw [hx] at h
    cases s with
    | negative => rfl
    | positive =>
      have hle : ((compare e (-52)).then (compare m (2 ^ 52))).isLE = true := h
      have he : e < -45 := by
        by_contra hge
        rw [Int.compare_eq_gt.2 (by omega)] at hle
        cases hle
      show ((compare e (-45)).then (compare m (255 * 2 ^ 45))).isLE = true
      rw [Int.compare_eq_lt.2 he]
      rfl

end Number

namespace Colour

/-- A component between zero and one that comes back from its text. -/
structure IsFraction (x : Float) : Prop where
  comesBack : ComesBack x
  least : 0.0 ≤ x
  most : x ≤ 1.0

variable {a : Arguments} {x : Float} {c : Colour}

/-- A component comes back, and does not count up to 255. -/
theorem readComponent?_plainText (a : Arguments) (hx : IsFraction x) :
    ∃ y, readComponent? a (plainText x) = .ok y ∧ SameNumber x y ∧ ¬ y > 1.0 := by
  have hfinite := isFinite_of_isFraction hx.least hx.most
  obtain ⟨y, hy, hsame⟩ := readFloat?_plainText_same hfinite (hx.comesBack.read hfinite)
  refine ⟨y, ?_, hsame, mt hsame.gt_iff.1 (not_lt_of_le hx.most)⟩
  rw [readComponent?, hy]
  exact if_pos ⟨hsame.ge_iff.2 hx.least, hsame.le_iff.2 (le_of_le_one hx.most)⟩

/-- The components of a colour that has been read lie between zero and one, if quotients by 255
do. -/
theorem isFraction_of_isScaled (h : c.IsScaled)
    (hread : ∀ x ∈ [c.red, c.green, c.blue, c.alpha],
      x.isFinite = true → readFloat? (fullText x) = some x)
    (hfraction : ∀ x ∈ [c.red, c.green, c.blue, c.alpha],
      ∀ y, 0.0 ≤ y → y ≤ 255.0 → x = y / 255.0 → 0.0 ≤ x ∧ x ≤ 1.0) :
    ∀ x ∈ [c.red, c.green, c.blue, c.alpha], IsFraction x := by
  intro x hx
  have hbounds : 0.0 ≤ x ∧ x ≤ 1.0 := by
    obtain ⟨y, hleast, hmost, ⟨hone, rfl⟩ | hquotient⟩ := h x hx
    · exact ⟨hleast, le_of_not_lt (isNaN_of_le hleast) rfl hone⟩
    · exact hfraction x hx y hleast hmost hquotient
  exact ⟨⟨isNaN_of_le hbounds.1, hread x hx⟩, hbounds.1, hbounds.2⟩

/-! ## Texts of colours -/

/-- The name of the hue, or its components. -/
def hueTokens (c : Colour) : List String :=
  match named.find? fun entry => entry.2.sameHue c with
  | some (name, _) => [name]
  | none => [c.red, c.green, c.blue].map plainText

/-- The opacity, unless it is one. -/
def alphaTokens (c : Colour) : List String :=
  if c.alpha == 1.0 then [] else [plainText c.alpha]

/-- A colour as arguments. -/
def tokens (c : Colour) : List String :=
  c.hueTokens ++ c.alphaTokens

theorem isWord_of_mem_named : ∀ entry ∈ named, IsWord entry.1 := by
  have hall : ∀ entry ∈ named, entry.1.toList ≠ [] ∧ entry.1.toList.all isPlain = true := by
    decide
  exact fun entry hentry => ⟨(hall entry hentry).1, (hall entry hentry).2⟩

/-- Every colour with a name is found under it. -/
theorem find?_of_mem_named : ∀ entry ∈ named, find? entry.1 = some entry.2 := by
  have hlower : ∀ entry ∈ named, Text.lower entry.1 = entry.1 := by
    decide
  have hnodup : (named.map (·.1)).Nodup := by
    decide
  intro entry hentry
  obtain ⟨before, behind, hnamed⟩ := List.append_of_mem hentry
  rw [find?, hlower entry hentry]
  refine List.lookup_eq_some_iff.2 ⟨before, behind, hnamed, fun other hother => ?_⟩
  rw [hnamed, List.map_append] at hnodup
  refine bne_iff_ne.2 fun hname => ?_
  exact (List.nodup_append.1 hnodup).2.2 other.1 (List.mem_map_of_mem hother) entry.1 (.head _)
    hname.symm

theorem isWord_of_mem_tokens (h : ∀ x ∈ [c.red, c.green, c.blue, c.alpha], IsFraction x) :
    ∀ s ∈ c.tokens, IsWord s := by
  have hnumber {x : Float} (hx : x ∈ [c.red, c.green, c.blue, c.alpha]) : IsWord (plainText x) :=
    (isWrittenNumber_plainText (h x hx).comesBack.isNumber).isWord
  refine List.forall_mem_append.2 ⟨?_, ?_⟩
  · unfold hueTokens
    split
    · next hfind =>
      exact List.forall_mem_singleton.2 (isWord_of_mem_named _ (List.mem_of_find?_eq_some hfind))
    · refine List.forall_mem_map.2 fun x hx => hnumber ?_
      exact List.mem_append_left [c.alpha] hx
  · unfold alphaTokens
    split
    · exact List.forall_mem_nil _
    · refine List.forall_mem_singleton.2 (hnumber ?_)
      exact List.mem_append_right [c.red, c.green, c.blue] (.head _)

theorem tokenize_text (h : ∀ x ∈ [c.red, c.green, c.blue, c.alpha], IsFraction x) :
    tokenize c.text = c.tokens :=
  tokenize_words (isWord_of_mem_tokens h)

/-! ## Reading colours back -/

/-- The opacity that is read, or one if there is none. -/
theorem readAlpha?_tokens (a : Arguments) (h : IsFraction c.alpha) :
    c.alphaTokens = [] ∧ (1.0 == c.alpha) = true ∨
      ∃ token y, c.alphaTokens = [token] ∧ readComponent? a token = .ok y ∧ scaled y = y ∧
        (y == c.alpha) = true := by
  unfold alphaTokens
  split
  · next hone => exact .inl ⟨rfl, (beq_comm 1.0 c.alpha).trans hone⟩
  · obtain ⟨y, hy, hsame, hscale⟩ := readComponent?_plainText a h
    exact .inr ⟨_, y, rfl, hy, if_neg hscale, hsame.beq h.comesBack.isNumber⟩

section

variable {name token r g b : String} {x y z w : Float}

theorem checkCountRange_args {args : List String} (hargs : a.args = args)
    (hleast : 1 ≤ args.length) (hmost : args.length ≤ 4) :
    a.checkCountRange 1 (some 4) = .ok () := by
  rw [checkCountRange_eq_ok, hargs]
  exact ⟨hleast, fun _ => hmost⟩

theorem read?_name (hargs : a.args = [name]) (hname : find? name = some c) :
    read? a = .ok c := by
  have hhead : a.args.head?.bind find? = some c := by
    rw [hargs]
    exact hname
  rw [read?, checkCountRange_args hargs (by simp) (by simp), ok_bind, hhead, hargs]
  rfl

theorem read?_nameAlpha (hargs : a.args = [name, token]) (hname : find? name = some c)
    (htoken : readComponent? a token = .ok x) : read? a = .ok { c with alpha := scaled x } := by
  have hhead : a.args.head?.bind find? = some c := by
    rw [hargs]
    exact hname
  rw [read?, checkCountRange_args hargs (by simp) (by simp), ok_bind, hhead, hargs]
  dsimp only
  rw [htoken]
  rfl

/-- Components up to one are not scaled. -/
theorem read?_components {alpha : List String} (hargs : a.args = r :: g :: b :: alpha)
    (hname : find? r = none) (hr : readComponent? a r = .ok x) (hg : readComponent? a g = .ok y)
    (hb : readComponent? a b = .ok z) (hone : ¬ x > 1.0 ∧ ¬ y > 1.0 ∧ ¬ z > 1.0)
    (halpha : alpha = [] ∧ w = 1.0 ∨
      ∃ token, alpha = [token] ∧ readComponent? a token = .ok w ∧ scaled w = w) :
    read? a = .ok ⟨x, y, z, w⟩ := by
  have hhead : a.args.head?.bind find? = none := by
    rw [hargs]
    exact hname
  have hscale : ¬ (decide (x > 1.0) || decide (y > 1.0) || decide (z > 1.0)) = true := by
    simp only [Bool.or_eq_true, decide_eq_true_eq, not_or]
    exact ⟨⟨hone.1, hone.2.1⟩, hone.2.2⟩
  obtain ⟨rfl, rfl⟩ | ⟨token, rfl, htoken, hscaled⟩ := halpha
  · rw [read?, checkCountRange_args hargs (by simp) (by simp), ok_bind, hhead, hargs]
    simp only [hr, hg, hb, ok_bind, if_neg hscale]
    rfl
  · rw [read?, checkCountRange_args hargs (by simp) (by simp), ok_bind, hhead, hargs]
    simp only [hr, hg, hb, htoken, ok_bind, if_neg hscale, hscaled]
    rfl

end

/-- **A colour comes back.** -/
theorem read?_tokens (hargs : a.args = c.tokens)
    (h : ∀ x ∈ [c.red, c.green, c.blue, c.alpha], IsFraction x) :
    ∃ c', read? a = .ok c' ∧ (c'.sameHue c && c'.alpha == c.alpha) = true := by
  simp only [List.forall_mem_cons] at h
  obtain ⟨hred, hgreen, hblue, halpha, -⟩ := h
  have hopaque := readAlpha?_tokens a halpha
  rw [tokens, hueTokens] at hargs
  cases hfind : named.find? fun entry => entry.2.sameHue c with
  | some entry =>
    rw [hfind] at hargs
    have hmem := List.mem_of_find?_eq_some hfind
    have hname := find?_of_mem_named entry hmem
    have hhue : entry.2.sameHue c = true :=
      List.find?_some (p := fun entry : String × Colour => entry.2.sameHue c) hfind
    have hone : ∀ entry ∈ named, entry.2.alpha = 1.0 := by
      decide
    obtain ⟨hnone, hsame⟩ | ⟨token, y, hsome, hread, hscaled, hsame⟩ := hopaque
    · rw [hnone] at hargs
      refine ⟨entry.2, read?_name hargs hname, Bool.and_eq_true_iff.2 ⟨hhue, ?_⟩⟩
      rw [hone entry hmem]
      exact hsame
    · rw [hsome] at hargs
      refine ⟨{ entry.2 with alpha := y }, ?_, Bool.and_eq_true_iff.2 ⟨hhue, hsame⟩⟩
      rw [read?_nameAlpha hargs hname hread, hscaled]
  | none =>
    rw [hfind] at hargs
    obtain ⟨r, hr, hrsame, hrone⟩ := readComponent?_plainText a hred
    obtain ⟨g, hg, hgsame, hgone⟩ := readComponent?_plainText a hgreen
    obtain ⟨b, hb, hbsame, hbone⟩ := readComponent?_plainText a hblue
    have hname := (isWrittenNumber_plainText hred.comesBack.isNumber).find?_colour
    have hhue : (r == c.red && g == c.green && b == c.blue) = true := by
      rw [hrsame.beq hred.comesBack.isNumber, hgsame.beq hgreen.comesBack.isNumber,
        hbsame.beq hblue.comesBack.isNumber]
      rfl
    obtain ⟨hnone, hsame⟩ | ⟨token, y, hsome, hread, hscaled, hsame⟩ := hopaque
    · rw [hnone] at hargs
      exact ⟨⟨r, g, b, 1.0⟩, read?_components hargs hname hr hg hb ⟨hrone, hgone, hbone⟩
        (.inl ⟨rfl, rfl⟩), Bool.and_eq_true_iff.2 ⟨hhue, hsame⟩⟩
    · rw [hsome] at hargs
      exact ⟨⟨r, g, b, y⟩, read?_components hargs hname hr hg hb ⟨hrone, hgone, hbone⟩
        (.inr ⟨token, rfl, hread, hscaled⟩), Bool.and_eq_true_iff.2 ⟨hhue, hsame⟩⟩

end Colour

end ModelInputs
