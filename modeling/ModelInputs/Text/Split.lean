/-!
# Cutting texts at a character

* `splitAt sep cs`: the pieces between the separators, one more than there are separators;
* `cut? sep cs`: what stands before and after the first separator;
* **`splitAt_ne_nil`**: there is always a piece.
-/

namespace ModelInputs.Text

/-- The pieces between the separators. -/
def splitAt (sep : Char) : List Char → List (List Char)
  | [] => [[]]
  | c :: cs =>
    if c = sep then [] :: splitAt sep cs
    else
      match splitAt sep cs with
      | [] => [[c]]
      | piece :: pieces => (c :: piece) :: pieces

theorem splitAt_ne_nil (sep : Char) (cs : List Char) : splitAt sep cs ≠ [] := by
  cases cs with
  | nil => simp [splitAt]
  | cons c cs =>
    unfold splitAt
    split
    · simp
    · split <;> simp

/-- What stands before and after the first separator. -/
def cut? (sep : Char) : List Char → Option (List Char × List Char)
  | [] => none
  | c :: cs => if c = sep then some ([], cs) else (cut? sep cs).map fun p => (c :: p.1, p.2)

/-- What follows the separator is shorter than the text. -/
theorem length_of_cut? {sep : Char} {cs before after : List Char}
    (h : cut? sep cs = some (before, after)) : after.length < cs.length := by
  induction cs generalizing before with
  | nil => simp [cut?] at h
  | cons c cs ih =>
    unfold cut? at h
    split at h
    · simp only [Option.some.injEq, Prod.mk.injEq] at h
      simp [h.2]
    · obtain ⟨p, hp, he⟩ := Option.map_eq_some_iff.1 h
      simp only [Prod.mk.injEq] at he
      have hp' : cut? sep cs = some (p.1, after) := by rw [hp, ← he.2]
      have := ih hp'
      simp only [List.length_cons]
      omega

end ModelInputs.Text
