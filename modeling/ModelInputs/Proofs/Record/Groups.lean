import ModelInputs.Proofs.Outcome
import ModelInputs.Record.Arguments

/-!
# The tokens of groups

Tokens with matching braces are read as trees, and the trees are written back as those tokens. So
each token of an argument list with groups is a brace, or stands in one of the groups.

* `grouped`: tokens in groups;
* `written`: the tokens that have been read, from the trees of the groups that are open;
* **`flatten_group?`**: tokens with matching braces are read as trees, and nothing is lost;
* **`group?_flatten`**: trees are read as they were written;
* **`subArguments?_covers`**: the tokens of an argument list are braces and those of its groups.
-/

namespace ModelInputs

namespace Record

/-- Tokens in groups. -/
def grouped (groups : List (List String)) : List String :=
  groups.flatMap fun tokens => "\x7b" :: tokens ++ ["\x7d"]

/-! ## Reading trees -/

theorem flatten_append (ts us : List Tree) : flatten (ts ++ us) = flatten ts ++ flatten us := by
  induction ts with
  | nil => rfl
  | cons t ts ih => rw [List.cons_append, flatten, flatten, ih, List.append_assoc]

theorem flatten_singleton (t : Tree) : flatten [t] = t.flatten := by
  rw [flatten, flatten, List.append_nil]

/-- The tokens of the trees that are done, behind those of the groups around them, each of which is
still open. -/
def written (done : List Tree) : List (List Tree) → List String
  | [] => flatten done
  | outer :: around => written outer around ++ "\x7b" :: flatten done

theorem written_append (done ts : List Tree) (around : List (List Tree)) :
    written (done ++ ts) around = written done around ++ flatten ts := by
  cases around with
  | nil => exact flatten_append done ts
  | cons outer around =>
    rw [written, written, flatten_append, List.append_assoc, List.cons_append]

/-- What is read is written back behind what was read before. -/
theorem flatten_groupFrom? {done : List Tree} {around : List (List Tree)} {tokens : List String}
    {trees : List Tree} (h : groupFrom? done around tokens = some trees) :
    flatten trees = written done around ++ tokens := by
  induction tokens generalizing done around with
  | nil =>
    cases around with
    | nil =>
      cases h
      exact (List.append_nil _).symm
    | cons outer around => cases h
  | cons token tokens ih =>
    unfold groupFrom? at h
    split at h
    · next hopen =>
      rw [ih h, hopen, written, flatten, List.append_assoc]
      rfl
    split at h
    · next hclose =>
      cases around with
      | nil => cases h
      | cons outer around =>
        rw [ih h, hclose, written_append, flatten_singleton, Tree.flatten, written]
        simp only [List.append_assoc, List.cons_append, List.nil_append]
    · rw [ih h, written_append, flatten_singleton, Tree.flatten, List.append_assoc]
      rfl

/-- Tokens that close all open groups are read. -/
theorem exists_groupFrom? {done : List Tree} {around : List (List Tree)} {tokens : List String}
    (h : depthAfter? around.length tokens = some 0) :
    ∃ trees, groupFrom? done around tokens = some trees := by
  induction tokens generalizing done around with
  | nil =>
    cases around with
    | nil => exact ⟨done, rfl⟩
    | cons outer around => cases h
  | cons token tokens ih =>
    unfold depthAfter? at h
    unfold groupFrom?
    split at h
    · next hopen =>
      rw [if_pos hopen]
      exact ih h
    next hopen =>
    rw [if_neg hopen]
    split at h
    · next hclose =>
      rw [if_pos hclose]
      cases around with
      | nil => cases h
      | cons outer around => exact ih h
    · next hclose =>
      rw [if_neg hclose]
      exact ih h

/-- **Tokens with matching braces are read as trees that are written back as them.** -/
theorem flatten_group? {tokens : List String} (h : isBalanced tokens = true) :
    ∃ trees, group? tokens = some trees ∧ flatten trees = tokens := by
  have hread : ∃ trees, groupFrom? [] [] tokens = some trees :=
    exists_groupFrom? (beq_iff_eq.1 h)
  obtain ⟨trees, htrees⟩ := hread
  exact ⟨trees, htrees, flatten_groupFrom? htrees⟩

/-! ## Reading written trees -/

section

variable (done outer : List Tree) (around : List (List Tree)) (tokens : List String)

theorem groupFrom?_word {token : String} (h : isBrace token = false) :
    groupFrom? done around (token :: tokens) =
      groupFrom? (done ++ [.leaf token]) around tokens := by
  rw [isBrace, Bool.or_eq_false_iff, beq_eq_false_iff_ne, beq_eq_false_iff_ne] at h
  rw [groupFrom?.eq_def]
  exact (if_neg h.1).trans (if_neg h.2)

theorem groupFrom?_open :
    groupFrom? done around ("\x7b" :: tokens) = groupFrom? [] (done :: around) tokens := by
  rw [groupFrom?.eq_def]
  exact if_pos rfl

theorem groupFrom?_close :
    groupFrom? done (outer :: around) ("\x7d" :: tokens) =
      groupFrom? (outer ++ [.group done]) around tokens := by
  rw [groupFrom?.eq_def]
  exact (if_neg (by decide)).trans (if_pos rfl)

end

mutual

/-- A tree is read behind the trees before it. -/
theorem groupFrom?_treeFlatten (done : List Tree) (around : List (List Tree))
    (rest : List String) :
    ∀ t : Tree, t.noBraceLeaf = true →
      groupFrom? done around (t.flatten ++ rest) = groupFrom? (done ++ [t]) around rest
  | .leaf token, h => by
    rw [Tree.noBraceLeaf, Bool.not_eq_true'] at h
    exact groupFrom?_word done around rest h
  | .group items, h => by
    rw [Tree.flatten, List.cons_append, List.cons_append, List.append_assoc, groupFrom?_open,
      groupFrom?_flatten [] (done :: around) _ items h]
    exact groupFrom?_close items done around rest

theorem groupFrom?_flatten (done : List Tree) (around : List (List Tree))
    (rest : List String) :
    ∀ ts : List Tree, noBraceLeaf ts = true →
      groupFrom? done around (flatten ts ++ rest) = groupFrom? (done ++ ts) around rest
  | [], _ => by rw [flatten, List.nil_append, List.append_nil]
  | t :: ts, h => by
    rw [noBraceLeaf, Bool.and_eq_true] at h
    rw [flatten, List.append_assoc, groupFrom?_treeFlatten done around _ t h.1,
      groupFrom?_flatten _ around rest ts h.2, List.append_assoc]
    rfl

end

/-- **Trees are read as they were written.** -/
theorem group?_flatten {ts : List Tree} (h : noBraceLeaf ts = true) :
    group? (flatten ts) = some ts := by
  have hread := groupFrom?_flatten [] [] [] ts h
  rw [List.append_nil, List.nil_append] at hread
  rw [group?, hread]
  rfl

end Record

open Record

namespace Arguments

/-! ## Argument lists of groups -/

theorem make?_eq {args : List String} (h : isBalanced args = true) (keyword : String)
    (origin : Option Origin) : make? keyword args origin = .ok ⟨keyword, args, origin, h⟩ :=
  dif_pos h

theorem make?_eq_ok {keyword : String} {args : List String} {origin : Option Origin}
    {a : Arguments} (h : make? keyword args origin = .ok a) :
    a.keyword = keyword ∧ a.args = args ∧ a.origin = origin := by
  unfold make? at h
  split at h
  · cases h
    exact ⟨rfl, rfl, rfl⟩
  · cases h

theorem ofTrees?_covers {a : Arguments} {trees : List Tree} {groups : List Arguments}
    (h : a.ofTrees? trees = .ok groups) {t : String} (ht : t ∈ Record.flatten trees) :
    isBrace t = true ∨ ∃ group ∈ groups, t ∈ group.args := by
  induction trees generalizing groups with
  | nil => cases ht
  | cons tree trees ih =>
    cases tree with
    | leaf token => cases h
    | group items =>
      obtain ⟨first, hfirst, h⟩ := bind_eq_ok.1 h
      obtain ⟨others, hothers, h⟩ := bind_eq_ok.1 h
      cases h
      rw [Record.flatten, Tree.flatten, List.mem_append, List.cons_append, List.mem_cons,
        List.mem_append, List.mem_singleton] at ht
      obtain (rfl | ht | rfl) | ht := ht
      · exact .inl rfl
      · refine .inr ⟨first, .head _, ?_⟩
        rw [(make?_eq_ok hfirst).2.1]
        exact ht
      · exact .inl rfl
      · obtain hbrace | ⟨group, hgroup, ht⟩ := ih hothers ht
        · exact .inl hbrace
        · exact .inr ⟨group, .tail _ hgroup, ht⟩

/-- **The tokens of an argument list are braces and those of its groups.** -/
theorem subArguments?_covers {a : Arguments} {groups : List Arguments}
    (h : a.subArguments? = .ok groups) {t : String} (ht : t ∈ a.args) :
    isBrace t = true ∨ ∃ group ∈ groups, t ∈ group.args := by
  unfold subArguments? at h
  split at h
  · obtain ⟨trees, htrees, hflatten⟩ := flatten_group? a.balanced
    rw [htrees, Option.getD_some] at h
    rw [← hflatten] at ht
    exact ofTrees?_covers h ht
  split at h
  · next hempty =>
    rw [List.isEmpty_iff.1 hempty] at ht
    cases ht
  · cases h
    exact .inr ⟨a, .head _, ht⟩

end Arguments

end ModelInputs
