import ModelInputs.Proofs.Chains
import ModelInputs.Proofs.Keywords
import ModelInputs.Proofs.Reading.Warnings
import ModelInputs.Proofs.Record.Items
import ModelInputs.Proofs.Record.Writing

/-!
# Records one behind the other

A record that leaves no quote open and holds no comment is read on its own, whatever stands behind
it. Where both are accepted, the items of two records are those of the first and then those of the
second, and they are applied in this order up to the first that is refused. So it makes no difference
whether two records are applied together or one after the other.

* `Applied.behind`, `Applied.andThen`: what is applied behind something else;
* `applyItems_behind`, `applyItems_append`: keywords applied behind others;
* **`applyRecord_append`**: records applied together, and one after the other.
-/

namespace ModelInputs

open Record

namespace World

/-! ## Behind other keywords -/

namespace Applied

/-- What is left if warnings were given and inputs received values before. -/
def behind (log : List Warning) (done : List InputId) (x : Applied) : Applied :=
  ⟨x.world, log ++ x.warnings, x.result.map (done ++ ·)⟩

/-- What is left once something more is applied to the world that is left, unless something was
refused before. -/
def andThen (x : Applied) (next : World → Applied) : Applied :=
  match x.result with
  | .ok done => (next x.world).behind x.warnings done
  | .error _ => x

theorem behind_behind (log log' : List Warning) (done done' : List InputId) (x : Applied) :
    (x.behind log' done').behind log done = x.behind (log ++ log') (done ++ done') := by
  obtain ⟨w, warnings, result⟩ := x
  cases result <;> simp [behind, Except.map]

theorem behind_andThen (log : List Warning) (done : List InputId) (x : Applied)
    (next : World → Applied) :
    (x.behind log done).andThen next = (x.andThen next).behind log done := by
  obtain ⟨w, warnings, result⟩ := x
  cases result with
  | ok received => exact (behind_behind log warnings done received (next w)).symm
  | error failure => rfl

end Applied

/-- Keywords do what they do behind any warnings and behind any other keywords. -/
theorem applyItems_behind (w : World) (e : EntityId) (log : List Warning) (done : List InputId)
    (items : List Arguments) :
    w.applyItems e log done items = (w.applyItems e [] [] items).behind log done := by
  induction items generalizing w log done with
  | nil => simp [applyItems, Applied.behind, Except.map]
  | cons a items ih =>
    obtain ⟨r, warnings, hrun⟩ := w.applyArguments_steady a e
    cases r with
    | error failure =>
      rw [applyItems_of_error (hrun log), applyItems_of_error (hrun [])]
      rfl
    | ok changed =>
      obtain ⟨w', id⟩ := changed
      rw [applyItems_of_ok (hrun log), applyItems_of_ok (hrun []), ih, ih w' ([] ++ warnings),
        Applied.behind_behind]
      rfl

/-- **Keywords behind others are applied to the world that these leave.** -/
theorem applyItems_append (w : World) (e : EntityId) (items items' : List Arguments) :
    w.applyItems e [] [] (items ++ items') =
      (w.applyItems e [] [] items).andThen fun w' => w'.applyItems e [] [] items' := by
  induction items generalizing w with
  | nil => exact applyItems_behind w e [] [] items'
  | cons a items ih =>
    obtain ⟨r, warnings, hrun⟩ := w.applyArguments_steady a e
    rw [List.cons_append]
    cases r with
    | error failure =>
      rw [applyItems_of_error (hrun []), applyItems_of_error (hrun [])]
      rfl
    | ok changed =>
      obtain ⟨w', id⟩ := changed
      rw [applyItems_of_ok (hrun []), applyItems_of_ok (hrun []), applyItems_behind,
        applyItems_behind w' e _ _ items, Applied.behind_andThen, ih]

/-- **Two records in one are applied like the first, and the second behind it if nothing was
refused**: the same world is left, the same inputs have received values, the same keyword was refused
for the same reason, and the same warnings were given. -/
theorem applyRecord_append (w : World) (e : EntityId) (origin : Option Origin)
    {record record' : String} {lists lists' : List Arguments} (hclosed : IsClosed record)
    (h : splitRecord? (tokenize record) origin = .ok lists)
    (h' : splitRecord? (tokenize record') origin = .ok lists') :
    w.applyRecord e (record ++ " " ++ record') origin =
      (w.applyRecord e record origin).andThen fun w' => w'.applyRecord e record' origin := by
  have hboth : splitRecord? (tokenize (record ++ " " ++ record')) origin =
      .ok (lists ++ lists') := by
    rw [tokenize_append hclosed]
    exact splitRecord?_append h h'
  simp only [applyRecord, hboth, h, h', applyItems_append]

/-- A double quote that stands between quotes starts no comment. -/
theorem applyRecord_append_quoted :
    IsClosed "Description 'at 5\" or less'" ∧
      splitRecord? (tokenize "Description 'at 5\" or less'") none =
        .ok [⟨"Description", ["at 5\" or less"], none, by decide⟩] ∧
      splitRecord? (tokenize "NextComponent \x7b S \x7d") none =
        .ok [⟨"NextComponent", ["S"], none, by decide⟩] ∧
      oneServer.applyRecord ⟨0⟩
          ("Description 'at 5\" or less'" ++ " " ++ "NextComponent \x7b S \x7d") =
        (oneServer.applyRecord ⟨0⟩ "Description 'at 5\" or less'").andThen fun w' =>
          w'.applyRecord ⟨0⟩ "NextComponent \x7b S \x7d" := by
  have hclosed : IsClosed "Description 'at 5\" or less'" := by decide
  have hfirst : splitRecord? (tokenize "Description 'at 5\" or less'") none =
      .ok [⟨"Description", ["at 5\" or less"], none, by decide⟩] := by cbv
  have hsecond : splitRecord? (tokenize "NextComponent \x7b S \x7d") none =
      .ok [⟨"NextComponent", ["S"], none, by decide⟩] := by cbv
  exact ⟨hclosed, hfirst, hsecond, applyRecord_append oneServer ⟨0⟩ none hclosed hfirst hsecond⟩

end World

end ModelInputs
