import ModelInputs.Model.Change
import ModelInputs.Proofs.Outcome

/-!
# Warnings do not matter

Reading arguments adds warnings behind those that were given before, and never looks at them. So
arguments that are accepted once are accepted, with the same assignment, whatever was reported
before.

* `Logged.Steady`: the outcome and the new warnings do not hang on the old ones;
* `Logged.Steady.bind`: nor do those of several steps;
* `Logged.Steady.unique`, `Logged.Steady.gives_bind`, `Logged.Steady.run_of_gives`: the outcome;
* **`World.readKind_steady`**, **`World.applyArguments_steady`**: arguments are read so, and keywords
  are applied so.
-/

namespace ModelInputs

namespace Logged

variable {α β : Type}

/-- The outcome is the same whatever warnings were given before, and behind them come the same
ones. -/
def Steady (x : Logged α) : Prop :=
  ∃ r warnings, ∀ log, x.run log = (r, log ++ warnings)

variable {x : Logged α} {k : α → Logged β}

theorem steady_pure (a : α) : Steady (pure a) :=
  ⟨.ok a, [], fun log => by rw [List.append_nil]; rfl⟩

theorem steady_throw (f : Failure) : Steady (throw f : Logged α) :=
  ⟨.error f, [], fun log => by rw [List.append_nil]; rfl⟩

theorem steady_warn (warning : Warning) : Steady (warn warning) :=
  ⟨.ok (), [warning], fun _ => rfl⟩

theorem steady_ofExcept (r : Except Failure α) : Steady (ofExcept r) := by
  cases r with
  | ok a => exact steady_pure a
  | error f => exact steady_throw f

theorem steady_ofInput (r : Except InputError α) : Steady (ofInput r) :=
  steady_ofExcept _

namespace Steady

theorem bind (hx : x.Steady) (hk : ∀ a, (k a).Steady) : (x >>= k).Steady := by
  obtain ⟨r, ws, hx⟩ := hx
  cases r with
  | error f => exact ⟨.error f, ws, fun log => run_bind (hx log)⟩
  | ok a =>
    obtain ⟨r', ws', hk⟩ := hk a
    refine ⟨r', ws ++ ws', fun log => (run_bind (hx log)).trans ?_⟩
    rw [← List.append_assoc]
    exact hk (log ++ ws)

theorem adapt {f : Failure → Failure} (hx : x.Steady) :
    Steady (ExceptT.adapt f x : Logged α) := by
  obtain ⟨r, ws, hx⟩ := hx
  exact ⟨r.mapError f, ws, fun log => run_adapt (hx log)⟩

theorem mapM {f : α → Logged β} (hf : ∀ a, (f a).Steady) (as : List α) :
    Steady (as.mapM f) := by
  induction as with
  | nil => exact steady_pure []
  | cons a as ih =>
    rw [List.mapM_cons]
    exact (hf a).bind fun b => ih.bind fun bs => steady_pure (b :: bs)

theorem foldlM {step : β → α → Logged β} (hstep : ∀ b a, (step b a).Steady) (as : List α)
    (b : β) : Steady (as.foldlM step b) := by
  induction as generalizing b with
  | nil => exact steady_pure b
  | cons a as ih =>
    rw [List.foldlM_cons]
    exact (hstep b a).bind ih

/-! ## Outcomes -/

/-- What is given once is given behind any warnings. -/
theorem run_of_gives (hx : x.Steady) {a : α} (h : x.Gives a) (log : List Warning) :
    ∃ log', x.run log = (.ok a, log') := by
  obtain ⟨r, ws, hx⟩ := hx
  obtain ⟨log₀, log₀', h⟩ := h
  rw [hx] at h
  cases h
  exact ⟨_, hx log⟩

theorem unique (hx : x.Steady) {a a' : α} (h : x.Gives a) (h' : x.Gives a') : a = a' := by
  obtain ⟨log, log', h⟩ := h
  obtain ⟨log'', hrun⟩ := hx.run_of_gives h' log
  rw [h] at hrun
  cases hrun
  rfl

theorem gives_iff_eq (hx : x.Steady) {a a' : α} (h : x.Gives a) : x.Gives a' ↔ a' = a := by
  constructor
  · exact fun h' => hx.unique h' h
  · rintro rfl
    exact h

theorem gives_bind (hk : ∀ a, (k a).Steady) {b : β} :
    (x >>= k).Gives b ↔ ∃ a, x.Gives a ∧ (k a).Gives b := by
  refine ⟨Gives.of_bind, ?_⟩
  rintro ⟨a, ⟨log, log', ha⟩, hb⟩
  obtain ⟨log'', hrun⟩ := (hk a).run_of_gives hb log'
  exact ⟨log, log'', (run_bind ha).trans hrun⟩

theorem gives_adapt {f : Failure → Failure} {a : α} :
    Gives (ExceptT.adapt f x : Logged α) a ↔ x.Gives a := by
  refine ⟨Gives.of_adapt, ?_⟩
  rintro ⟨log, log', h⟩
  exact ⟨log, log', run_adapt h⟩

end Steady

end Logged

open Logged

/-! ## Quantities and groups -/

theorem readQuantities_steady (settings : Settings) (a : Arguments) (unit : UnitType)
    (range : NumberRange) : (readQuantities settings a unit range).Steady := by
  refine (steady_ofInput _).bind fun shared => .mapM (fun token => ?_) _
  refine .bind ?_ fun factor => steady_ofInput _
  unfold factorOf
  split
  · exact steady_ofInput _
  · exact steady_pure _
  split
  · unfold missingUnitFactor
    split
    · exact (steady_warn _).bind fun _ => steady_pure _
    · exact steady_throw _
  · exact steady_pure _

theorem readVector_steady (settings : Settings) (a : Arguments) (unit : UnitType)
    (range : NumberRange) : (readVector settings a unit range).Steady := by
  refine (steady_ofInput _).bind fun _ => (readQuantities_steady _ _ _ _).bind fun xs => ?_
  split
  · exact steady_pure _
  · exact steady_pure _
  · exact steady_pure _
  · exact steady_ofInput _

theorem readGroupsFrom_steady {α : Type} {a : Arguments} {readOne : List α → Arguments → Logged α}
    (hone : ∀ found group, (readOne found group).Steady) (groups : List Arguments)
    (found : List α) : (readGroupsFrom a readOne found groups).Steady := by
  induction groups generalizing found with
  | nil => exact steady_pure found
  | cons group groups ih => exact (hone found group).adapt.bind fun x => ih _

theorem readGroups_steady {α : Type} {a : Arguments} {readOne : List α → Arguments → Logged α}
    (hone : ∀ found group, (readOne found group).Steady) : (readGroups a readOne).Steady :=
  (steady_ofInput _).bind fun groups => readGroupsFrom_steady hone groups []

theorem readVectors_steady (settings : Settings) (a : Arguments) (unit : UnitType)
    (counts : CountRange) : (readVectors settings a unit counts).Steady := by
  refine (steady_ofInput _).bind fun groups => (readGroups_steady fun _ group => ?_).bind fun vs =>
    (steady_ofInput _).bind fun _ => steady_pure _
  exact (steady_ofInput _).bind fun _ => readVector_steady _ _ _ _

/-! ## By kind -/

namespace World

variable (w : World) (this : Option EntityId) (a : Arguments)

theorem constantSample_steady (unit : UnitType) (range : NumberRange) :
    (w.constantSample unit range a).Steady := by
  refine (readQuantities_steady _ _ _ _).bind fun xs => ?_
  split
  · exact steady_pure _
  · exact steady_ofInput _

theorem shortSample_steady (unit : UnitType) (range : NumberRange) (token : String) :
    (w.shortSample this unit range a token).Steady := by
  unfold shortSample
  split
  · exact (steady_ofInput _).bind fun _ => steady_pure _
  split
  · exact w.constantSample_steady a unit range
  · exact (steady_ofExcept _).bind fun _ => steady_pure _

theorem readSample_steady (unit : UnitType) (range : NumberRange) :
    (w.readSample this unit range a).Steady := by
  refine (steady_ofInput _).bind fun _ => ?_
  split
  · exact w.shortSample_steady this a unit range _
  · unfold longSample
    split
    · exact steady_ofExcept _
    split
    · exact steady_throw _
    · exact w.constantSample_steady a unit range

theorem readArguments_steady (i : Input) : (w.readArguments this i a).Steady := by
  unfold readArguments
  split
  · exact steady_ofInput _
  · exact steady_ofInput _
  · refine (steady_ofInput _).bind fun _ => (readQuantities_steady _ _ _ _).bind fun xs => ?_
    split
    · exact steady_pure _
    · exact steady_ofInput _
  · exact steady_ofInput _
  · exact steady_ofInput _
  · exact steady_ofInput _
  · exact steady_ofInput _
  · exact steady_ofInput _
  · exact (readVector_steady _ _ _ _).bind fun _ => steady_pure _
  · exact steady_ofInput _
  · exact (readQuantities_steady _ _ _ _).bind fun _ =>
      (steady_ofInput _).bind fun _ => steady_pure _
  · exact steady_ofInput _
  · exact (readGroups_steady fun _ _ => steady_ofInput _).bind fun _ =>
      (steady_ofInput _).bind fun _ => steady_pure _
  · exact readVectors_steady _ _ _ _
  · exact steady_ofInput _
  · exact steady_ofInput _
  · exact (steady_ofInput _).bind fun _ => (steady_ofExcept _).bind fun _ => steady_pure _
  · exact (steady_ofExcept _).bind fun _ => (steady_ofInput _).bind fun _ => steady_pure _
  · exact steady_ofInput _
  · exact (readGroups_steady fun _ _ => steady_ofExcept _).bind fun _ =>
      (steady_ofInput _).bind fun _ => steady_pure _
  · exact steady_ofInput _
  · exact steady_ofExcept _
  · exact w.readSample_steady this a _ _
  · exact (steady_ofInput _).bind fun _ => steady_ofExcept _
  · exact steady_throw _

theorem numberAttribute_steady (e : EntityId) (name : String) (unit : UnitType) :
    (w.numberAttribute e name unit a).Steady := by
  refine (readQuantities_steady _ _ _ _).bind fun xs => ?_
  split
  · exact steady_pure _
  · exact steady_ofInput _

theorem readDefinition_steady (e : EntityId) (name : String) :
    (w.readDefinition e name a).Steady := by
  unfold readDefinition
  split
  · exact (steady_ofInput _).bind fun _ => w.numberAttribute_steady a e name _
  · split
    · split
      · exact (steady_ofInput _).bind fun _ => w.numberAttribute_steady a e name _
      · exact steady_ofExcept _
    · split
      · exact w.numberAttribute_steady a e name _
      · exact steady_ofExcept _
  · exact steady_ofInput _

theorem readAttribute_steady (e : EntityId) (found : List Attribute) (group : Arguments) :
    (w.readAttribute e found group).Steady :=
  (steady_ofInput _).bind fun _ => (steady_ofInput _).bind fun _ =>
    (steady_ofInput _).bind fun rest => w.readDefinition_steady rest e _

theorem readCustomOutput_steady (e : EntityId) (found : List CustomOutput) (group : Arguments) :
    (w.readCustomOutput e found group).Steady := by
  refine (steady_ofInput _).bind fun _ => (steady_ofInput _).bind fun _ => ?_
  dsimp only
  split
  · exact (steady_ofInput _).bind fun _ => (steady_ofExcept _).bind fun _ => steady_pure _
  · exact (steady_ofExcept _).bind fun _ => steady_pure _

theorem editKeyLists_steady (keyword : String) (keyType valueType : TypeRef) (l : KeyLists) :
    (w.editKeyLists this keyword keyType valueType l a).Steady := by
  have hedit (before : Except Failure (List EntityId)) (tokens : List String) :
      (w.editList this keyword valueType before tokens).Steady := by
    unfold editList
    dsimp only
    split
    · exact (steady_ofExcept _).bind fun _ => (steady_ofExcept _).bind fun _ => steady_ofInput _
    · refine (steady_ofExcept _).bind fun _ => (steady_ofExcept _).bind fun es =>
        .foldlM (fun list e => ?_) es _
      unfold takeFromList
      split
      · exact steady_pure _
      · exact (steady_warn _).bind fun _ => steady_pure _
    · exact steady_ofExcept _
  refine (steady_ofInput _).bind fun groups => .foldlM (fun l group => ?_) groups l
  unfold editGroup
  split
  · exact steady_pure _
  split
  · exact (hedit _ _).bind fun _ => steady_pure _
  · exact (hedit _ _).bind fun _ => steady_pure _

/-- **Arguments are read in the same way whatever was reported before.** -/
theorem readKind_steady (i : Input) : (w.readKind this i a).Steady := by
  have hrequire : (requireEntity this i.keyword).Steady := by
    unfold requireEntity
    split
    · exact steady_pure _
    · exact steady_throw _
  unfold readKind
  split
  · exact (steady_ofExcept _).bind fun _ =>
      (w.editKeyLists_steady this a _ _ _ _).bind fun _ => steady_pure _
  · exact hrequire.bind fun e =>
      (readGroups_steady (w.readAttribute_steady e)).bind fun _ => steady_pure _
  · exact hrequire.bind fun e =>
      (readGroups_steady (w.readCustomOutput_steady e)).bind fun _ => steady_pure _
  · split
    · exact steady_throw _
    · exact (steady_warn _).bind fun _ => steady_pure _
  · exact (w.readArguments_steady this a i).bind fun _ => steady_pure _

/-- **A keyword is applied in the same way whatever was reported before.** -/
theorem applyArguments_steady (e : EntityId) : (w.applyArguments e a).Steady := by
  have hparse (id : InputId) : (w.parseInput (some e) id a).Steady := by
    refine .bind ?_ fun _ => steady_pure _
    unfold readAssignment
    dsimp only
    split
    · exact (w.readKind_steady (some e) a _).bind fun _ => steady_pure _
    · exact steady_pure _
  unfold applyArguments
  dsimp only
  split
  · exact (steady_throw _).bind fun _ => (hparse _).adapt.bind fun _ => steady_pure _
  · exact (hparse _).adapt.bind fun _ => steady_pure _

/-- A keyword that is accepted is all that is applied if it stands alone. -/
theorem applyItems_singleton {w' : World} {e : EntityId} {id : InputId}
    (h : (w.applyArguments e a).Gives (w', id)) :
    ∃ log, w.applyItems e [] [] [a] = ⟨w', log, .ok [id]⟩ := by
  obtain ⟨log, hrun⟩ := (w.applyArguments_steady a e).run_of_gives h []
  refine ⟨log, ?_⟩
  rw [applyItems, hrun]
  rfl

/-- A keyword alone leads to the world that it gives. -/
theorem applyItems_of_gives {w' : World} {e : EntityId} {id : InputId}
    (h : (w.applyArguments e a).Gives (w', id)) : (w.applyItems e [] [] [a]).world = w' := by
  obtain ⟨log, happlied⟩ := w.applyItems_singleton a h
  rw [happlied]

end World

end ModelInputs
