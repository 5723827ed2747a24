import Mathlib.Data.List.Chain
import Mathlib.Data.List.Nodup
import Mathlib.Data.List.Perm.Subperm
import Mathlib.Logic.Relation
import ModelInputs.Input.Assignment

/-!
# Walks along relative entities

An entity may be placed relative to another one, that one relative to a third, and so on. Where no
entity is placed relative to itself on any way, a walk passes each entity at most once and so ends.
The search for a goal, which takes as many steps as there are entities, finds it exactly if the walk
passes it, also where this goes around a cycle.

* **`acyclic_of_added`**: a step that is added makes no way back if its end does not lead to its
  start;
* `World.RelativeTo`: one step of a walk;
* `World.RelativesHeld`, `World.RelativesSound`: steps lead to entities, and never back;
* **`World.RelativesHeld.leadsTo`**: the search for a goal is exact;
* **`World.RelativesSound.length_le`**: a walk has at most as many steps as there are entities.
-/

namespace ModelInputs

open Relation (TransGen ReflTransGen)

/-! ## Relations without cycles -/

section Acyclic

variable {α : Type} {r r' : α → α → Prop} {a b x y : α}

/-- A way along old steps and an added one is old, or it leads to the start of the added step and on
from its end. -/
theorem transGen_of_added (hnew : ∀ a b, r' a b → r a b ∨ (a = x ∧ b = y))
    (hback : ¬ ReflTransGen r y x) (h : TransGen r' a b) :
    TransGen r a b ∨ (ReflTransGen r a x ∧ ReflTransGen r y b) := by
  induction h with
  | single hab =>
    obtain hold | ⟨rfl, rfl⟩ := hnew _ _ hab
    · exact .inl (.single hold)
    · exact .inr ⟨.refl, .refl⟩
  | tail _ hbc ih =>
    obtain hold | ⟨rfl, rfl⟩ := hnew _ _ hbc
    · obtain hab | ⟨hax, hyb⟩ := ih
      · exact .inl (hab.tail hold)
      · exact .inr ⟨hax, hyb.tail hold⟩
    · obtain hab | ⟨-, hyx⟩ := ih
      · exact .inr ⟨hab.to_reflTransGen, .refl⟩
      · exact absurd hyx hback

/-- **A step that is added makes no way back** if its end does not lead to its start. -/
theorem acyclic_of_added (hr : ∀ a, ¬ TransGen r a a)
    (hnew : ∀ a b, r' a b → r a b ∨ (a = x ∧ b = y)) (hback : ¬ ReflTransGen r y x) (a : α) :
    ¬ TransGen r' a a := by
  intro h
  obtain hold | ⟨hax, hya⟩ := transGen_of_added hnew hback h
  · exact hr a hold
  · exact hback (hya.trans hax)

end Acyclic

namespace World

/-! ## Steps -/

/-- The relative entity of the keyword of one entity is the other one. -/
def RelativeTo (w : World) (keyword : String) (x y : EntityId) : Prop :=
  w.relativeValue keyword x = .entity y

/-- The keyword holds entities. -/
def RelativesHeld (w : World) (keyword : String) : Prop :=
  ∀ x, w.relativeValue keyword x = .none ∨ ∃ y, w.RelativeTo keyword x y

/-- The keyword holds entities, and leads from no entity back to it. -/
structure RelativesSound (w : World) (keyword : String) : Prop where
  value : ∀ x, w.relativeValue keyword x = .none ∨ ∃ y, w.RelativeTo keyword x y
  acyclic : ∀ x, ¬ TransGen (w.RelativeTo keyword) x x

variable {w : World} {keyword : String} {x y z : EntityId}

/-- An entity is placed relative to another one by an input of the keyword. -/
theorem relativeTo_iff : w.RelativeTo keyword x y ↔
    ∃ i type, w.input? ⟨x, keyword⟩ = some i ∧ i.kind = .relativeEntity type ∧
      i.stored = .entity y := by
  unfold RelativeTo relativeValue
  constructor
  · intro h
    split at h
    · next i hi =>
      split at h
      · next type hk => exact ⟨i, type, hi, hk, h⟩
      · cases h
    · cases h
  · rintro ⟨i, type, hi, hk, hv⟩
    simp only [hi, hk]
    exact hv

theorem RelativeTo.unique (h : w.RelativeTo keyword x y) (h' : w.RelativeTo keyword x z) :
    y = z := by
  rw [RelativeTo, h] at h'
  cases h'
  rfl

/-- Only an entity that exists is placed relative to another one. -/
theorem RelativeTo.index_lt (h : w.RelativeTo keyword x y) : x.index < w.entities.length := by
  obtain ⟨i, _, hi, -⟩ := relativeTo_iff.1 h
  obtain ⟨entity, hentity, -⟩ := Option.bind_eq_some_iff.1 hi
  exact (List.getElem?_eq_some_iff.1 hentity).1

theorem index_lt_of_transGen (h : TransGen (w.RelativeTo keyword) x y) :
    x.index < w.entities.length := by
  obtain ⟨z, hz, -⟩ := TransGen.head'_iff.1 h
  exact hz.index_lt

/-- A way from an entity starts with its only step. -/
theorem RelativeTo.reflTransGen_iff (h : w.RelativeTo keyword x y) (hne : x ≠ z) :
    ReflTransGen (w.RelativeTo keyword) x z ↔ ReflTransGen (w.RelativeTo keyword) y z := by
  constructor
  · intro hxz
    obtain rfl | ⟨y', hy', hrest⟩ := Relation.ReflTransGen.cases_head hxz
    · exact absurd rfl hne
    · rwa [h.unique hy']
  · exact .head h

/-- Where there is no step the way ends. -/
theorem reflTransGen_iff_of_end (h : ∀ y, ¬ w.RelativeTo keyword x y) :
    ReflTransGen (w.RelativeTo keyword) x z ↔ x = z := by
  constructor
  · intro hxz
    obtain rfl | ⟨y, hy, -⟩ := Relation.ReflTransGen.cases_head hxz
    · rfl
    · exact absurd hy (h y)
  · rintro rfl
    exact .refl

/-- Different entities that exist are at most as many as there are. -/
theorem length_le_of_nodup {es : List EntityId} (hnodup : es.Nodup)
    (hlt : ∀ e ∈ es, e.index < w.entities.length) : es.length ≤ w.entities.length := by
  have hinj : Function.Injective EntityId.index := by
    rintro ⟨i⟩ ⟨j⟩ rfl
    rfl
  have hsub : es.map EntityId.index ⊆ List.range w.entities.length := by
    intro k hk
    obtain ⟨e, he, rfl⟩ := List.mem_map.1 hk
    exact List.mem_range.2 (hlt e he)
  have hle := (List.subperm_of_subset (List.Nodup.map hinj hnodup) hsub).length_le
  rwa [List.length_map, List.length_range] at hle

/-! ## The search for a goal -/

namespace RelativesHeld

/-- Where some entities lead only to one another, a walk from one of them passes no other goal. -/
theorem not_reflTransGen_of_mem {seen : List EntityId} {goal : EntityId}
    (hsteps : ∀ e ∈ seen, ∀ y, w.RelativeTo keyword e y → y = x ∨ y ∈ seen) (hgoal : goal ∉ seen)
    (hx : x ∈ seen) : ¬ ReflTransGen (w.RelativeTo keyword) x goal := by
  intro h
  refine hgoal ?_
  clear hgoal
  induction h with
  | refl => exact hx
  | tail _ hyz ih =>
    obtain rfl | hz := hsteps _ ih _ hyz
    · exact hx
    · exact hz

variable (hw : w.RelativesHeld keyword)
include hw

/-- The search goes on from entities that it has not passed. What it has passed leads only to these
and to where it is, so it has passed all of the walk when it comes back to one of them. -/
theorem leadsTo_within (goal : EntityId) (n : Nat) (seen : List EntityId) (x : EntityId)
    (hn : w.entities.length ≤ n + seen.length) (hnodup : seen.Nodup)
    (hin : ∀ e ∈ seen, e.index < w.entities.length)
    (hsteps : ∀ e ∈ seen, ∀ y, w.RelativeTo keyword e y → y = x ∨ y ∈ seen) (hgoal : goal ∉ seen) :
    ∃ found, w.leadsTo keyword (some goal) n seen x = .ok found ∧
      (found = true ↔ ReflTransGen (w.RelativeTo keyword) x goal) := by
  induction n generalizing seen x with
  | zero =>
    refine ⟨some x == some goal, rfl, ?_⟩
    rw [beq_iff_eq, Option.some.injEq]
    by_cases hx : x ∈ seen
    · refine iff_of_false ?_ (not_reflTransGen_of_mem hsteps hgoal hx)
      rintro rfl
      exact hgoal hx
    · -- all entities are passed already, so there is no step from here
      refine (reflTransGen_iff_of_end fun y hy => ?_).symm
      have hle := length_le_of_nodup (List.nodup_cons.2 ⟨hx, hnodup⟩)
        (List.forall_mem_cons.2 ⟨hy.index_lt, hin⟩)
      rw [List.length_cons] at hle
      omega
  | succ n ih =>
    unfold World.leadsTo
    split
    · next hfound =>
      obtain rfl := Option.some.inj (beq_iff_eq.1 hfound)
      exact ⟨true, rfl, iff_of_true rfl .refl⟩
    next hfound =>
    have hne : x ≠ goal := fun h => hfound (beq_iff_eq.2 (congrArg some h))
    split
    · next hseen =>
      have hx := List.contains_iff_mem.1 hseen
      exact ⟨false, rfl, iff_of_false nofun (not_reflTransGen_of_mem hsteps hgoal hx)⟩
    next hseen =>
    have hx : x ∉ seen := fun h => hseen (List.contains_iff_mem.2 h)
    obtain hnone | ⟨y, hy⟩ := hw x
    · rw [hnone]
      refine ⟨false, rfl, iff_of_false nofun fun hxg => hne ?_⟩
      refine (reflTransGen_iff_of_end fun y hy => ?_).1 hxg
      rw [RelativeTo, hnone] at hy
      cases hy
    · have hsteps' : ∀ e ∈ x :: seen, ∀ z, w.RelativeTo keyword e z → z = y ∨ z ∈ x :: seen := by
        refine List.forall_mem_cons.2 ⟨fun z hz => .inl (hz.unique hy), fun e he z hz => .inr ?_⟩
        exact List.mem_cons.2 (hsteps e he z hz)
      have hgoal' : goal ∉ x :: seen := fun h => (List.mem_cons.1 h).elim (hne ·.symm) hgoal
      obtain ⟨found, hresult, hiff⟩ := ih (x :: seen) y (by rw [List.length_cons]; omega)
        (List.nodup_cons.2 ⟨hx, hnodup⟩) (List.forall_mem_cons.2 ⟨hy.index_lt, hin⟩) hsteps' hgoal'
      rw [show w.relativeValue keyword x = .entity y from hy]
      exact ⟨found, hresult, hiff.trans (hy.reflTransGen_iff hne).symm⟩

/-- **The search for a goal is exact**: it ends after as many steps as there are entities, however
many more it may take, and finds the goal if and only if the walk passes it. -/
theorem leadsTo (goal x : EntityId) :
    ∃ found, (∀ n, w.entities.length ≤ n → w.leadsTo keyword (some goal) n [] x = .ok found) ∧
      (found = true ↔ ReflTransGen (w.RelativeTo keyword) x goal) := by
  have hsearch (n : Nat) (hn : w.entities.length ≤ n) :=
    hw.leadsTo_within goal n [] x hn List.nodup_nil nofun nofun List.not_mem_nil
  obtain ⟨found, -, hfound⟩ := hsearch w.entities.length (Nat.le_refl _)
  refine ⟨found, fun n hn => ?_, hfound⟩
  obtain ⟨found', hresult, hfound'⟩ := hsearch n hn
  rw [hresult, Bool.eq_iff_iff.2 (hfound'.trans hfound.symm)]

end RelativesHeld

/-! ## Walks -/

namespace RelativesSound

variable (hw : w.RelativesSound keyword)
include hw

theorem held : w.RelativesHeld keyword :=
  hw.value

/-- **A walk has at most as many steps as there are entities.** -/
theorem length_le {x : EntityId} {ys : List EntityId}
    (h : List.IsChain (w.RelativeTo keyword) (x :: ys)) : ys.length ≤ w.entities.length := by
  have hpair : List.Pairwise (TransGen (w.RelativeTo keyword)) (x :: ys) :=
    List.isChain_iff_pairwise.1 (h.imp fun _ _ => .single)
  have hnodup : (x :: ys).Nodup := by
    refine hpair.imp ?_
    rintro a _ hab rfl
    exact hw.acyclic a hab
  -- all but the last one exist, since the walk goes on
  have hlt : ∀ e ∈ (x :: ys).dropLast, e.index < w.entities.length := by
    clear hpair hnodup
    induction ys generalizing x with
    | nil => exact nofun
    | cons y ys ih =>
      obtain ⟨hxy, hrest⟩ := List.isChain_cons_cons.1 h
      rw [List.dropLast_cons_cons, List.forall_mem_cons]
      exact ⟨hxy.index_lt, ih hrest⟩
  have hle := length_le_of_nodup (hnodup.sublist (List.dropLast_sublist _)) hlt
  rwa [List.length_dropLast, List.length_cons, Nat.add_sub_cancel] at hle

/-- The search for a goal is exact, and its walk never goes around a cycle. -/
theorem leadsTo (goal x : EntityId) :
    ∃ found, (∀ n, w.entities.length ≤ n → w.leadsTo keyword (some goal) n [] x = .ok found) ∧
      (found = true ↔ ReflTransGen (w.RelativeTo keyword) x goal) :=
  hw.held.leadsTo goal x

/-- What an entity is placed relative to does not lead back to it. -/
theorem leadsTo_eq_false (h : w.RelativeTo keyword x y) :
    w.leadsTo keyword (some x) w.entities.length [] y = .ok false := by
  obtain ⟨found, hsearch, hiff⟩ := hw.leadsTo x y
  have hfound : found = false := by
    rw [← Bool.not_eq_true, hiff]
    exact fun hback => hw.acyclic x (TransGen.head' h hback)
  rw [hsearch _ (Nat.le_refl _), hfound]

end RelativesSound

end World

end ModelInputs
