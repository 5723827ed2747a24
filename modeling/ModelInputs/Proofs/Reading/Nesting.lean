import Mathlib.Data.List.Chain
import Mathlib.Data.List.Nodup
import Mathlib.Data.List.Perm.Subperm
import Mathlib.Logic.Relation
import ModelInputs.Proofs.Reading.Reads

/-!
# How deep readings nest

A reading that fails at the limit of the depth has nested up to it: it came to another reading, that
one to a third, and so on. There are only so many readings that can take others, so at a depth that
is great enough one of them comes back to itself, and then there is no depth at which it yields
anything. Whatever is not at the limit stays the same at every greater depth.

* `Goes`: so many steps one after the other, **`cycle_or_nodup`**: around a cycle, or all different;
* `World.outcome_stable`: what is not at the limit stays the same;
* **`World.goes_of_endless`**, **`World.endless_of_goes`**: a reading is at the limit exactly if it
  nests up to it;
* `World.sources`: the readings that can take others, as many as `World.length_sources` tells;
* **`World.length_nesting_le`**: different readings nest only so deep;
* **`World.exists_cycle_of_endless`**, **`World.endless_of_cycle`**: at a great depth, exactly if it
  comes to a reading that comes back to itself;
* **`World.endless_forever`**: what is at the limit of a great depth is at the limit of every depth.
-/

namespace ModelInputs

open Relation (ReflTransGen TransGen)

/-! ## Steps one after the other -/

section

variable {α : Type} {R : α → α → Prop} {a b : α}

/-- So many steps can be made, one after the other. -/
def Goes (R : α → α → Prop) : Nat → α → Prop
  | 0, _ => True
  | n + 1, a => ∃ b, R a b ∧ Goes R n b

/-- A way to a cycle goes on around it. -/
theorem goes_of_cycle (hab : ReflTransGen R a b) (hb : TransGen R b b) (n : Nat) : Goes R n a := by
  induction n generalizing a with
  | zero => trivial
  | succ n ih =>
    obtain rfl | ⟨c, hac, hcb⟩ := hab.cases_head
    · obtain ⟨c, hac, hca⟩ := TransGen.head'_iff.1 hb
      exact ⟨c, hac, ih hca⟩
    · exact ⟨c, hac, ih hcb⟩

theorem Goes.mono {R' : α → α → Prop} (hR : ∀ a b, R a b → R' a b) {n : Nat} (h : Goes R n a) :
    Goes R' n a := by
  induction n generalizing a with
  | zero => trivial
  | succ n ih =>
    obtain ⟨b, hab, hb⟩ := h
    exact ⟨b, hR a b hab, ih hb⟩

theorem Goes.exists_chain {n : Nat} (h : Goes R n a) :
    ∃ bs, List.IsChain R (a :: bs) ∧ bs.length = n := by
  induction n generalizing a with
  | zero => exact ⟨[], .singleton a, rfl⟩
  | succ n ih =>
    obtain ⟨b, hab, hb⟩ := h
    obtain ⟨bs, hchain, hlength⟩ := ih hb
    exact ⟨b :: bs, .cons_cons hab hchain, congrArg (· + 1) hlength⟩

theorem reflTransGen_of_chain {bs : List α} (h : List.IsChain R (a :: bs)) :
    ∀ b ∈ a :: bs, ReflTransGen R a b := by
  induction bs generalizing a with
  | nil =>
    rintro b hb
    obtain rfl := List.mem_singleton.1 hb
    exact .refl
  | cons c bs ih =>
    obtain ⟨hac, hrest⟩ := List.isChain_cons_cons.1 h
    rintro b (_ | ⟨_, hb⟩)
    · exact .refl
    · exact .head hac (ih hrest b hb)

/-- **A chain that passes nothing twice, or a way around a cycle.** -/
theorem cycle_or_nodup {bs : List α} (h : List.IsChain R (a :: bs)) :
    (∃ b, ReflTransGen R a b ∧ TransGen R b b) ∨ (a :: bs).Nodup := by
  by_cases hcycle : ∃ b, ReflTransGen R a b ∧ TransGen R b b
  · exact .inl hcycle
  · right
    have hpair : List.Pairwise (TransGen R) (a :: bs) :=
      List.isChain_iff_pairwise.1 (h.imp fun _ _ => .single)
    refine hpair.imp_of_mem fun {b c} hb _ hbc => ?_
    rintro rfl
    exact hcycle ⟨b, reflTransGen_of_chain h b hb, hbc⟩

end

/-! ## Computations that ask for an endless reading -/

namespace Asks

variable {α : Type} {G : Prop} {f : Readings → Except Failure α}
variable {asked : Readings → Reading → Prop} {r : Readings}

/-- A computation refers back to itself where a reading does that it asks for. -/
theorem endless (h : Asks G f asked) {q : Reading} (hq : asked r q)
    (hend : Endless (r.outcome q)) : Endless (f r) := by
  obtain ⟨x, hx, hxend⟩ := hend
  obtain ⟨y, hy, hiff⟩ := h.strict hq hx
  exact ⟨y, hy, hiff.2 hxend⟩

/-- Only a reading that it asks for makes a computation refer back to itself, as long as it does not
do so on its own account. -/
theorem exists_endless (h : Asks G f asked) (hend : Endless (f r)) :
    (∃ q, asked r q ∧ Endless (r.outcome q)) ∨
      ¬ G ∧ ∀ q, asked r q → ∃ a, r.outcome q = .ok a := by
  by_cases hok : ∀ q, asked r q → ∃ a, r.outcome q = .ok a
  · exact .inr ⟨fun hG => h.plain hG hok hend, hok⟩
  · left
    obtain ⟨q, hfail⟩ := Classical.not_forall.1 hok
    obtain ⟨hq, hfail⟩ := Classical.not_imp.1 hfail
    cases hx : r.outcome q with
    | ok a => exact absurd ⟨a, hx⟩ hfail
    | error x =>
      obtain ⟨y, hy, hiff⟩ := h.strict hq hx
      rw [hy] at hend
      exact ⟨q, hq, by rw [hx]; exact endless_error.2 (hiff.1 (endless_error.1 hend))⟩

end Asks

namespace World

variable (w : World)

/-! ## Levels -/

theorem outcome_zero (q : Reading) : Endless ((w.readingsWithin 0).outcome q) := by
  cases q <;> exact endless_error.2 trivial

theorem outcome_succ (n : Nat) (q : Reading) :
    (w.readingsWithin (n + 1)).outcome q = q.outcomeOver w (w.readingsWithin n) := by
  cases q <;> rfl

theorem readingsWithin_extends_of_le {k n : Nat} (h : k ≤ n) :
    (w.readingsWithin k).Extends (w.readingsWithin n) := by
  induction h with
  | refl => exact .refl _
  | step _ ih => exact ih.trans (w.readingsWithin_extends _)

variable {w} {k n : Nat}

/-- What a computation yields that does not refer back to itself stays the same at every greater
depth, as the readings do. -/
theorem stable_of_outcomes {α : Type} {G : Prop} {f : Readings → Except Failure α}
    {asked : Readings → Reading → Prop} (h : Asks G f asked)
    (hstable : ∀ q, Endless ((w.readingsWithin k).outcome q) ∨
      (w.readingsWithin n).outcome q = (w.readingsWithin k).outcome q) :
    Endless (f (w.readingsWithin k)) ∨ f (w.readingsWithin n) = f (w.readingsWithin k) ∧
      ∀ q, asked (w.readingsWithin n) q → asked (w.readingsWithin k) q := by
  by_cases hend : Endless (f (w.readingsWithin k))
  · exact .inl hend
  · refine .inr (h.same fun q hq => ?_)
    exact (hstable q).resolve_left fun hq' => hend (h.endless hq hq')

/-- **What is not at the limit stays the same** at every greater depth. -/
theorem outcome_stable (h : k ≤ n) (q : Reading) :
    Endless ((w.readingsWithin k).outcome q) ∨
      (w.readingsWithin n).outcome q = (w.readingsWithin k).outcome q := by
  induction k generalizing n q with
  | zero => exact .inl (w.outcome_zero q)
  | succ k ih =>
    obtain ⟨n, rfl⟩ : ∃ m, n = m + 1 := ⟨n - 1, by omega⟩
    rw [outcome_succ, outcome_succ]
    exact (stable_of_outcomes (outcomeOver_asks q) fun q' => ih (by omega) q').imp_right And.left

theorem stable {α : Type} {G : Prop} {f : Readings → Except Failure α}
    {asked : Readings → Reading → Prop} (h : Asks G f asked) (hkn : k ≤ n) :
    Endless (f (w.readingsWithin k)) ∨ f (w.readingsWithin n) = f (w.readingsWithin k) ∧
      ∀ q, asked (w.readingsWithin n) q → asked (w.readingsWithin k) q :=
  stable_of_outcomes h (outcome_stable hkn)

/-- What is at the limit of a depth is at the limit of every smaller one. -/
theorem endless_of_le {α : Type} {G : Prop} {f : Readings → Except Failure α}
    {asked : Readings → Reading → Prop} (h : Asks G f asked) (hkn : k ≤ n)
    (hend : Endless (f (w.readingsWithin n))) : Endless (f (w.readingsWithin k)) := by
  obtain hk | ⟨heq, -⟩ := stable h hkn
  · exact hk
  · rwa [← heq]

/-! ## Readings that nest up to the limit -/

/-- **A reading at the limit nests up to it**, unless the output of a class refers back to itself at
every depth. -/
theorem goes_of_endless {m : Nat} {q : Reading} (hnm : n ≤ m + 1)
    (hend : Endless ((w.readingsWithin n).outcome q)) :
    Goes (w.ComesTo (w.readingsWithin m)) n q ∨
      ¬ w.GettersPlain ∧ ∀ k, Endless ((w.readingsWithin k).outcome q) := by
  induction n generalizing q with
  | zero => exact .inl trivial
  | succ n ih =>
    -- at smaller depths the reading is at the limit anyway
    have hall (hgreater : ∀ k, n ≤ k → Endless (q.outcomeOver w (w.readingsWithin k))) :
        ∀ k, Endless ((w.readingsWithin k).outcome q) := by
      intro k
      by_cases hk : k ≤ n + 1
      · exact endless_of_le (Asks.read (G := True) q) hk hend
      · obtain ⟨k, rfl⟩ : ∃ j, k = j + 1 := ⟨k - 1, by omega⟩
        rw [outcome_succ]
        exact hgreater k (by omega)
    have hasks := outcomeOver_asks (w := w) q
    rw [outcome_succ] at hend
    obtain ⟨q', hq, hend'⟩ | ⟨hG, hok⟩ := hasks.exists_endless hend
    · obtain hgoes | ⟨hG, hforever⟩ := ih (by omega) hend'
      · exact .inl ⟨q', hasks.mono (w.readingsWithin_extends_of_le (by omega)) hq, hgoes⟩
      · refine .inr ⟨hG, hall fun k hk => ?_⟩
        exact hasks.endless (hasks.mono (w.readingsWithin_extends_of_le hk) hq) (hforever k)
    · refine .inr ⟨hG, hall fun k hk => ?_⟩
      have hsame : q.outcomeOver w (w.readingsWithin k) = q.outcomeOver w (w.readingsWithin n) := by
        refine (hasks.same fun q' hq' => ?_).1
        obtain ⟨a, ha⟩ := hok q' hq'
        refine (outcome_stable hk q').resolve_left ?_
        rw [ha]
        exact not_endless_ok a
      rwa [hsame]

/-- **A reading that nests up to the limit is at the limit.** -/
theorem endless_of_goes {m : Nat} {q : Reading} (hnm : n ≤ m + 1)
    (h : Goes (w.ComesTo (w.readingsWithin m)) n q) :
    Endless ((w.readingsWithin n).outcome q) := by
  induction n generalizing q with
  | zero => exact w.outcome_zero q
  | succ n ih =>
    obtain ⟨q', hq, hgoes⟩ := h
    rw [outcome_succ]
    -- a reading that is not at the limit asks for no more at a greater depth
    obtain hend | ⟨-, hasked⟩ := stable (outcomeOver_asks (w := w) q) (show n ≤ m by omega)
    · exact hend
    · exact (outcomeOver_asks q).endless (hasked q' hq) (ih (by omega) hgoes)

/-! ## Readings that can take others -/

/-- The attributes, the custom outputs and the computed inputs of an entity. -/
def relaysOf (e : EntityId) (x : Entity) : List Handle :=
  x.attributes.map (Handle.attribute ·.2) ++ x.customOutputs.map (Handle.custom ·.2) ++
    (x.inputs.filter (·.kind.isComputed)).map (Handle.input ⟨e, ·.keyword⟩)

/-- The handles from which readings go on. -/
def relays (w : World) : List Handle :=
  w.entities.zipIdx.flatMap fun x => relaysOf ⟨x.2⟩ x.1

theorem length_relays (w : World) : w.relays.length = w.referenceCount := by
  have hcount : ∀ (entities : List Entity) (i n : Nat),
      entities.foldl (fun count x => count + x.attributes.length + x.customOutputs.length +
        (x.inputs.filter (·.kind.isComputed)).length) n =
      n + ((entities.zipIdx i).flatMap fun x => relaysOf ⟨x.2⟩ x.1).length := by
    intro entities
    induction entities with
    | nil => exact fun _ _ => rfl
    | cons x entities ih =>
      intro i n
      rw [List.foldl_cons, ih (i + 1), List.zipIdx_cons, List.flatMap_cons, List.length_append,
        relaysOf]
      simp only [List.length_append, List.length_map]
      omega
  rw [relays, referenceCount, hcount _ 0 0, Nat.zero_add]

theorem mem_relays {e : EntityId} {x : Entity} {h : Handle} (hx : w.entity? e = some x)
    (hh : h ∈ relaysOf e x) : h ∈ w.relays :=
  List.mem_flatMap.2 ⟨(x, e.index), List.mk_mem_zipIdx_iff_getElem?.2 hx, hh⟩

/-- Readings go on from a computed input. -/
theorem input_mem_relays {id : InputId} {i : Input} (hi : w.input? id = some i)
    (hcomputed : i.kind.isComputed = true) : .input id ∈ w.relays := by
  obtain ⟨x, hx, hi⟩ := Option.bind_eq_some_iff.1 hi
  have hkey := List.find?_some hi
  have hkeyword : i.keyword = id.keyword := beq_iff_eq.1 hkey
  refine mem_relays hx (List.mem_append_right _ (List.mem_map.2 ⟨i, ?_, ?_⟩))
  · exact List.mem_filter.2 ⟨List.mem_of_find?_eq_some hi, hcomputed⟩
  · rw [hkeyword]

/-- Readings go on from a definition that is found under a name. -/
theorem handle?_mem_relays {e : EntityId} {name : String} {h : Handle}
    (hh : w.handle? e name = some h) :
    h ∈ w.relays ∨ h = .output e name ∨ h = .input ⟨e, name⟩ := by
  obtain ⟨x, hx, hh⟩ := Option.bind_eq_some_iff.1 hh
  obtain hh | ⟨-, hh⟩ := Option.or_eq_some_iff.1 hh
  · obtain ⟨a, ha, rfl⟩ := Option.map_eq_some_iff.1 hh
    obtain ⟨before, behind, hsplit, -⟩ := List.lookup_eq_some_iff.1 ha
    refine .inl (mem_relays hx (List.mem_append_left _ (List.mem_append_left _ ?_)))
    rw [hsplit]
    exact List.mem_map_of_mem (List.mem_append_right _ (.head _))
  obtain hh | ⟨-, hh⟩ := Option.or_eq_some_iff.1 hh
  · obtain ⟨o, ho, rfl⟩ := Option.map_eq_some_iff.1 hh
    obtain ⟨before, behind, hsplit, -⟩ := List.lookup_eq_some_iff.1 ho
    refine .inl (mem_relays hx (List.mem_append_left _ (List.mem_append_right _ ?_)))
    rw [hsplit]
    exact List.mem_map_of_mem (List.mem_append_right _ (.head _))
  obtain hh | ⟨-, hh⟩ := Option.or_eq_some_iff.1 hh
  · obtain ⟨spec, -, rfl⟩ := Option.map_eq_some_iff.1 hh
    exact .inr (.inl rfl)
  · obtain ⟨i, -, rfl⟩ := Option.map_eq_some_iff.1 hh
    exact .inr (.inr rfl)

/-- A reading that an evaluation at the time can lead to: handles are looked up anew, at that time
or at time zero, and only unit types are asked of a handle that was found before. -/
def Arises (w : World) (t : Float) : Reading → Prop
  | .result h s | .value h s => (s = t ∨ s = 0.0) ∧ ∃ e name, w.handle? e name = some h
  | .unit _ => True

/-- The readings at a time that can take others. -/
def sources (w : World) (t : Float) : List Reading :=
  w.relays.flatMap fun h => [.result h t, .result h 0.0, .value h t, .value h 0.0, .unit h]

theorem length_sources (w : World) (t : Float) : (w.sources t).length = 5 * w.referenceCount := by
  rw [sources, List.length_flatMap, ← length_relays]
  show (w.relays.map fun _ => 5).sum = _
  rw [List.map_const', List.sum_replicate_nat, Nat.mul_comm]

section

variable {r : Readings} {s t : Float} {q q' : Reading}

theorem Arises.of_time (hs : s = t ∨ s = 0.0) (h : w.Arises s q) : w.Arises t q := by
  cases q with
  | result _ s' | value _ s' =>
    obtain ⟨rfl | rfl, hfound⟩ := h
    · exact ⟨hs, hfound⟩
    · exact ⟨.inr rfl, hfound⟩
  | unit => trivial

theorem EvaluationReads.arises {exp : Expression} {this : Option EntityId} {everywhere : Bool}
    (h : w.EvaluationReads r exp this everywhere t q) : w.Arises t q := by
  obtain ⟨e, name, h, hh, rfl⟩ := Expr.exists_of_reads _ h
  exact ⟨.inl rfl, e, name, hh⟩

/-- A chain goes on to handles that are looked up. -/
theorem found_of_chainStep {h : Option Handle} {name : String} {k : Handle}
    (hk : w.chainStep r t h name = .ok (some k)) : ∃ e name, w.handle? e name = some k := by
  cases h with
  | none => cases hk
  | some h =>
    obtain ⟨x, -, hx⟩ := bind_eq_ok.1 hk
    split at hx
    · next e => exact ⟨e, name, Except.ok.inj hx⟩
    · cases hx

theorem found_of_hops {h : Option Handle}
    (hfound : ∀ k, h = some k → ∃ e name, w.handle? e name = some k) {names : List String}
    {k : Handle} (hk : names.foldlM (w.chainStep r t) h = .ok (some k)) :
    ∃ e name, w.handle? e name = some k := by
  induction names generalizing h with
  | nil => exact hfound k (Except.ok.inj hk)
  | cons name names ih =>
    rw [List.foldlM_cons] at hk
    obtain ⟨h', hstep, hk⟩ := bind_eq_ok.1 hk
    refine ih (fun k hk => ?_) hk
    subst hk
    exact found_of_chainStep hstep

theorem HopsRead.arises {h : Option Handle}
    (hfound : ∀ k, h = some k → ∃ e name, w.handle? e name = some k) {names : List String}
    (hq : w.HopsRead r t q h names) : w.Arises t q := by
  induction names generalizing h with
  | nil => cases h <;> exact hq.elim
  | cons name names ih =>
    cases h with
    | none => exact hq.elim
    | some h =>
      obtain rfl | ⟨h', hstep, hq⟩ := hq
      · exact ⟨.inl rfl, hfound h rfl⟩
      · refine ih (fun k hk => ?_) hq
        subst hk
        exact found_of_chainStep hstep

theorem ChainReads.arises {c : OutputChain} {last : Handle → Reading}
    (hlast : ∀ h e name, w.handle? e name = some h → w.Arises t (last h))
    (hq : w.ChainReads r c t last q) : w.Arises t q := by
  have hfirst : ∀ k, w.handle? c.root c.firstName = some k →
      ∃ e name, w.handle? e name = some k := fun k hk => ⟨_, _, hk⟩
  obtain hq | ⟨h, hend, rfl⟩ := hq
  · exact hq.arises hfirst
  · obtain ⟨e, name, hh⟩ := found_of_hops hfirst hend
    exact hlast h e name hh

theorem InputReads.arises {kind : InputKind} {v : Value} (hq : w.InputReads r t q kind v) :
    w.Arises t q := by
  unfold InputReads at hq
  split at hq
  · refine ChainReads.arises ?_ hq
    exact fun h e name hh => ⟨.inl rfl, e, name, hh⟩
  · obtain ⟨sampler, -, hq⟩ := hq
    cases sampler with
    | constant => exact hq.elim
    | expression => exact EvaluationReads.arises hq
    | chain =>
      refine ChainReads.arises ?_ hq
      exact fun h e name hh => ⟨.inl rfl, e, name, hh⟩
  · next p =>
    cases p with
    | constant => exact hq.elim
    | expression => exact EvaluationReads.arises hq
  · exact hq.elim

theorem UnitReads.arises {h : Handle} (hq : w.UnitReads r q h) : w.Arises 0.0 q := by
  match h with
  | .output .. | .attribute _ | .custom _ => exact hq.elim
  | .input id =>
    obtain ⟨i, v, -, -, hq⟩ := hq
    unfold InputUnitReads at hq
    split at hq
    · unfold ChainUnitReads at hq
      split at hq
      · rw [hq]
        trivial
      · refine ChainReads.arises ?_ hq
        exact fun _ _ _ _ => trivial
    · exact hq.elim

theorem ValueReads.arises {h : Handle} (hq : w.ValueReads r t q h) : w.Arises t q := by
  match h with
  | .output .. => exact hq.elim
  | .attribute a =>
    obtain ⟨x, exp, -, -, -, hq⟩ := hq
    exact hq.arises
  | .custom o => exact EvaluationReads.arises hq
  | .input id =>
    obtain ⟨i, v, -, -, hq⟩ := hq
    exact hq.arises

/-- What a reading leads to arises at the same time. -/
theorem ComesTo.arises (h : w.ComesTo r q q') (hq : w.Arises t q) : w.Arises t q' := by
  cases q with
  | result k s =>
    obtain h | ⟨-, h⟩ := h
    · exact h.arises.of_time hq.1
    · exact h.arises.of_time (.inr rfl)
  | value k s => exact ValueReads.arises h |>.of_time hq.1
  | unit k => exact UnitReads.arises h |>.of_time (.inr rfl)

theorem InputReads.isComputed {kind : InputKind} {v : Value} (hq : w.InputReads r t q kind v) :
    kind.isComputed = true := by
  unfold InputReads at hq
  split at hq
  · rfl
  · rfl
  · rfl
  · exact hq.elim

theorem InputUnitReads.isComputed {kind : InputKind} {v : Value}
    (hq : w.InputUnitReads r q kind v) : kind.isComputed = true := by
  unfold InputUnitReads at hq
  split at hq
  · rfl
  · exact hq.elim

/-- Readings go on from no other handles. -/
theorem ValueReads.mem_relays {h : Handle} (hq : w.ValueReads r t q h)
    (hfound : ∃ e name, w.handle? e name = some h) : h ∈ w.relays := by
  obtain ⟨e, name, hh⟩ := hfound
  obtain hmem | rfl | rfl := handle?_mem_relays hh
  · exact hmem
  · exact hq.elim
  · obtain ⟨i, v, hi, -, hq⟩ := hq
    exact input_mem_relays hi hq.isComputed

theorem UnitReads.mem_relays {h : Handle} (hq : w.UnitReads r q h) : h ∈ w.relays := by
  match h with
  | .output .. | .attribute _ | .custom _ => exact hq.elim
  | .input id =>
    obtain ⟨i, v, hi, -, hq⟩ := hq
    exact input_mem_relays hi hq.isComputed

theorem ComesTo.mem_sources (h : w.ComesTo r q q') (hq : w.Arises t q) : q ∈ w.sources t := by
  have hmem (hrelay : q.handle ∈ w.relays) : q ∈ w.sources t := by
    refine List.mem_flatMap.2 ⟨q.handle, hrelay, ?_⟩
    cases q with
    | result k s | value k s =>
      obtain ⟨rfl | rfl, -⟩ := hq <;> simp [Reading.handle]
    | unit k => simp [Reading.handle]
  cases q with
  | result k s =>
    obtain h | ⟨-, h⟩ := h
    · exact hmem (h.mem_relays hq.2)
    · exact hmem h.mem_relays
  | value k s => exact hmem (ValueReads.mem_relays h hq.2)
  | unit k => exact hmem (UnitReads.mem_relays h)

end

/-! ## Cycles -/

/-- **Different readings nest only so deep.** -/
theorem length_nesting_le {r : Readings} {t : Float} {q : Reading} {qs : List Reading}
    (hq : w.Arises t q) (hchain : List.IsChain (w.ComesTo r) (q :: qs))
    (hnodup : (q :: qs).Nodup) : (q :: qs).length ≤ 5 * w.referenceCount + 1 := by
  -- all but the last one take others
  have hsources : ∀ {q} qs, w.Arises t q → List.IsChain (w.ComesTo r) (q :: qs) →
      (q :: qs).dropLast ⊆ w.sources t := by
    intro q qs
    induction qs generalizing q with
    | nil => exact fun _ _ => List.nil_subset _
    | cons q' qs ih =>
      intro hq hchain
      obtain ⟨hstep, hrest⟩ := List.isChain_cons_cons.1 hchain
      rw [List.dropLast_cons_cons, List.cons_subset]
      exact ⟨hstep.mem_sources hq, ih (hstep.arises hq) hrest⟩
  have hle := (List.subperm_of_subset (hnodup.sublist (List.dropLast_sublist _))
    (hsources qs hq hchain)).length_le
  rw [List.length_dropLast, length_sources] at hle
  omega

/-- **At a great depth a reading at the limit comes to a reading that comes back to itself**, unless
the output of a class refers back to itself at every depth. -/
theorem exists_cycle_of_endless {t : Float} {q : Reading} (hq : w.Arises t q)
    (hn : 5 * w.referenceCount < n) (hnk : n ≤ k + 1)
    (hend : Endless ((w.readingsWithin n).outcome q)) :
    (∃ q', ReflTransGen (w.ComesTo (w.readingsWithin k)) q q' ∧
        TransGen (w.ComesTo (w.readingsWithin k)) q' q') ∨
      ¬ w.GettersPlain ∧ ∀ k, Endless ((w.readingsWithin k).outcome q) := by
  refine (goes_of_endless hnk hend).imp_left fun hgoes => ?_
  obtain ⟨qs, hchain, hlength⟩ := hgoes.exists_chain
  refine (cycle_or_nodup hchain).resolve_right fun hnodup => ?_
  have hle := length_nesting_le hq hchain hnodup
  rw [List.length_cons, hlength] at hle
  omega

/-- **A reading that comes to one that comes back to itself is at the limit** of every depth. -/
theorem endless_of_cycle {q q' : Reading} (hq : ReflTransGen (w.ComesTo (w.readingsWithin k)) q q')
    (hcycle : TransGen (w.ComesTo (w.readingsWithin k)) q' q') (n : Nat) :
    Endless ((w.readingsWithin n).outcome q) := by
  have hgoes : Goes (w.ComesTo (w.readingsWithin (max n k))) (max n k) q := by
    refine (goes_of_cycle hq hcycle _).mono fun a b hab => ?_
    exact (outcomeOver_asks a).mono (w.readingsWithin_extends_of_le (Nat.le_max_right n k)) hab
  exact endless_of_le (Asks.read (G := True) q) (Nat.le_max_left n k)
    (endless_of_goes (Nat.le_succ _) hgoes)

/-- A reading at the limit of a great depth is at the limit of every depth. -/
theorem endless_forever {t : Float} {q : Reading} (hq : w.Arises t q)
    (hn : 5 * w.referenceCount < n) (hend : Endless ((w.readingsWithin n).outcome q)) (k : Nat) :
    Endless ((w.readingsWithin k).outcome q) := by
  obtain ⟨q', hqq', hcycle⟩ | ⟨-, hforever⟩ := exists_cycle_of_endless hq hn (Nat.le_succ n) hend
  · exact endless_of_cycle hqq' hcycle k
  · exact hforever k

end World

end ModelInputs
