import ModelInputs.Proofs.Runs

/-!
# Killing an entity at any time

However a model has come about, an entity that is killed is gone for all inputs of the entities that
stay, and the inputs that are reported are exactly those that referred to it.

* **`World.kill_exact`**: killing removes exactly the references to an entity, and reports them.
-/

namespace ModelInputs

namespace World

/-- **Killing an entity removes exactly the references to it and reports exactly them**: in every
world that is reached, an entity that is registered leaves the registry, the inputs of the entities
that stay let go of it while all other items of their lists keep their order, inputs that did not
refer to it are as they were, and what is reported are the inputs that did, each once, in the order
of the registry. -/
theorem kill_exact {p : Palette} (hp : p.IsPlain) {w : World} (hw : Reached p w) {e : EntityId}
    (he : e ∈ w.registered) :
    ∃ changed, (w.kill e).result = .ok changed ∧ w.Killed e (w.kill e).world changed :=
  ((hw.wellFormed hp).kill he).2

/-- A palette of one class, whose entities have a next one and peers. -/
def nodes : Palette where
  classes := [{
    name := "Node"
    parents := ["Entity"]
    inputs := [
      .make "Next" "Options" (.entity (.named "Entity")),
      .make "Peers" "Options" (.entities (.named "Entity") true {})] }]

/-- A node. -/
def oneNode : World where
  palette := nodes
  entities := [{ name := "A", className := "Node", inNamespace := true, inputs := nodes.inputs "Node" }]
  registry := [("A", ⟨0⟩)]

/-- Two nodes. -/
def twoNodes : World where
  palette := nodes
  entities := [
    { name := "A", className := "Node", inNamespace := true, inputs := nodes.inputs "Node" },
    { name := "B", className := "Node", inNamespace := true, inputs := nodes.inputs "Node" }]
  registry := [("A", ⟨0⟩), ("B", ⟨1⟩)]

/-- The keywords that make the second node the next one of the first, and both peers. -/
def links : List Arguments :=
  [{ keyword := "Next", args := ["B"], balanced := by decide },
    { keyword := "Peers", args := ["B", "A"], balanced := by decide }]

/-- Two nodes, of which the first refers to the second. -/
def linkedNodes : World :=
  (twoNodes.applyItems ⟨0⟩ [] [] links).world

theorem nodes_isPlain : nodes.IsPlain := by
  refine .of_classes fun c hc => ?_
  rw [List.mem_singleton.1 hc]
  refine ⟨by decide, fun i hi => ?_⟩
  obtain rfl | hi := List.mem_cons.1 hi
  · exact Input.isNew_make _ _ rfl rfl
  · rw [List.mem_singleton.1 hi]
    exact Input.isNew_make _ _ rfl rfl

theorem linkedNodes_reached : Reached nodes linkedNodes := by
  have hfirst : Step { palette := nodes } oneNode := by
    have h : create? { palette := nodes } "Node" "A" = .ok (oneNode, ⟨0⟩) := rfl
    exact .create h
  have hsecond : Step oneNode twoNodes := by
    have h : oneNode.create? "Node" "B" = .ok (twoNodes, ⟨1⟩) := rfl
    exact .create h
  exact ⟨{}, false, .tail (.tail (.tail .refl hfirst) hsecond) .apply⟩

theorem kill_exact_linkedNodes :
    (linkedNodes.kill ⟨1⟩).result = .ok [⟨⟨0⟩, "Next"⟩, ⟨⟨0⟩, "Peers"⟩] ∧
      linkedNodes.Killed ⟨1⟩ (linkedNodes.kill ⟨1⟩).world [⟨⟨0⟩, "Next"⟩, ⟨⟨0⟩, "Peers"⟩] := by
  have hresult : (linkedNodes.kill ⟨1⟩).result = .ok [⟨⟨0⟩, "Next"⟩, ⟨⟨0⟩, "Peers"⟩] := rfl
  have hregistered : linkedNodes.registered = [⟨0⟩, ⟨1⟩] := rfl
  obtain ⟨changed, hchanged, hkilled⟩ := kill_exact nodes_isPlain linkedNodes_reached
    (e := ⟨1⟩) (hregistered ▸ .tail _ (.head _))
  rw [hresult] at hchanged
  obtain rfl := Except.ok.inj hchanged
  exact ⟨hresult, hkilled⟩

end World

end ModelInputs
