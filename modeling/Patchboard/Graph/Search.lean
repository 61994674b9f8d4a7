import Patchboard.Node.Id

/-!
# Depth-first search

A graph says where the edges of each node lead. A search enters a node, then everything that can be
entered from it, and then leaves it. Nothing is entered twice. The nodes in the order in which they
are entered are what the start leads to; the order in which they are left puts a node behind
everything that it leads to, as far as there are no cycles.
-/

namespace Patchboard

/-- A finite graph. -/
structure Graph where
  nodes : List NodeId
  /-- Where the edges of a node lead, in order. -/
  next : NodeId → List NodeId

namespace Graph

/-- How far a search has come. -/
structure Search where
  /-- The nodes that were entered, in order. -/
  entered : List NodeId
  /-- The nodes that were left, in order. -/
  left : List NodeId

/-- Nothing has been entered. -/
def Search.start : Search :=
  ⟨[], []⟩

/-- Enters a node, unless it was entered before, then whatever its edges lead to, and leaves it. At
most `depth` nodes are entered within each other. -/
def visit (g : Graph) : (depth : Nat) → Search → NodeId → Search
  | 0, s, _ => s
  | depth + 1, s, v =>
    if v ∈ s.entered then s
    else
      let inner := (g.next v).foldl (g.visit depth) { s with entered := s.entered ++ [v] }
      { inner with left := inner.left ++ [v] }

/-- Visits some nodes, one after the other. No more nodes than there are can be entered within each
other. -/
def search (g : Graph) (starts : List NodeId) : Search :=
  starts.foldl (g.visit g.nodes.length) .start

/-- The nodes that a node leads to, itself included, in the order of a search. -/
def reach (g : Graph) (v : NodeId) : List NodeId :=
  (g.search [v]).entered

/-- The nodes entered and not yet left are the same before and after a visit. -/
theorem perm_visit (g : Graph) (depth : Nat) (s : Search) (v : NodeId) {opened : List NodeId}
    (h : s.entered.Perm (s.left ++ opened)) :
  (g.visit depth s v).entered.Perm ((g.visit depth s v).left ++ opened)
  := by
  induction depth generalizing s v opened with
  | zero => exact h
  | succ depth ih =>
    unfold visit
    split
    · exact h
    · have inner : ∀ (ws : List NodeId) (s : Search) (opened : List NodeId),
          s.entered.Perm (s.left ++ opened) →
          (ws.foldl (g.visit depth) s).entered.Perm
            ((ws.foldl (g.visit depth) s).left ++ opened) := by
        intro ws
        induction ws with
        | nil => exact fun _ _ h => h
        | cons w ws ihws => exact fun s opened h => ihws _ _ (ih s w h)
      have entering : (s.entered ++ [v]).Perm (s.left ++ ([v] ++ opened)) :=
        (h.append_right [v]).trans <| by
          rw [List.append_assoc]
          exact List.perm_append_comm.append_left _
      simpa [List.append_assoc] using
        inner (g.next v) { s with entered := s.entered ++ [v] } _ entering

end Graph

end Patchboard
