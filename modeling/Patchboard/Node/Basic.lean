import Patchboard.Node.Kind

/-!
# Nodes

A node has an id, a position on the board and a payload. The position matters for the function the
node belongs to and for the order of parameters, and for nothing else.
-/

namespace Patchboard

/-- A node on the board. -/
structure Node where
  id : NodeId
  x : Binary64
  y : Binary64
  kind : Kind
deriving DecidableEq

/-- A node of a kind as the palette gives it. -/
def Node.fresh (tag : Tag) (id : NodeId) (x y : Binary64) : Node :=
  ⟨id, x, y, Kind.fresh tag⟩

end Patchboard
