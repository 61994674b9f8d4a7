import Patchboard.Board.Basic

/-!
# What belongs to a function

A function owns the nodes that lie in its rectangle, the edges included. Functions own no functions.
Membership is never stored: moving a node is enough to change it. The parameters of a function are
those in its rectangle, from left to right.
-/

namespace Patchboard

/-- A node lies in the rectangle of the given size centred at `f`. -/
def Node.within (n f : Node) (width height : Binary64) : Bool :=
  (f.x.sub width.half).le n.x && n.x.le (f.x.add width.half)
    && (f.y.sub height.half).le n.y && n.y.le (f.y.add height.half)

/-- A node belongs to the function `f`. -/
def Node.belongsTo (n f : Node) : Bool :=
  match f.kind with
  | .functionDeclaration _ width height => !n.kind.isFunction && n.within f width height
  | _ => false

namespace Board

/-- The nodes that belong to `f`, in the order of the board. -/
def scope (b : Board) (f : Node) : List Node :=
  b.nodes.filter fun n => n.belongsTo f

/-- The functions on the board, in order. -/
def functions (b : Board) : List Node :=
  b.nodes.filter fun n => n.kind.isFunction

end Board

/-- The parameters among some nodes, from left to right in the total order of positions. Parameters
at one position keep their order. -/
def parametersOf (ns : List Node) : List Node :=
  (ns.filter fun n => n.kind.isParameter).mergeSort fun a b => a.x.totalLe b.x

/-- The nodes of a scope are nodes of the board. -/
theorem Board.mem_of_mem_scope {b : Board} {f n : Node} (h : n ∈ b.scope f) :
  n ∈ b.nodes
  := (List.mem_filter.1 h).1

/-- No function belongs to a function. -/
theorem Node.not_isFunction_of_belongsTo {n f : Node} (h : n.belongsTo f = true) :
  n.kind.isFunction = false
  := by
  unfold belongsTo at h
  split at h <;> simp_all

end Patchboard
