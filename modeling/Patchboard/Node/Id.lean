/-!
# Node ids

A node is known by an id of 32 bits. An input slot holds the id of the node that feeds it, or
nothing.
-/

namespace Patchboard

/-- The id of a node. -/
structure NodeId where
  /-- The id as a word. -/
  val : UInt32
deriving DecidableEq, Hashable, Inhabited

namespace NodeId

/-- Ids are ordered as words. -/
def le (a b : NodeId) : Bool :=
  a.val ≤ b.val

/-- The decimal text of an id. -/
def text (id : NodeId) : String :=
  toString id.val.toNat

end NodeId

/-- An input slot, or a record of one consumer: an id or nothing. -/
abbrev Slot := Option NodeId

end Patchboard
