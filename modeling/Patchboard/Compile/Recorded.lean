import Patchboard.Compile.Lowering

/-!
# Writing on the record

A function as it is written from the counted uses, with every state of the uses put on record. A slot is
recorded when it is written, if it is fed by a binding; and a binding when it is declared. The record is kept
when the writing is stopped.
-/

namespace Patchboard

/-- A moment while a function is written. -/
structure Moment where
  uses : Uses
  /-- The wires from bindings to slots that have been written, the last one first, as often as they were. -/
  written : List Wire

/-- What has been put on record. -/
structure Record where
  now : Moment
  /-- The moments that have passed, the last one first. -/
  past : List Moment

/-- Steps that write a part of a function and put on record what they do. What stops them does not undo what
they have done. -/
abbrev Recorded :=
  ExceptT Diagnostic (StateM Record)

namespace Moment

/-- A slot that is fed by a binding has been written. -/
def use (m : Moment) (w : Wire) : Moment where
  uses := m.uses.consume w.consumer w.slot w.producer
  written := w :: m.written

/-- A binding has been declared. -/
def declare (m : Moment) (binding : NodeId) : Moment :=
  { m with uses := m.uses.declare binding }

end Moment

namespace Record

/-- Nothing has been written, and these are the uses that have been counted. -/
def start (counted : List (NodeId × Nat)) : Record :=
  ⟨⟨⟨counted, []⟩, []⟩, []⟩

/-- All moments, the last one first. -/
def moments (x : Record) : List Moment :=
  x.now :: x.past

/-- Another moment has come. -/
def next (x : Record) (m : Moment) : Record :=
  ⟨m, x.moments⟩

end Record

namespace Recorded

/-- How the steps come out from a record, and the record that they leave behind. -/
def runFrom {α : Type} (steps : Recorded α) (x : Record) : Except Diagnostic α × Record :=
  (steps.run.run x).run

instance : MonadUses Recorded where
  uses := return (← get).now.uses
  use w := modify fun x => x.next (x.now.use w)
  declare id := modify fun x => x.next (x.now.declare id)

end Recorded

end Patchboard
