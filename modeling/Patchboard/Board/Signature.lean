import Patchboard.Board.Scope

/-!
# Signatures

A signature is a function's name with its parameters and their types, as the nodes spell them. It is
there for every function of a board, whether the function compiles or not.
-/

namespace Patchboard

/-- A parameter with its type, as its node spells them; none if the node is no parameter. -/
def Node.parameterText? (n : Node) : Option String :=
  match n.kind with
  | .parameter name type array _ => some (name ++ ": " ++ type ++ if array then "[]" else "")
  | _ => none

namespace Board

/-- The signature of a function; none if the node is no function. -/
def signature? (b : Board) (f : Node) : Option String :=
  match f.kind with
  | .functionDeclaration name _ _ =>
    let params := (parametersOf (b.scope f)).filterMap Node.parameterText?
    some (name ++ "(" ++ String.intercalate ", " params ++ ")")
  | _ => none

/-- The signatures of the functions on the board, in order. -/
def signatures (b : Board) : List String :=
  b.functions.filterMap b.signature?

end Board

end Patchboard
