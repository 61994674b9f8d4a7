import Patchboard.Board.Scope
import Patchboard.Compile.Lowering
import Patchboard.Source.Writer

/-!
# From boards to programs

A function on the board compiles to a function of the program, or to the one diagnostic that stops
it. A board compiles when all its functions do, and otherwise to the diagnostics of those that do
not.
-/

namespace Patchboard

/-- The parameter that a node declares; none if the node is no parameter. -/
def Node.param? (n : Node) : Option (Except Diagnostic Param) :=
  match n.kind with
  | .parameter name type array _ =>
    some ((ValueType.required n.id type array).map fun type => ⟨name, type⟩)
  | _ => none

/-- The type that a return declares. -/
def Node.returnType (n : Node) : Except Diagnostic (Option ValueType) :=
  match n.kind with
  | .returnStatement type array _ => ValueType.declared n.id type array
  | _ => .ok none

/-- The only one of the returns that belong to a function. -/
def soleReturn (function : NodeId) : List Node → Except Diagnostic Node
  | [] => .error (.missingReturn function)
  | [n] => .ok n
  | ns => .error (.multipleReturns function (ns.map Node.id))

namespace Board

/-- The function that a node declares. -/
def compileFunction (b : Board) (f : Node) : Except Diagnostic Function :=
  match f.kind with
  | .functionDeclaration name _ _ => do
    let scope := b.scope f
    let params ← ((parametersOf scope).filterMap Node.param?).mapM id
    let ret ← soleReturn f.id (scope.filter fun n => n.kind.isReturn)
    let returnType ← ret.returnType
    let body ← b.body f.id ret
    return ⟨name, params, returnType, body⟩
  | _ => .error (.notAFunction f.id)

/-- What each function of the board compiles to, in the order of the board. -/
def compiledFunctions (b : Board) : List (Except Diagnostic Function) :=
  b.functions.map b.compileFunction

/-- The diagnostics among some results. -/
def diagnosticsOf (results : List (Except Diagnostic Function)) : List Diagnostic :=
  results.filterMap fun
    | .error d => some d
    | .ok _ => none

/-- The functions among some results. -/
def functionsOf (results : List (Except Diagnostic Function)) : List Function :=
  results.filterMap fun
    | .error _ => none
    | .ok f => some f

/-- The program of the board, or the diagnostics of all functions that do not compile. -/
def compile (b : Board) : Except (List Diagnostic) Program :=
  let results := b.compiledFunctions
  let diagnostics := diagnosticsOf results
  if diagnostics.isEmpty then .ok ⟨functionsOf results⟩ else .error diagnostics

/-- The source text of the board. -/
def source (b : Board) (options : SourceOptions) : Except (List Diagnostic) String :=
  b.compile.map fun p => p.source options

/-- The first function of a name, in the order of the board. -/
def functionNamed? (b : Board) (name : String) : Option Node :=
  b.functions.find? fun f =>
    match f.kind with
    | .functionDeclaration n _ _ => n == name
    | _ => false

end Board

end Patchboard
