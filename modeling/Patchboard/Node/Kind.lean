import Patchboard.Binary64
import Patchboard.Node.Id
import Patchboard.Node.Tag

/-!
# Node kinds

The payload of a node, with its ends of the wires. A node that takes values has input slots, each of
which names the node that feeds it. A node that gives a value records its consumers: one that fans
out has a list of them, one entry for each slot it feeds, and any other has at most one. A function
records none.

Wires are changed by two operations, `mapInputs` on the input slots and `mapConsumers` on the
recorded consumers. Every other change of wires is one of these.
-/

namespace Patchboard

/-- A named value: one input slot and any number of consumers. -/
structure Binding where
  name : String
  /-- The type token. -/
  type : String
  array : Bool
  /-- The slot of the value that is named. -/
  input : Slot
  /-- The consumers, one entry for each slot that is fed. -/
  outputs : List NodeId
deriving DecidableEq

/-- Access to a part of an object. -/
structure Access where
  object : Slot
  key : Slot
  output : Slot
deriving DecidableEq

/-- The payload of a node. -/
inductive Kind where
  /-- A container: its rectangle is centred at the node and holds the nodes of one function. -/
  | functionDeclaration (name : String) (width height : Binary64)
  | parameter (name type : String) (array : Bool) (outputs : List NodeId)
  | identifier (binding : Binding)
  | variableStatement (binding : Binding)
  | functionReference (function output : Slot)
  | numericLiteral (value : Binary64) (output : Slot)
  | stringLiteral (value : String) (output : Slot)
  | binaryExpression (operator : String) (left right output : Slot)
  | conditionalExpression (condition whenTrue whenFalse output : Slot)
  /-- The callee and then the arguments. This kind alone gains slots. -/
  | callExpression (inputs : List Slot) (output : Slot)
  | elementAccess (access : Access)
  | propertyAccess (access : Access)
  | returnStatement (type : String) (array : Bool) (value : Slot)
deriving DecidableEq

namespace Kind

/-- The kind without its payload. -/
def tag : Kind → Tag
  | functionDeclaration .. => .functionDeclaration
  | parameter .. => .parameter
  | identifier .. => .identifier
  | variableStatement .. => .variableStatement
  | functionReference .. => .functionReference
  | numericLiteral .. => .numericLiteral
  | stringLiteral .. => .stringLiteral
  | binaryExpression .. => .binaryExpression
  | conditionalExpression .. => .conditionalExpression
  | callExpression .. => .callExpression
  | elementAccess .. => .elementAccess
  | propertyAccess .. => .propertyAccess
  | returnStatement .. => .returnStatement

/-! ## Classes of kinds -/

/-- The node is a function. -/
def isFunction : Kind → Bool
  | functionDeclaration .. => true
  | _ => false

/-- The node's value may feed any number of slots. -/
def isFanOut : Kind → Bool
  | parameter .. | identifier _ | variableStatement _ => true
  | _ => false

/-- The node's value feeds at most one node. -/
def isSingleOutput : Kind → Bool
  | functionReference .. | numericLiteral .. | stringLiteral .. | binaryExpression .. => true
  | conditionalExpression .. | callExpression .. | elementAccess _ | propertyAccess _ => true
  | _ => false

/-- The node is of a kind that takes values. -/
def hasInputs : Kind → Bool
  | functionDeclaration .. | parameter .. | numericLiteral .. | stringLiteral .. => false
  | _ => true

/-- The node names a value, which becomes a declaration of its own. -/
def isBinding : Kind → Bool
  | identifier _ | variableStatement _ => true
  | _ => false

/-- The node is a parameter. -/
def isParameter : Kind → Bool
  | parameter .. => true
  | _ => false

/-- The node ends a function. -/
def isReturn : Kind → Bool
  | returnStatement .. => true
  | _ => false

/-- The node gives a value. -/
def producesValue (k : Kind) : Bool :=
  k.isFanOut || k.isSingleOutput

/-! ## Views of the wires -/

/-- The input slots, in order. -/
def inputs : Kind → List Slot
  | identifier b | variableStatement b => [b.input]
  | functionReference function _ => [function]
  | binaryExpression _ left right _ => [left, right]
  | conditionalExpression condition whenTrue whenFalse _ => [condition, whenTrue, whenFalse]
  | callExpression inputs _ => inputs
  | elementAccess a | propertyAccess a => [a.object, a.key]
  | returnStatement _ _ value => [value]
  | _ => []

/-- The node that feeds a slot; none if the slot is empty or not there. -/
def input (k : Kind) (slot : Nat) : Slot :=
  k.inputs[slot]?.join

/-- The single consumer, of a kind that has at most one. -/
def output : Kind → Slot
  | functionReference _ output | numericLiteral _ output | stringLiteral _ output => output
  | binaryExpression _ _ _ output | conditionalExpression _ _ _ output => output
  | callExpression _ output => output
  | elementAccess a | propertyAccess a => a.output
  | _ => none

/-- The list of consumers, of a kind that fans out. -/
def outputs : Kind → List NodeId
  | parameter _ _ _ outputs => outputs
  | identifier b | variableStatement b => b.outputs
  | _ => []

/-- All recorded consumers. -/
def consumers (k : Kind) : List NodeId :=
  k.output.toList ++ k.outputs

/-- A node of kind `consumer` takes a node of kind `producer` in a slot. A function may be wired to
a reference, or to the first slot of a call while that is free; a reference takes nothing else. Any
other value may be wired to a slot that is there, and to any slot of a call, because a call gains
slots. -/
def accepts (consumer : Kind) (slot : Nat) (producer : Kind) : Bool :=
  match consumer with
  | functionReference .. => slot == 0 && producer.isFunction
  | callExpression inputs _ =>
    if producer.isFunction then slot == 0 && (inputs[0]?.join).isNone else producer.producesValue
  | k => k.hasInputs && slot < k.inputs.length && producer.producesValue

/-! ## Changes of the wires -/

/-- Changes every input slot, given its index and content. -/
def mapInputs (f : Nat → Slot → Slot) : Kind → Kind
  | identifier b => identifier { b with input := f 0 b.input }
  | variableStatement b => variableStatement { b with input := f 0 b.input }
  | functionReference function output => functionReference (f 0 function) output
  | binaryExpression op left right output => binaryExpression op (f 0 left) (f 1 right) output
  | conditionalExpression condition whenTrue whenFalse output =>
    conditionalExpression (f 0 condition) (f 1 whenTrue) (f 2 whenFalse) output
  | callExpression inputs output => callExpression (inputs.mapIdx f) output
  | elementAccess a => elementAccess { a with object := f 0 a.object, key := f 1 a.key }
  | propertyAccess a => propertyAccess { a with object := f 0 a.object, key := f 1 a.key }
  | returnStatement type array value => returnStatement type array (f 0 value)
  | k => k

/-- Changes the recorded consumers: by `many` where the node fans out, and by `one` where it has at
most one consumer. -/
def mapConsumers (many : List NodeId → List NodeId) (one : Slot → Slot) : Kind → Kind
  | parameter name type array outputs => parameter name type array (many outputs)
  | identifier b => identifier { b with outputs := many b.outputs }
  | variableStatement b => variableStatement { b with outputs := many b.outputs }
  | functionReference function output => functionReference function (one output)
  | numericLiteral value output => numericLiteral value (one output)
  | stringLiteral value output => stringLiteral value (one output)
  | binaryExpression op left right output => binaryExpression op left right (one output)
  | conditionalExpression condition whenTrue whenFalse output =>
    conditionalExpression condition whenTrue whenFalse (one output)
  | callExpression inputs output => callExpression inputs (one output)
  | elementAccess a => elementAccess { a with output := one a.output }
  | propertyAccess a => propertyAccess { a with output := one a.output }
  | k => k

/-- Writes one input slot, if it is there. -/
def setInput (slot : Nat) (content : Slot) : Kind → Kind :=
  mapInputs fun i s => if i = slot then content else s

/-- Empties every input slot that holds `producer`. -/
def clearInputsFrom (producer : NodeId) : Kind → Kind :=
  mapInputs fun _ s => if s = some producer then none else s

/-- Appends an input slot that holds `producer`. Only calls gain slots. -/
def pushInput (producer : NodeId) : Kind → Kind
  | callExpression inputs output => callExpression (inputs ++ [some producer]) output
  | k => k

/-- Records one more consumer, or the consumer in place of the one before. -/
def addConsumer (consumer : NodeId) : Kind → Kind :=
  mapConsumers (· ++ [consumer]) fun _ => some consumer

/-- Forgets one entry of a consumer, where there is a list, and otherwise the consumer. -/
def releaseOnce (consumer : NodeId) : Kind → Kind :=
  mapConsumers (·.erase consumer) fun s => if s = some consumer then none else s

/-- Forgets a consumer altogether. -/
def release (consumer : NodeId) : Kind → Kind :=
  mapConsumers (·.filter (· ≠ consumer)) fun s => if s = some consumer then none else s

/-! ## Laws of the changes -/

/-- What a change of the input slots does to their view. -/
@[simp]
theorem inputs_mapInputs (f : Nat → Slot → Slot) (k : Kind) :
  (k.mapInputs f).inputs = k.inputs.mapIdx f
  := by
  cases k <;> rfl

/-- A change of the input slots leaves the single consumer alone. -/
@[simp]
theorem output_mapInputs (f : Nat → Slot → Slot) (k : Kind) :
  (k.mapInputs f).output = k.output
  := by
  cases k <;> rfl

/-- A change of the input slots leaves the list of consumers alone. -/
@[simp]
theorem outputs_mapInputs (f : Nat → Slot → Slot) (k : Kind) :
  (k.mapInputs f).outputs = k.outputs
  := by
  cases k <;> rfl

/-- A change of the input slots keeps the kind. -/
@[simp]
theorem tag_mapInputs (f : Nat → Slot → Slot) (k : Kind) :
  (k.mapInputs f).tag = k.tag
  := by
  cases k <;> rfl

/-- A change of the consumers leaves the input slots alone. -/
@[simp]
theorem inputs_mapConsumers (many : List NodeId → List NodeId) (one : Slot → Slot) (k : Kind) :
  (k.mapConsumers many one).inputs = k.inputs
  := by
  cases k <;> rfl

/-- What a change of the consumers does to the single consumer. -/
@[simp]
theorem output_mapConsumers (many : List NodeId → List NodeId) (one : Slot → Slot) (k : Kind) :
  (k.mapConsumers many one).output = if k.isSingleOutput then one k.output else none
  := by
  cases k <;> rfl

/-- What a change of the consumers does to their list. -/
@[simp]
theorem outputs_mapConsumers (many : List NodeId → List NodeId) (one : Slot → Slot) (k : Kind) :
  (k.mapConsumers many one).outputs = if k.isFanOut then many k.outputs else []
  := by
  cases k <;> rfl

/-- A change of the consumers keeps the kind. -/
@[simp]
theorem tag_mapConsumers (many : List NodeId → List NodeId) (one : Slot → Slot) (k : Kind) :
  (k.mapConsumers many one).tag = k.tag
  := by
  cases k <;> rfl

/-! ## Fresh kinds -/

/-- The payload that a kind has when it is placed from the palette. -/
def fresh : Tag → Kind
  | .functionDeclaration => functionDeclaration "f1" (.ofNat 16) (.ofNat 8)
  | .parameter => parameter "p1" "number" false []
  | .identifier => identifier ⟨"i1", "infer", false, none, []⟩
  | .variableStatement => variableStatement ⟨"v1", "number", false, none, []⟩
  | .functionReference => functionReference none none
  | .numericLiteral => numericLiteral (.ofNat 1) none
  | .stringLiteral => stringLiteral "" none
  | .binaryExpression => binaryExpression "+" none none none
  | .conditionalExpression => conditionalExpression none none none none
  | .callExpression => callExpression [none] none
  | .elementAccess => elementAccess ⟨none, none, none⟩
  | .propertyAccess => propertyAccess ⟨none, none, none⟩
  | .returnStatement => returnStatement "infer" false none

/-- A fresh payload is of its kind. -/
theorem tag_fresh (t : Tag) : (fresh t).tag = t := by
  cases t <;> rfl

/-- A parameter that feeds nothing. -/
def freshParameter (name type : String) : Kind :=
  parameter name type false []

/-- An identifier without wires. -/
def freshIdentifier (name type : String) : Kind :=
  identifier ⟨name, type, false, none, []⟩

/-- A variable without wires. -/
def freshVariable (name type : String) : Kind :=
  variableStatement ⟨name, type, false, none, []⟩

/-- A number that feeds nothing. -/
def freshNumber (value : Binary64) : Kind :=
  numericLiteral value none

/-- A text that feeds nothing. -/
def freshString (value : String) : Kind :=
  stringLiteral value none

/-- An operation without wires. -/
def freshBinary (operator : String) : Kind :=
  binaryExpression operator none none none

/-- A return of nothing yet. -/
def freshReturn (type : String) : Kind :=
  returnStatement type false none

/-! ## Changes of single fields -/

/-- A field of a payload with its new value. -/
inductive Change where
  | name (value : String)
  | type (value : String)
  | array (value : Bool)
  | operator (value : String)
  | width (value : Binary64)
  | height (value : Binary64)
  | number (value : Binary64)
  | text (value : String)
deriving DecidableEq

/-- The payload with one field changed; none if the kind has no such field. -/
def change : Change → Kind → Option Kind
  | .name s, functionDeclaration _ width height => some (functionDeclaration s width height)
  | .name s, parameter _ type array outputs => some (parameter s type array outputs)
  | .name s, identifier b => some (identifier { b with name := s })
  | .name s, variableStatement b => some (variableStatement { b with name := s })
  | .type s, parameter name _ array outputs => some (parameter name s array outputs)
  | .type s, identifier b => some (identifier { b with type := s })
  | .type s, variableStatement b => some (variableStatement { b with type := s })
  | .type s, returnStatement _ array value => some (returnStatement s array value)
  | .array a, parameter name type _ outputs => some (parameter name type a outputs)
  | .array a, identifier b => some (identifier { b with array := a })
  | .array a, variableStatement b => some (variableStatement { b with array := a })
  | .array a, returnStatement type _ value => some (returnStatement type a value)
  | .operator s, binaryExpression _ left right output =>
    some (binaryExpression s left right output)
  | .width w, functionDeclaration name _ height => some (functionDeclaration name w height)
  | .height h, functionDeclaration name width _ => some (functionDeclaration name width h)
  | .number v, numericLiteral _ output => some (numericLiteral v output)
  | .text s, stringLiteral _ output => some (stringLiteral s output)
  | _, _ => none

/-- The payload with the array flag set, where the kind has one. -/
def withArray (k : Kind) (array : Bool) : Kind :=
  (k.change (.array array)).getD k

/-- A change of a field leaves the wires and the kind alone. -/
theorem wires_of_change {c : Change} {k k' : Kind} (h : k.change c = some k') :
  k'.inputs = k.inputs ∧ k'.output = k.output ∧ k'.outputs = k.outputs ∧ k'.tag = k.tag
  := by
  cases c <;> cases k <;> simp only [change, reduceCtorEq, Option.some.injEq] at h <;> subst h <;>
    exact ⟨rfl, rfl, rfl, rfl⟩

end Kind

end Patchboard
