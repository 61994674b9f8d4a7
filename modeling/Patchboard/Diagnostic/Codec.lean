import Patchboard.Diagnostic.Basic
import Patchboard.Node.Codec

/-!
# Diagnostics as JSON

A diagnostic is an object with one member, whose key says which diagnostic it is and whose value
holds what it names.
-/

namespace Patchboard.Diagnostic

open Json (Decoder Fields)

/-- A diagnostic as JSON. -/
def toJson : Diagnostic → Json
  | incomplete node kind slot =>
    .tagged "IncompleteNode"
      (.object [("node", node.toJson), ("kind", .string kind.name), ("slot", .ofNat slot)])
  | dangling node slot target =>
    .tagged "DanglingReference"
      (.object [("node", node.toJson), ("slot", .ofNat slot), ("target", target.toJson)])
  | unresolvedCallee node target =>
    .tagged "UnresolvedCallee" (.object [("node", node.toJson), ("target", target.toJson)])
  | missingReturn function => .tagged "MissingReturn" (.object [("function", function.toJson)])
  | multipleReturns function returns =>
    .tagged "MultipleReturns"
      (.object [("function", function.toJson), ("returns", Json.ofList NodeId.toJson returns)])
  | cycle function nodes =>
    .tagged "UnresolvableReferenceCycle"
      (.object [("function", function.toJson), ("nodes", Json.ofList NodeId.toJson nodes)])
  | unknownOperator node operator =>
    .tagged "UnknownOperator" (.object [("node", node.toJson), ("operator", .string operator)])
  | unknownType node type =>
    .tagged "UnknownType" (.object [("node", node.toJson), ("type_name", .string type)])
  | invalidConnection node slot target =>
    .tagged "InvalidConnection"
      (.object [("node", node.toJson), ("slot", .ofNat slot), ("target", target.toJson)])
  | nestingTooDeep function node limit =>
    .tagged "NestingTooDeep"
      (.object [("function", function.toJson), ("node", node.toJson), ("limit", .ofNat limit)])
  | notAFunction node => .tagged "NotAFunction" (.object [("node", node.toJson)])

/-- The field that holds the node. -/
def nodeField : Fields NodeId :=
  .required "node" NodeId.decode

/-- The field that holds the function. -/
def functionField : Fields NodeId :=
  .required "function" NodeId.decode

/-- The field that holds the slot. -/
def slotField : Fields Nat :=
  .required "slot" Decoder.word64

/-- The field that holds the node behind a slot. -/
def targetField : Fields NodeId :=
  .required "target" NodeId.decode

/-- The fields of each diagnostic, by its name. -/
def variants : List (String × Fields Diagnostic) :=
  [("IncompleteNode",
      incomplete <$> nodeField <*> Fields.required "kind" Tag.decodeName <*> slotField),
    ("DanglingReference", dangling <$> nodeField <*> slotField <*> targetField),
    ("UnresolvedCallee", unresolvedCallee <$> nodeField <*> targetField),
    ("MissingReturn", missingReturn <$> functionField),
    ("MultipleReturns",
      multipleReturns <$> functionField <*> Fields.required "returns" (Decoder.list NodeId.decode)),
    ("UnresolvableReferenceCycle",
      cycle <$> functionField <*> Fields.required "nodes" (Decoder.list NodeId.decode)),
    ("UnknownOperator", unknownOperator <$> nodeField <*> Fields.required "operator" Decoder.text),
    ("UnknownType", unknownType <$> nodeField <*> Fields.required "type_name" Decoder.text),
    ("InvalidConnection", invalidConnection <$> nodeField <*> slotField <*> targetField),
    ("NestingTooDeep",
      nestingTooDeep <$> functionField <*> nodeField <*> Fields.required "limit" Decoder.word64),
    ("NotAFunction", notAFunction <$> nodeField)]

/-- A diagnostic. -/
def decode : Decoder Diagnostic := fun j => do
  let known := variants.map (·.1)
  let (name, payload) ← Json.variant known j
  match variants.find? fun (variant, _) => variant == name with
  | some (_, fields) => Json.fieldsPayload fields payload
  | none => throw (.unknownVariant name known)

end Patchboard.Diagnostic
