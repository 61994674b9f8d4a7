import Patchboard.Json.Decode
import Patchboard.Node.Basic

/-!
# Nodes as JSON

A node is one flat object: its id, its position, the name of its kind, and the fields of that kind
beside them. Wires and the array flag may be left out. The kind may be given by its place in the
palette.
-/

namespace Patchboard

open Json (Decoder Fields Fault)

/-! ## Encoding -/

/-- An id as JSON. -/
def NodeId.toJson (id : NodeId) : Json :=
  .int (Int.ofNat id.val.toNat)

/-- A slot as JSON: an id or `null`. -/
def Slot.toJson (slot : Slot) : Json :=
  Json.ofOption NodeId.toJson slot

/-- The members that a named value contributes. -/
def Binding.members (b : Binding) : List (String × Json) :=
  [("name", .string b.name), ("type", .string b.type), ("array", .bool b.array),
    ("inputs", Json.ofList Slot.toJson [b.input]), ("outputs", Json.ofList NodeId.toJson b.outputs)]

/-- The members that an access contributes. -/
def Access.members (a : Access) : List (String × Json) :=
  [("inputs", Json.ofList Slot.toJson [a.object, a.key]), ("output", Slot.toJson a.output)]

/-- The members that a payload contributes, in declared order. -/
def Kind.members : Kind → List (String × Json)
  | functionDeclaration name width height =>
    [("name", .string name), ("width", .ofBinary64 width), ("height", .ofBinary64 height)]
  | parameter name type array outputs =>
    [("name", .string name), ("type", .string type), ("array", .bool array),
      ("outputs", Json.ofList NodeId.toJson outputs)]
  | identifier b => b.members
  | variableStatement b => b.members
  | functionReference function output =>
    [("inputs", Json.ofList Slot.toJson [function]), ("output", Slot.toJson output)]
  | numericLiteral value output => [("value", .ofBinary64 value), ("output", Slot.toJson output)]
  | stringLiteral value output => [("value", .string value), ("output", Slot.toJson output)]
  | binaryExpression operator left right output =>
    [("operator", .string operator), ("inputs", Json.ofList Slot.toJson [left, right]),
      ("output", Slot.toJson output)]
  | conditionalExpression condition whenTrue whenFalse output =>
    [("inputs", Json.ofList Slot.toJson [condition, whenTrue, whenFalse]),
      ("output", Slot.toJson output)]
  | callExpression inputs output =>
    [("inputs", Json.ofList Slot.toJson inputs), ("output", Slot.toJson output)]
  | elementAccess a => a.members
  | propertyAccess a => a.members
  | returnStatement type array value =>
    [("type", .string type), ("array", .bool array), ("inputs", Json.ofList Slot.toJson [value])]

/-- A node as JSON. -/
def Node.toJson (n : Node) : Json :=
  .object ([("id", n.id.toJson), ("x", .ofBinary64 n.x), ("y", .ofBinary64 n.y),
    ("kind", .string n.kind.tag.name)] ++ n.kind.members)

/-! ## Decoding -/

/-- An id. -/
def NodeId.decode : Decoder NodeId := fun j =>
  (Decoder.word32 j).map NodeId.mk

/-- A slot. -/
def Slot.decode : Decoder Slot :=
  Decoder.option NodeId.decode

/-- A kind, by its name or by its place in the palette. -/
def Tag.decode : Decoder Tag
  | .string name =>
    match Tag.ofName? name with
    | some tag => .ok tag
    | none => .error (.unknownVariant name (Tag.all.map Tag.name))
  | .int i =>
    if i < 0 then Json.mismatch (.int i) .variantName
    else
      match Tag.all[i.toNat]? with
      | some tag => .ok tag
      | none => .error (.wrongValue (.int i) (.variantIndex Tag.all.length))
  | j => Json.mismatch j .variantName

/-- A kind by its name alone, as the name of a variant. -/
def Tag.decodeName : Decoder Tag :=
  Decoder.oneOf Tag.named

/-- A fixed number of input slots, all empty when they are left out. -/
def Kind.slotFields (n : Nat) : Fields (List Slot) :=
  .withDefault "inputs" (Decoder.array n Slot.decode) (List.replicate n none)

/-- The slot of an index in a list; empty when the list is too short. -/
def Kind.slotAt (slots : List Slot) (i : Nat) : Slot :=
  slots[i]?.join

/-- The consumer of a kind that has at most one. -/
def Kind.outputField : Fields Slot :=
  .withDefault "output" Slot.decode none

/-- The consumers of a kind that fans out. -/
def Kind.outputsField : Fields (List NodeId) :=
  .withDefault "outputs" (Decoder.list NodeId.decode) []

/-- The fields of a named value. -/
def Binding.fields : Fields Binding :=
  (fun name type array inputs outputs => ⟨name, type, array, Kind.slotAt inputs 0, outputs⟩)
    <$> Fields.required "name" Decoder.text
    <*> Fields.required "type" Decoder.text
    <*> Fields.withDefault "array" Decoder.boolean false
    <*> Kind.slotFields 1
    <*> Kind.outputsField

/-- The fields of an access. -/
def Access.fields : Fields Access :=
  (fun inputs output => ⟨Kind.slotAt inputs 0, Kind.slotAt inputs 1, output⟩)
    <$> Kind.slotFields 2
    <*> Kind.outputField

/-- The fields of a kind, in declared order. -/
def Kind.fields : Tag → Fields Kind
  | .functionDeclaration =>
    functionDeclaration
      <$> Fields.required "name" Decoder.text
      <*> Fields.required "width" Decoder.number
      <*> Fields.required "height" Decoder.number
  | .parameter =>
    parameter
      <$> Fields.required "name" Decoder.text
      <*> Fields.required "type" Decoder.text
      <*> Fields.withDefault "array" Decoder.boolean false
      <*> outputsField
  | .identifier => identifier <$> Binding.fields
  | .variableStatement => variableStatement <$> Binding.fields
  | .functionReference =>
    (fun inputs output => functionReference (slotAt inputs 0) output)
      <$> slotFields 1
      <*> outputField
  | .numericLiteral =>
    numericLiteral <$> Fields.required "value" Decoder.number <*> outputField
  | .stringLiteral =>
    stringLiteral <$> Fields.required "value" Decoder.text <*> outputField
  | .binaryExpression =>
    (fun operator inputs output =>
        binaryExpression operator (slotAt inputs 0) (slotAt inputs 1) output)
      <$> Fields.required "operator" Decoder.text
      <*> slotFields 2
      <*> outputField
  | .conditionalExpression =>
    (fun inputs output =>
        conditionalExpression (slotAt inputs 0) (slotAt inputs 1) (slotAt inputs 2) output)
      <$> slotFields 3
      <*> outputField
  | .callExpression =>
    callExpression
      <$> Fields.withDefault "inputs" (Decoder.list Slot.decode) []
      <*> outputField
  | .elementAccess => elementAccess <$> Access.fields
  | .propertyAccess => propertyAccess <$> Access.fields
  | .returnStatement =>
    (fun type array inputs => returnStatement type array (slotAt inputs 0))
      <$> Fields.withDefault "type" Decoder.text "infer"
      <*> Fields.withDefault "array" Decoder.boolean false
      <*> slotFields 1

/-- The fields that every node has: its id and its position. -/
def Node.header : Fields (NodeId × Binary64 × Binary64) :=
  (fun id x y => (id, x, y))
    <$> Fields.required "id" NodeId.decode
    <*> Fields.required "x" Decoder.number
    <*> Fields.required "y" Decoder.number

/-- The node with these members. Its id and position are decoded first, then its kind, and then the
fields of the kind. -/
def Node.ofMembers (members : List (String × Json)) : Except Fault Node := do
  let (id, x, y) ← Node.header.ofMembers members
  let tag ← (Fields.required "kind" Tag.decode).ofMembers members
  let kind ← (Kind.fields tag).ofMembers members
  return ⟨id, x, y, kind⟩

/-- A node. -/
def Node.decode : Decoder Node
  | .object members => Node.ofMembers members
  | j => Json.mismatch j (.record "Node")

end Patchboard
