import Patchboard.Json.Decode
import Patchboard.Program.Basic

/-!
# Programs as JSON

Records are objects of their fields, and may be read from lists of their fields too. An expression,
a statement or a constant is an object with one member, whose key says which kind it is.
-/

namespace Patchboard

open Json (Decoder Fields Fault)

/-! ## Encoding -/

/-- A type as JSON. -/
def ValueType.toJson (a : ValueType) : Json :=
  .object [("keyword", .string a.keyword.name), ("array", .bool a.array)]

/-- A constant as JSON. -/
def Literal.toJson : Literal → Json
  | number b => .tagged "Number" (.ofBinary64 b)
  | string s => .tagged "String" (.string s)

mutual

/-- An expression as JSON. -/
def Expr.toJson : Expr → Json
  | .literal l => .tagged "Literal" l.toJson
  | .ident name => .tagged "Ident" (.string name)
  | .binary left op right =>
    .tagged "Binary"
      (.object [("left", left.toJson), ("op", .string op.name), ("right", right.toJson)])
  | .conditional test consequent alternate =>
    .tagged "Conditional"
      (.object [("test", test.toJson), ("consequent", consequent.toJson),
        ("alternate", alternate.toJson)])
  | .call callee args =>
    .tagged "Call" (.object [("callee", callee.toJson), ("args", .array (Expr.listToJson args))])
  | .member object property =>
    .tagged "Member" (.object [("object", object.toJson), ("property", .string property)])
  | .index object key =>
    .tagged "Index" (.object [("object", object.toJson), ("index", key.toJson)])

/-- Every expression of a list as JSON. -/
def Expr.listToJson : List Expr → List Json
  | [] => []
  | e :: rest => e.toJson :: Expr.listToJson rest

end

/-- A statement as JSON. -/
def Stmt.toJson : Stmt → Json
  | const name type init =>
    .tagged "Const"
      (.object [("name", .string name), ("ty", Json.ofOption ValueType.toJson type),
        ("init", init.toJson)])
  | ret value => .tagged "Return" value.toJson

/-- A parameter as JSON. -/
def Param.toJson (p : Param) : Json :=
  .object [("name", .string p.name), ("ty", p.type.toJson)]

/-- A function as JSON. -/
def Function.toJson (f : Function) : Json :=
  .object [("name", .string f.name), ("params", Json.ofList Param.toJson f.params),
    ("return_type", Json.ofOption ValueType.toJson f.returnType),
    ("body", Json.ofList Stmt.toJson f.body)]

/-- A program as JSON. -/
def Program.toJson (p : Program) : Json :=
  .object [("functions", Json.ofList Function.toJson p.functions)]

/-! ## Decoding -/

/-- A type by its name. -/
def Keyword.decode : Decoder Keyword :=
  Decoder.oneOf Keyword.named

/-- An operator by its name. -/
def Operator.decode : Decoder Operator :=
  Decoder.oneOf (Operator.all.map fun op => (op.name, op))

/-- A type. -/
def ValueType.decode : Decoder ValueType :=
  (ValueType.mk
    <$> Fields.required "keyword" Keyword.decode
    <*> Fields.required "array" Decoder.boolean).record "TypeAnnotation" false

/-- A constant. -/
def Literal.decode : Decoder Literal := fun j => do
  let (name, payload) ← Json.variant ["Number", "String"] j
  match name with
  | "Number" => return number (← Json.onePayload Decoder.number payload)
  | _ => return string (← Json.onePayload Decoder.text payload)

/-- The names of the kinds of expressions. -/
def Expr.names : List String :=
  ["Literal", "Ident", "Binary", "Conditional", "Call", "Member", "Index"]

/-- An expression whose parts are decoded by `part`. -/
def Expr.decodeWith (part : Decoder Expr) : Decoder Expr := fun j => do
  let (name, payload) ← Json.variant Expr.names j
  match name with
  | "Literal" => return literal (← Json.onePayload Literal.decode payload)
  | "Ident" => return ident (← Json.onePayload Decoder.text payload)
  | "Binary" =>
    Json.fieldsPayload
      (binary
        <$> Fields.required "left" part
        <*> Fields.required "op" Operator.decode
        <*> Fields.required "right" part) payload
  | "Conditional" =>
    Json.fieldsPayload
      (conditional
        <$> Fields.required "test" part
        <*> Fields.required "consequent" part
        <*> Fields.required "alternate" part) payload
  | "Call" =>
    Json.fieldsPayload
      (call <$> Fields.required "callee" part <*> Fields.required "args" (Decoder.list part))
      payload
  | "Member" =>
    Json.fieldsPayload
      (member <$> Fields.required "object" part <*> Fields.required "property" Decoder.text)
      payload
  | _ =>
    Json.fieldsPayload
      (index <$> Fields.required "object" part <*> Fields.required "index" part) payload

/-- An expression of at most `levels` levels. -/
def Expr.decodeLevels : (levels : Nat) → Decoder Expr
  | 0 => fun j => Json.mismatch j .tagged
  | levels + 1 => decodeWith (decodeLevels levels)

/-- An expression. It has no more levels than its JSON value. -/
def Expr.decode : Decoder Expr := fun j =>
  decodeLevels j.depth j

/-- A statement. -/
def Stmt.decode : Decoder Stmt := fun j => do
  let (name, payload) ← Json.variant ["Const", "Return"] j
  match name with
  | "Const" =>
    Json.fieldsPayload
      (const
        <$> Fields.required "name" Decoder.text
        <*> Fields.withDefault "ty" (Decoder.option ValueType.decode) none
        <*> Fields.required "init" Expr.decode) payload
  | _ => return ret (← Json.onePayload Expr.decode payload)

/-- A parameter. -/
def Param.decode : Decoder Param :=
  (Param.mk
    <$> Fields.required "name" Decoder.text
    <*> Fields.required "ty" ValueType.decode).record "Param" false

/-- A function. -/
def Function.decode : Decoder Function :=
  (Function.mk
    <$> Fields.required "name" Decoder.text
    <*> Fields.required "params" (Decoder.list Param.decode)
    <*> Fields.withDefault "return_type" (Decoder.option ValueType.decode) none
    <*> Fields.required "body" (Decoder.list Stmt.decode)).record "FunctionDecl" false

/-- A program. -/
def Program.decode : Decoder Program :=
  (Program.mk <$> Fields.required "functions" (Decoder.list Function.decode)).record "Program" false

end Patchboard
