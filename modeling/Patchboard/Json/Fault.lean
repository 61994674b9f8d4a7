import Patchboard.Json.Printer
import Patchboard.Text.Quoted

/-!
# Faults of a JSON value

A value that is JSON may still not be what was asked for. A `Fault` says in which way, and
`Fault.message` is its wording.
-/

namespace Patchboard.Json

/-- What stands at a place of a JSON value. -/
inductive Found where
  | null
  | bool (value : Bool)
  | int (value : Int)
  | real (value : Binary64)
  | string (value : String)
  | sequence
  | map
  /-- A variant named without its payload. -/
  | bareVariant
deriving DecidableEq

/-- What stands where a value stands. -/
def found : Json → Found
  | .null => .null
  | .bool b => .bool b
  | .int i => .int i
  | .real b _ => .real b
  | .string s => .string s
  | .array _ => .sequence
  | .object _ => .map

/-- The wording of what was found. -/
def Found.describe : Found → String
  | .null => "null"
  | .bool true => "boolean `true`"
  | .bool false => "boolean `false`"
  | .int i => "integer `" ++ toString i ++ "`"
  | .real b => "floating point `" ++ numberLayout.write b ++ "`"
  | .string s => "string " ++ Text.quoted s
  | .sequence => "sequence"
  | .map => "map"
  | .bareVariant => "unit variant"

/-- What was asked for. -/
inductive Shape where
  /-- A whole number of 32 bits. -/
  | word32
  /-- A whole number of 64 bits. -/
  | word64
  | number
  | text
  | boolean
  | nothing
  | sequence
  /-- A list of a fixed length. -/
  | array (length : Nat)
  /-- The items taken from a list that has more of them. -/
  | elements (count : Nat)
  /-- The name or the number of a variant. -/
  | variantName
  /-- The number of a variant. -/
  | variantIndex (limit : Nat)
  | record (name : String)
  /-- A record given as the list of its fields. -/
  | recordList (name : String) (fields : Nat)
  /-- A record's list of fields that is too long. -/
  | shorterList
  /-- A value of a tagged type. -/
  | tagged
  /-- An object that names one variant. -/
  | singleKey
  /-- The payload of a variant with fields. -/
  | fields
  /-- The payload of a variant with one value. -/
  | payload
deriving DecidableEq

/-- A number of things, in words. -/
def counted (n : Nat) (singular plural : String) : String :=
  toString n ++ " " ++ if n = 1 then singular else plural

/-- The wording of what was asked for. -/
def Shape.describe : Shape → String
  | .word32 => "u32"
  | .word64 => "usize"
  | .number => "f64"
  | .text => "a string"
  | .boolean => "a boolean"
  | .nothing => "unit"
  | .sequence => "a sequence"
  | .array n => "an array of length " ++ toString n
  | .elements n => counted n "element" "elements" ++ " in sequence"
  | .variantName => "variant identifier"
  | .variantIndex n => "variant index 0 <= i < " ++ toString n
  | .record name => "struct " ++ name
  | .recordList name n => "struct " ++ name ++ " with " ++ counted n "element" "elements"
  | .shorterList => "fewer elements in array"
  | .tagged => "string or map"
  | .singleKey => "map with a single key"
  | .fields => "struct variant"
  | .payload => "newtype variant"

/-- A way in which a JSON value is not what was asked for. -/
inductive Fault where
  /-- A value of another kind. -/
  | wrongType (found : Found) (expected : Shape)
  /-- A value of the right kind that is not allowed. -/
  | wrongValue (found : Found) (expected : Shape)
  /-- A list of the wrong length. -/
  | wrongLength (length : Nat) (expected : Shape)
  /-- A field that is not there. -/
  | missingField (name : String)
  /-- A field that is there twice. -/
  | repeatedField (name : String)
  /-- A variant that is none of those known. -/
  | unknownVariant (name : String) (known : List String)
deriving DecidableEq

/-- A name as a message shows it. -/
def ticked (name : String) : String :=
  "`" ++ name ++ "`"

/-- The wording of a choice among names. -/
def choice : List String → String
  | [] => "there are no variants"
  | [a] => "expected " ++ ticked a
  | [a, b] => "expected " ++ ticked a ++ " or " ++ ticked b
  | names => "expected one of " ++ String.intercalate ", " (names.map ticked)

/-- The wording of a fault. -/
def Fault.message : Fault → String
  | .wrongType u e => "invalid type: " ++ u.describe ++ ", expected " ++ e.describe
  | .wrongValue u e => "invalid value: " ++ u.describe ++ ", expected " ++ e.describe
  | .wrongLength n e => "invalid length " ++ toString n ++ ", expected " ++ e.describe
  | .missingField name => "missing field " ++ ticked name
  | .repeatedField name => "duplicate field " ++ ticked name
  | .unknownVariant name known => "unknown variant " ++ ticked name ++ ", " ++ choice known

end Patchboard.Json
