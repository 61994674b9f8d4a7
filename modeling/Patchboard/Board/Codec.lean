import Patchboard.Board.Edit
import Patchboard.Json.Reader
import Patchboard.Node.Codec

/-!
# Boards as JSON

A board is written as the list of its nodes. The id for the next node is not written: the board that
is read back takes the first id above all others.

A board may be read from a text that is not JSON to its end. A fault in a node is then reported when
it stands before the place where the text breaks off, and otherwise the break is.
-/

namespace Patchboard

open Json (Decoder Fields Fault Fragment)

/-- A reason why a board cannot be read. -/
inductive ReadError where
  /-- The text is not JSON. -/
  | notJson
  /-- The JSON value is no list of nodes. -/
  | fault (fault : Fault)
  /-- The nodes form no board. -/
  | board (error : BoardError)
deriving DecidableEq

/-- The wording of an error. -/
def ReadError.message : ReadError → String
  | .notJson => "malformed text"
  | .fault f => f.message
  | .board e => e.message

namespace Board

/-- A board as JSON. -/
def toJson (b : Board) : Json :=
  Json.ofList Node.toJson b.nodes

/-- A board as compact JSON text. -/
def text (b : Board) : String :=
  b.toJson.compact

/-- The board with these nodes, in order. -/
def decodeNodes (ns : Except Fault (List Node)) : Except ReadError Board :=
  match ns with
  | .error f => .error (.fault f)
  | .ok ns =>
    match ofNodes ns with
    | .error e => .error (.board e)
    | .ok b => .ok b

/-- The board that a JSON value lists. -/
def decode (j : Json) : Except ReadError Board :=
  decodeNodes (Decoder.list Node.decode j)

/-- The empty list or object that a fragment begins, if it begins one. -/
def opened : Fragment → Option Json
  | .items .. => some (.array [])
  | .members .. => some (.object [])
  | _ => none

/-- The first fault that the id or the position of a node shows in some whole members and the one
that follows. A list or object has no place in these fields, and is wrong as soon as it begins. -/
def headerFault? (whole : List (String × Json)) (last : Option (String × Fragment)) :
    Option Fault :=
  match Node.header.readMembers Node.header.start whole, last with
  | .error f, _ => some f
  | .ok _, none => none
  | .ok s, some (key, fragment) =>
    if Node.header.names.contains key && (whole.map (·.1)).contains key then
      some (.repeatedField key)
    else
      match opened fragment with
      | none => none
      | some value =>
        match Node.header.readMembers s [(key, value)] with
        | .error f => some f
        | .ok _ => none

/-- The first fault in the fragment of a node. -/
def nodeFault? : Fragment → Option Fault
  | .members whole last => headerFault? whole last
  | .items .. => some (.wrongType .sequence (.record "Node"))
  | _ => none

/-- The first fault in the fragment of a list of nodes. -/
def fragmentError : Fragment → ReadError
  | .nothing => .notJson
  | .members .. => .fault (.wrongType .map .sequence)
  | .trailed value =>
    match decode value with
    | .error e => e
    | .ok _ => .notJson
  | .items whole last =>
    match whole.mapM Node.decode with
    | .error f => .fault f
    | .ok _ =>
      match nodeFault? last with
      | some f => .fault f
      | none => .notJson

/-- The board that a text spells. -/
def ofText (s : String) : Except ReadError Board :=
  match Json.read s with
  | .ok j => decode j
  | .error fragment => .error (fragmentError fragment)

end Board

end Patchboard
