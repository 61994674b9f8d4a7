import Patchboard.Json.Fault

/-!
# Decoding JSON values

A decoder takes a JSON value and gives what it stands for, or the first fault in it. Records are
decoded by `Fields`: the members are read in the order in which they are written, and fields that
are not there are noticed afterwards, in the order in which the record declares them.
-/

namespace Patchboard.Json

/-- Gives what a JSON value stands for, or the first fault in it. -/
abbrev Decoder (α : Type) := Json → Except Fault α

/-- The fault of a value of another kind. -/
def mismatch (j : Json) (expected : Shape) : Except Fault α :=
  .error (.wrongType j.found expected)

namespace Decoder

/-- A whole number below `limit`. -/
def natural (expected : Shape) (limit : Nat) : Decoder Nat
  | .int i =>
    if 0 ≤ i ∧ i.toNat < limit then .ok i.toNat else .error (.wrongValue (.int i) expected)
  | j => mismatch j expected

/-- A whole number of 32 bits. -/
def word32 : Decoder UInt32 := fun j =>
  (natural .word32 UInt32.size j).map UInt32.ofNat

/-- A whole number of 64 bits. -/
def word64 : Decoder Nat :=
  natural .word64 UInt64.size

/-- A number. A whole number is rounded to binary64. -/
def number : Decoder Binary64
  | .int i =>
    let size := Binary64.ofNat i.natAbs.toUInt64
    .ok (if 0 ≤ i then size else size.negate)
  | .real b _ => .ok b
  | j => mismatch j .number

/-- A text. -/
def text : Decoder String
  | .string s => .ok s
  | j => mismatch j .text

/-- A truth value. -/
def boolean : Decoder Bool
  | .bool b => .ok b
  | j => mismatch j .boolean

/-- The absence of a value. -/
def nothing : Decoder Unit
  | .null => .ok ()
  | j => mismatch j .nothing

/-- A value that may be absent. -/
def option (decode : Decoder α) : Decoder (Option α)
  | .null => .ok none
  | j => (decode j).map some

/-- A list of any length. -/
def list (decode : Decoder α) : Decoder (List α)
  | .array items => items.mapM decode
  | j => mismatch j .sequence

/-- A list of `n` items. A fault in one of the first `n` items counts before the length. -/
def array (n : Nat) (decode : Decoder α) : Decoder (List α)
  | .array items => do
    let values ← (items.take n).mapM decode
    if items.length < n then throw (.wrongLength items.length (.array n))
    if n < items.length then throw (.wrongLength items.length (.elements n))
    return values
  | j => mismatch j (.array n)

end Decoder

/-! ## Records -/

/-- A record that is read member by member. Between members it is in a state that says which fields
have been read, and with which values. -/
structure Fields (α : Type) where
  /-- The names of the fields, in declared order. -/
  names : List String
  /-- What is known of the fields after some members. -/
  State : Type
  /-- No field has been read. -/
  start : State
  /-- Reads a member; none if it is no field of the record. -/
  step : String → Json → Option (State → Except Fault State)
  /-- The record, once all members have been read. -/
  finish : State → Except Fault α

namespace Fields

/-- A single field, and what it is when it is left out. -/
def field (name : String) (decode : Decoder α) (absent : Except Fault α) : Fields α where
  names := [name]
  State := Option α
  start := none
  step key j :=
    if key = name then
      some fun
        | some _ => .error (.repeatedField name)
        | none => (decode j).map some
    else none
  finish
    | some a => .ok a
    | none => absent

/-- A field that must be there. -/
def required (name : String) (decode : Decoder α) : Fields α :=
  field name decode (.error (.missingField name))

/-- A field that may be left out. -/
def withDefault (name : String) (decode : Decoder α) (default : α) : Fields α :=
  field name decode (.ok default)

/-- The fields of one record and then those of another. -/
def both (f : α → β → γ) (left : Fields α) (right : Fields β) : Fields γ where
  names := left.names ++ right.names
  State := left.State × right.State
  start := (left.start, right.start)
  step key j :=
    match left.step key j with
    | some read => some fun (l, r) => (read l).map fun l => (l, r)
    | none => (right.step key j).map fun read (l, r) => (read r).map fun r => (l, r)
  finish := fun (l, r) => do
    let a ← left.finish l
    let b ← right.finish r
    return f a b

instance : Functor Fields where
  map f fields := { fields with finish := fun s => (fields.finish s).map f }

instance : Seq Fields where
  seq f x := both (fun f a => f a) f (x ())

/-- Reads members in the order in which they are written. A field must not come twice, and members
that are no fields are passed over. -/
def readMembers (fields : Fields α) : fields.State → List (String × Json) →
    Except Fault fields.State
  | s, [] => .ok s
  | s, (key, j) :: rest =>
    match fields.step key j with
    | none => fields.readMembers s rest
    | some read =>
      match read s with
      | .error f => .error f
      | .ok s => fields.readMembers s rest

/-- The record with these members. Fields that are left out are noticed last, in declared order. -/
def ofMembers (fields : Fields α) (members : List (String × Json)) : Except Fault α := do
  fields.finish (← fields.readMembers fields.start members)

/-- The record whose fields are listed in declared order. When `short` holds the list may end early,
and the fields behind are left out. -/
def ofItems (fields : Fields α) (name : String) (short : Bool) (items : List Json) :
    Except Fault α := do
  let s ← fields.readMembers fields.start (fields.names.zip items)
  if items.length < fields.names.length ∧ ¬ short then
    throw (.wrongLength items.length (.recordList name fields.names.length))
  if fields.names.length < items.length then
    throw (.wrongLength items.length .shorterList)
  fields.finish s

/-- A record, given by its members or as the list of its fields. -/
def record (fields : Fields α) (name : String) (short : Bool) : Decoder α
  | .object members => fields.ofMembers members
  | .array items => fields.ofItems name short items
  | j => mismatch j (.record name)

end Fields

/-! ## Variants -/

/-- The name of a variant, alone or as the single key of its payload. -/
def variant (known : List String) (j : Json) : Except Fault (String × Option Json) := do
  let named ← match j with
    | .string name => .ok (name, none)
    | .object [(name, payload)] => .ok (name, some payload)
    | .object _ => .error (.wrongValue .map .singleKey)
    | j => mismatch j .tagged
  if named.1 ∈ known then return named
  else throw (.unknownVariant named.1 known)

/-- The payload of a variant with one value. -/
def onePayload (decode : Decoder α) : Option Json → Except Fault α
  | none => .error (.wrongType .bareVariant .payload)
  | some j => decode j

/-- The payload of a variant with fields. -/
def fieldsPayload (fields : Fields α) : Option Json → Except Fault α
  | none => .error (.wrongType .bareVariant .fields)
  | some (.object members) => fields.ofMembers members
  | some j => mismatch j .fields

/-- One of several names. -/
def Decoder.oneOf (named : List (String × α)) : Decoder α := fun j => do
  let (name, payload) ← variant (named.map (·.1)) j
  match payload with
  | none => pure ()
  | some j => Decoder.nothing j
  match named.lookup name with
  | some a => return a
  | none => throw (.unknownVariant name (named.map (·.1)))

end Patchboard.Json
