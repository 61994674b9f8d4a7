import Patchboard.Binary64

/-!
# JSON values

A JSON value as a board file spells it. Whole numbers and other numbers are kept apart, members of
an object keep their order, and a repeated member is kept too. A number that is not whole is always
finite, because JSON has no text for the others.
-/

namespace Patchboard

/-- A JSON value. -/
inductive Json where
  | null
  | bool (value : Bool)
  | int (value : Int)
  | real (value : Binary64) (finite : value.isFinite = true)
  | string (value : String)
  | array (items : List Json)
  | object (members : List (String × Json))
deriving Inhabited

namespace Json

/-- A binary64 number as JSON: itself when it is finite, and otherwise `null`. -/
def ofBinary64 (b : Binary64) : Json :=
  if h : b.isFinite = true then .real b h else .null

/-- A natural number as JSON. -/
def ofNat (n : Nat) : Json :=
  .int (Int.ofNat n)

/-- An optional value as JSON: `null` when it is absent. -/
def ofOption (encode : α → Json) : Option α → Json
  | none => .null
  | some a => encode a

/-- A list as JSON. -/
def ofList (encode : α → Json) (as : List α) : Json :=
  .array (as.map encode)

/-- An object with a single member, as tagged values are written. -/
def tagged (tag : String) (payload : Json) : Json :=
  .object [(tag, payload)]

/-- The value of the first member of a name. -/
def lookup? (members : List (String × Json)) (name : String) : Option Json :=
  (members.find? fun (key, _) => key == name).map (·.2)

/-- The member of a name, if the value is an object that has one. -/
def member? (j : Json) (name : String) : Option Json :=
  match j with
  | .object members => lookup? members name
  | _ => none

/-- A finite number is its own JSON form. -/
theorem ofBinary64_of_finite {b : Binary64} (h : b.isFinite = true) :
  ofBinary64 b = .real b h
  := by
  simp [ofBinary64, h]

/-! ## Nesting -/

mutual

/-- The number of values nested in each other, the value itself included. -/
def depth : Json → Nat
  | .array items => depthOfItems items + 1
  | .object members => depthOfMembers members + 1
  | _ => 1

/-- The depth of the deepest item. -/
def depthOfItems : List Json → Nat
  | [] => 0
  | item :: rest => max item.depth (depthOfItems rest)

/-- The depth of the deepest member. -/
def depthOfMembers : List (String × Json) → Nat
  | [] => 0
  | (_, value) :: rest => max value.depth (depthOfMembers rest)

end

/-- Every value has a depth of at least one. -/
theorem depth_pos (j : Json) : 0 < j.depth := by
  cases j <;> simp [depth]

/-- An item is not deeper than the deepest. -/
theorem depth_le_of_mem_items {item : Json} {items : List Json} (h : item ∈ items) :
  item.depth ≤ depthOfItems items
  := by
  induction items with
  | nil => cases h
  | cons first rest ih =>
    rcases List.mem_cons.1 h with rfl | h
    · exact Nat.le_max_left _ _
    · exact Nat.le_trans (ih h) (Nat.le_max_right _ _)

/-- A member is not deeper than the deepest. -/
theorem depth_le_of_mem_members {name : String} {value : Json} {members : List (String × Json)}
    (h : (name, value) ∈ members) :
  value.depth ≤ depthOfMembers members
  := by
  induction members with
  | nil => cases h
  | cons first rest ih =>
    rcases List.mem_cons.1 h with rfl | h
    · exact Nat.le_max_left _ _
    · exact Nat.le_trans (ih h) (Nat.le_max_right _ _)

/-! ## Members in key order -/

/-- Puts a member into a list ordered by key. A member of the same key gives way. -/
def insertMember (key : String) (value : Json) :
    List (String × Json) → List (String × Json)
  | [] => [(key, value)]
  | (key', value') :: rest =>
    if key < key' then (key, value) :: (key', value') :: rest
    else if key = key' then (key, value) :: rest
    else (key', value') :: insertMember key value rest

mutual

/-- The value with the members of every object in key order. Of repeated members the last
counts. -/
def sorted : Json → Json
  | .array items => .array (sortedItems items)
  | .object members => .object (sortedMembers members [])
  | j => j

/-- Every item sorted. -/
def sortedItems : List Json → List Json
  | [] => []
  | item :: rest => item.sorted :: sortedItems rest

/-- Puts every member, sorted, into a list in key order. -/
def sortedMembers : List (String × Json) → List (String × Json) → List (String × Json)
  | [], done => done
  | (key, value) :: rest, done => sortedMembers rest (insertMember key value.sorted done)

end

end Json

end Patchboard
