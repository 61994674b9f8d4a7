import Patchboard.Node.Codec
import Patchboard.Proofs.Json.Decode
import Patchboard.Proofs.Json.Numbers

/-!
# Nodes through JSON

JSON has no text for an infinite number or a NaN. A node whose numbers are finite is decoded from
what it is encoded to, whatever its kind and its wires are. And what is decoded has finite numbers,
so it can be encoded again.
-/

namespace Patchboard

open Json (Decoder Fields valuesOf)

/-! ## Ids and slots -/

/-- An id is read as it was written. -/
@[simp]
theorem NodeId.decode_toJson (id : NodeId) :
  NodeId.decode id.toJson = .ok id
  := by
  have h : id.val.toNat < UInt32.size := id.val.toNat_lt
  simp only [NodeId.decode, NodeId.toJson, Decoder.word32, Decoder.natural]
  rw [if_pos ⟨Int.natCast_nonneg _, h⟩]
  simp [Except.map]

/-- A slot is read as it was written. -/
@[simp]
theorem Slot.decode_toJson (slot : Slot) :
  Slot.decode slot.toJson = .ok slot
  := by
  cases slot with
  | none => rfl
  | some id =>
    show (NodeId.decode id.toJson).map some = _
    rw [NodeId.decode_toJson]
    rfl

/-- A fixed number of slots is read as it was written. -/
@[simp]
theorem Slot.decode_slots {n : Nat} {slots : List Slot} (h : slots.length = n) :
  Decoder.array n Slot.decode (Json.ofList Slot.toJson slots) = .ok slots
  := by
  subst h
  exact Decoder.array_ofList fun slot _ => Slot.decode_toJson slot

/-- A list of slots is read as it was written. -/
@[simp]
theorem Slot.decode_list (slots : List Slot) :
  Decoder.list Slot.decode (Json.ofList Slot.toJson slots) = .ok slots
  := Decoder.list_ofList fun slot _ => Slot.decode_toJson slot

/-- A list of ids is read as it was written. -/
@[simp]
theorem NodeId.decode_list (ids : List NodeId) :
  Decoder.list NodeId.decode (Json.ofList NodeId.toJson ids) = .ok ids
  := Decoder.list_ofList fun id _ => NodeId.decode_toJson id

/-! ## Kinds -/

namespace Kind

/-- The numbers of a payload. -/
def numbers : Kind → List Binary64
  | functionDeclaration _ width height => [width, height]
  | numericLiteral value _ => [value]
  | _ => []

end Kind

/-- The numbers of a node: its position, and those of its payload. -/
def Node.numbers (n : Node) : List Binary64 :=
  n.x :: n.y :: n.kind.numbers

/-- The numbers of a node are neither infinite nor NaNs. -/
def Node.Finite (n : Node) : Prop :=
  ∀ b ∈ n.numbers, b.isFinite = true

instance (n : Node) : Decidable n.Finite :=
  inferInstanceAs (Decidable (∀ b ∈ n.numbers, b.isFinite = true))

/-- A number that a record must have is finite when it is read. -/
theorem isFinite_of_required {name : String} {members : List (String × Json)} {b : Binary64}
    (h : (Fields.required name Decoder.number).ofMembers members = .ok b) :
  b.isFinite = true
  := by
  obtain ⟨j, hj⟩ := Fields.exists_of_required h
  exact Json.isFinite_of_number hj

namespace Kind

/-- A payload has no member of the name of a field that every node has. -/
theorem valuesOf_members (k : Kind) {name : String} (h : name ∈ ["id", "x", "y", "kind"]) :
  valuesOf k.members name = []
  := by
  simp only [List.mem_cons, List.not_mem_nil, or_false] at h
  rcases h with rfl | rfl | rfl | rfl <;>
    cases k <;> simp [members, Binding.members, Access.members]

/-- A payload with finite numbers is read from the members that it is written as. -/
theorem ofMembers_fields_members {k : Kind} (hk : ∀ b ∈ k.numbers, b.isFinite = true)
    (id x y kind : Json) :
  (fields k.tag).ofMembers ([("id", id), ("x", x), ("y", y), ("kind", kind)] ++ k.members) = .ok k
  := by
  have hnumber {b : Binary64} (hb : b ∈ k.numbers) : Decoder.number (.ofBinary64 b) = .ok b :=
    Json.number_ofBinary64 (hk b hb)
  rw [Fields.ofMembers_eq_ok_iff_reads]
  cases k
  all_goals
    simp only [tag, fields, members, Binding.fields, Binding.members, Access.fields, Access.members,
      slotFields, outputField, outputsField]
    simp (disch := decide) only [Fields.reads_seq, Fields.reads_map]
    simp [Fields.Reads, Fields.required, Fields.withDefault, Fields.ofMembers_field, Decoder.text,
      Decoder.boolean, slotAt]
  case functionDeclaration => exact ⟨hnumber (by simp [numbers]), hnumber (by simp [numbers])⟩
  case numericLiteral => exact hnumber (by simp [numbers])

/-- The numbers of a payload that is read are finite. -/
theorem isFinite_of_ofMembers_fields {tag : Tag} {members : List (String × Json)} {k : Kind}
    (h : (fields tag).ofMembers members = .ok k) :
  ∀ b ∈ k.numbers, b.isFinite = true
  := by
  rw [Fields.ofMembers_eq_ok_iff_reads] at h
  cases tag
  all_goals
    simp (disch := decide) only [fields, Binding.fields, Access.fields, slotFields, outputField,
      outputsField, Fields.reads_seq, Fields.reads_map] at h
  case functionDeclaration =>
    obtain ⟨name, _, width, hwidth, height, hheight, rfl⟩ := h
    simp [numbers, isFinite_of_required hwidth, isFinite_of_required hheight]
  case numericLiteral =>
    obtain ⟨value, hvalue, output, _, rfl⟩ := h
    simp [numbers, isFinite_of_required hvalue]
  -- the other kinds have no numbers
  all_goals
    grind [numbers, Fields.Reads]

end Kind

/-! ## Nodes -/

namespace Node

/-- A node is read when its id, its position, its kind and the fields of that kind are. -/
theorem ofMembers_eq_ok_iff {members : List (String × Json)} {n : Node} :
  ofMembers members = .ok n
    ↔ header.ofMembers members = .ok (n.id, n.x, n.y)
      ∧ ∃ tag, (Fields.required "kind" Tag.decode).ofMembers members = .ok tag
        ∧ (Kind.fields tag).ofMembers members = .ok n.kind
  := by
  obtain ⟨id, x, y, kind⟩ := n
  rw [ofMembers]
  cases header.ofMembers members with
  | error f => simp [bind, Except.bind]
  | ok front =>
    cases (Fields.required "kind" Tag.decode).ofMembers members with
    | error f => simp [bind, Except.bind]
    | ok tag =>
      cases hkind : (Kind.fields tag).ofMembers members with
      | error f => simp [bind, Except.bind, hkind]
      | ok k => simp [bind, Except.bind, pure, Except.pure, hkind, Prod.ext_iff, and_assoc]

/-- A node with finite numbers is decoded from what it is encoded to. -/
theorem decode_toJson {n : Node} (hn : n.Finite) :
  decode n.toJson = .ok n
  := by
  have hx : Decoder.number (.ofBinary64 n.x) = .ok n.x :=
    Json.number_ofBinary64 (hn _ (by simp [numbers]))
  have hy : Decoder.number (.ofBinary64 n.y) = .ok n.y :=
    Json.number_ofBinary64 (hn _ (by simp [numbers]))
  rw [toJson, decode, ofMembers_eq_ok_iff]
  refine ⟨?_, n.kind.tag, ?_, ?_⟩
  · rw [Fields.ofMembers_eq_ok_iff_reads]
    simp (disch := decide) only [header, Fields.reads_seq, Fields.reads_map]
    simp [Fields.Reads, Fields.required, Fields.ofMembers_field, Kind.valuesOf_members, hx, hy]
  · simp [Fields.required, Fields.ofMembers_field, Kind.valuesOf_members, Tag.decode,
      Tag.ofName?_name]
  · apply Kind.ofMembers_fields_members
    intro b hb
    apply hn
    simp [numbers, hb]

/-- A node that is decoded has finite numbers. -/
theorem finite_of_decode {j : Json} {n : Node} (h : decode j = .ok n) :
  n.Finite
  := by
  cases j with
  | object members =>
    obtain ⟨hfront, tag, -, hkind⟩ := ofMembers_eq_ok_iff.1 h
    rw [Fields.ofMembers_eq_ok_iff_reads] at hfront
    simp (disch := decide) only [header, Fields.reads_seq, Fields.reads_map] at hfront
    obtain ⟨id, _, x, hx, y, hy, hfront⟩ := hfront
    obtain ⟨rfl, rfl, rfl⟩ : id = n.id ∧ x = n.x ∧ y = n.y := by simpa using hfront
    simp only [Finite, numbers, List.forall_mem_cons]
    use isFinite_of_required hx, isFinite_of_required hy
    exact Kind.isFinite_of_ofMembers_fields hkind
  | _ => cases h

end Node

end Patchboard
