import Patchboard.Program.Codec
import Patchboard.Proofs.Compile.Composition
import Patchboard.Proofs.Json.Numbers
import Patchboard.Proofs.Json.Order
import Patchboard.Proofs.Source.Spacing

/-!
# Programs through JSON

A program whose numbers are finite is decoded from what it is encoded to, however deep its expressions
are, and in whatever order the members of objects are written. And what is decoded has finite numbers,
so it can be encoded again.
-/

namespace Patchboard

open Json (Decoder Fields Reorders valuesOf)

/-! ## Numbers -/

namespace Expr

mutual

/-- The numbers of an expression. -/
def numbers : Expr → List Binary64
  | literal (.number b) => [b]
  | literal (.string _) => []
  | ident _ => []
  | binary left _ right => left.numbers ++ right.numbers
  | conditional test consequent alternate =>
    test.numbers ++ consequent.numbers ++ alternate.numbers
  | call callee args => callee.numbers ++ listNumbers args
  | member object _ => object.numbers
  | index object key => object.numbers ++ key.numbers

/-- The numbers of every expression of a list. -/
def listNumbers : List Expr → List Binary64
  | [] => []
  | e :: rest => e.numbers ++ listNumbers rest

end

theorem listNumbers_eq_flatMap (es : List Expr) :
  listNumbers es = es.flatMap numbers
  := by
  induction es with
  | nil => rw [listNumbers, List.flatMap_nil]
  | cons e es ih => rw [listNumbers, ih, List.flatMap_cons]

theorem listToJson_eq_map (es : List Expr) :
  listToJson es = es.map toJson
  := by
  induction es with
  | nil => rw [listToJson, List.map_nil]
  | cons e es ih => rw [listToJson, ih, List.map_cons]

/-- The numbers of an expression are neither infinite nor NaNs. -/
def Finite (e : Expr) : Prop :=
  ∀ b ∈ e.numbers, b.isFinite = true

/-- An expression has finite numbers when its parts have, and it is no other number itself. -/
theorem finite_iff {e : Expr} :
  e.Finite
    ↔ (∀ b, e = .literal (.number b) → b.isFinite = true) ∧ ∀ child ∈ e.children, child.Finite
  := by
  cases e with
  | literal l => cases l <;> simp [Finite, numbers, children]
  | call callee args =>
    simp only [Finite, numbers, children, listNumbers_eq_flatMap, List.mem_append, List.mem_flatMap]
    grind
  | _ => simp [Finite, numbers, children, or_imp, forall_and]

end Expr

/-- The numbers of a program. -/
def Program.numbers (p : Program) : List Binary64 :=
  p.functions.flatMap fun f => f.body.flatMap fun st => st.expr.numbers

/-- The numbers of a program are neither infinite nor NaNs. -/
def Program.Finite (p : Program) : Prop :=
  ∀ b ∈ p.numbers, b.isFinite = true

instance Program.decidableFinite (p : Program) : Decidable p.Finite :=
  inferInstanceAs (Decidable (∀ b ∈ p.numbers, b.isFinite = true))

/-- A program has finite numbers when its statements have. -/
theorem Program.finite_iff {p : Program} :
  p.Finite ↔ ∀ f ∈ p.functions, ∀ st ∈ f.body, st.expr.Finite
  := by
  simp only [Finite, numbers, List.mem_flatMap, Expr.Finite]
  grind

/-! ## Types and constants -/

/-- A type is decoded from its name. -/
@[simp]
theorem Keyword.decode_name (k : Keyword) :
  Keyword.decode (.string k.name) = .ok k
  := by
  cases k <;> rfl

/-- An operator is decoded from its name. -/
@[simp]
theorem Operator.decode_name (op : Operator) :
  Operator.decode (.string op.name) = .ok op
  := by
  cases op <;> rfl

/-- A value of a payload is less deep than what has the payload. -/
theorem depth_lt_of_payload (name : String) {tag : String} {members : List (String × Json)} {j : Json}
    (hj : j ∈ valuesOf members name) :
  j.depth < (Json.tagged tag (.object members)).depth
  := by
  apply (Json.depth_lt_of_mem_valuesOf hj).trans
  have hpayload : Json.object members ∈ valuesOf [(tag, Json.object members)] tag := by
    rw [Json.valuesOf_cons_self]
    exact List.mem_cons_self
  exact Json.depth_lt_of_mem_valuesOf hpayload

section

variable {r : Json → Json} (h : Reorders r)

include h

/-- A type is decoded. -/
theorem ValueType.decode_reordered (a : ValueType) :
  ValueType.decode (r a.toJson) = .ok a
  := by
  obtain ⟨members, hr, hvalues⟩ := h.exists_members [("keyword", .string a.keyword.name),
    ("array", .bool a.array)] (by simp)
  rw [toJson, hr, decode, Fields.record, Fields.ofMembers_eq_ok_iff_reads]
  simp (disch := decide) only [Fields.reads_seq, Fields.reads_map]
  simp [Fields.Reads, Fields.required, Fields.ofMembers_field, hvalues, h.string, h.bool,
    Decoder.boolean]

/-- An optional type is decoded. -/
theorem ValueType.decode_option_reordered (a : Option ValueType) :
  Decoder.option ValueType.decode (r (Json.ofOption ValueType.toJson a)) = .ok a
  := by
  cases a with
  | none =>
    rw [Json.ofOption, h.null]
    rfl
  | some a =>
    have hdecode := decode_reordered h a
    obtain ⟨members, hr, -⟩ := h.exists_members [("keyword", .string a.keyword.name),
      ("array", .bool a.array)] (by simp)
    rw [toJson, hr] at hdecode
    rw [Json.ofOption, toJson, hr]
    show (ValueType.decode (.object members)).map some = _
    rw [hdecode]
    rfl

/-- A constant is decoded. -/
theorem Literal.decode_reordered {l : Literal} (hl : (Expr.literal l).Finite) :
  Literal.decode (r l.toJson) = .ok l
  := by
  cases l with
  | number b =>
    have hb : b.isFinite = true := hl b (List.mem_singleton_self b)
    have hdecode := Json.number_ofBinary64 hb
    rw [toJson, h.tagged, Json.ofBinary64_of_finite hb, h.real, ← Json.ofBinary64_of_finite hb]
    show (Decoder.number _).map number = _
    rw [hdecode]
    rfl
  | string s =>
    rw [toJson, h.tagged, h.string]
    rfl

/-! ## Expressions -/

namespace Expr

/-- An expression is decoded when its parts are. They are less deep. -/
theorem decodeWith_reordered {e : Expr} (he : e.Finite) {part : Decoder Expr}
    (hpart : ∀ child ∈ e.children, (r child.toJson).depth < (r e.toJson).depth →
      part (r child.toJson) = .ok child) :
  decodeWith part (r e.toJson) = .ok e
  := by
  cases e with
  | literal l =>
    rw [toJson, h.tagged]
    show (Literal.decode (r l.toJson)).map literal = _
    rw [Literal.decode_reordered h he]
    rfl
  | ident name =>
    rw [toJson, h.tagged, h.string]
    rfl
  | binary left op right =>
    obtain ⟨members, hr, hvalues⟩ := h.exists_members [("left", left.toJson),
      ("op", .string op.name), ("right", right.toJson)] (by simp)
    rw [toJson, h.tagged, hr] at hpart ⊢
    have hleft := hpart left (by simp [children])
      (depth_lt_of_payload "left" (by simp [hvalues]))
    have hright := hpart right (by simp [children])
      (depth_lt_of_payload "right" (by simp [hvalues]))
    rw [decodeWith, Json.variant_tagged (by decide)]
    simp only [bind, Except.bind, Json.fieldsPayload]
    rw [Fields.ofMembers_eq_ok_iff_reads]
    simp (disch := decide) only [Fields.reads_three_required]
    simp [Fields.Reads, Fields.required, Fields.ofMembers_field, hvalues, h.string, hleft, hright]
  | conditional test consequent alternate =>
    obtain ⟨members, hr, hvalues⟩ := h.exists_members [("test", test.toJson),
      ("consequent", consequent.toJson), ("alternate", alternate.toJson)] (by simp)
    rw [toJson, h.tagged, hr] at hpart ⊢
    have htest := hpart test (by simp [children])
      (depth_lt_of_payload "test" (by simp [hvalues]))
    have hconsequent := hpart consequent (by simp [children])
      (depth_lt_of_payload "consequent" (by simp [hvalues]))
    have halternate := hpart alternate (by simp [children])
      (depth_lt_of_payload "alternate" (by simp [hvalues]))
    rw [decodeWith, Json.variant_tagged (by decide)]
    simp only [bind, Except.bind, Json.fieldsPayload]
    rw [Fields.ofMembers_eq_ok_iff_reads]
    simp (disch := decide) only [Fields.reads_three_required]
    simp [Fields.Reads, Fields.required, Fields.ofMembers_field, hvalues, htest, hconsequent,
      halternate]
  | call callee args =>
    obtain ⟨members, hr, hvalues⟩ := h.exists_members [("callee", callee.toJson),
      ("args", .array (listToJson args))] (by simp)
    have hlist : r (.array (listToJson args)) = Json.ofList (fun e => r e.toJson) args := by
      rw [listToJson_eq_map]
      apply h.ofList
    rw [toJson, h.tagged, hr] at hpart ⊢
    have hcallee := hpart callee (by simp [children])
      (depth_lt_of_payload "callee" (by simp [hvalues]))
    have hargs : Decoder.list part (Json.ofList (fun e => r e.toJson) args) = .ok args := by
      apply Decoder.list_ofList
      intro arg harg
      apply hpart arg (by simp [children, harg])
      apply Nat.lt_trans (Json.depth_lt_of_mem (List.mem_map_of_mem harg))
      exact depth_lt_of_payload "args" (by simp [hvalues, hlist, Json.ofList])
    rw [decodeWith, Json.variant_tagged (by decide)]
    simp only [bind, Except.bind, Json.fieldsPayload]
    rw [Fields.ofMembers_eq_ok_iff_reads]
    simp (disch := decide) only [Fields.reads_two_required]
    simp [Fields.Reads, Fields.required, Fields.ofMembers_field, hvalues, hcallee, hlist, hargs]
  | member object property =>
    obtain ⟨members, hr, hvalues⟩ := h.exists_members [("object", object.toJson),
      ("property", .string property)] (by simp)
    rw [toJson, h.tagged, hr] at hpart ⊢
    have hobject := hpart object (by simp [children])
      (depth_lt_of_payload "object" (by simp [hvalues]))
    rw [decodeWith, Json.variant_tagged (by decide)]
    simp only [bind, Except.bind, Json.fieldsPayload]
    rw [Fields.ofMembers_eq_ok_iff_reads]
    simp (disch := decide) only [Fields.reads_two_required]
    simp [Fields.Reads, Fields.required, Fields.ofMembers_field, hvalues, h.string, hobject,
      Decoder.text]
  | index object key =>
    obtain ⟨members, hr, hvalues⟩ := h.exists_members [("object", object.toJson),
      ("index", key.toJson)] (by simp)
    rw [toJson, h.tagged, hr] at hpart ⊢
    have hobject := hpart object (by simp [children])
      (depth_lt_of_payload "object" (by simp [hvalues]))
    have hkey := hpart key (by simp [children])
      (depth_lt_of_payload "index" (by simp [hvalues]))
    rw [decodeWith, Json.variant_tagged (by decide)]
    show (index <$> Fields.required "object" part <*> Fields.required "index" part).ofMembers members
      = _
    rw [Fields.ofMembers_eq_ok_iff_reads]
    simp (disch := decide) only [Fields.reads_two_required]
    simp [Fields.Reads, Fields.required, Fields.ofMembers_field, hvalues, hobject, hkey]

/-- An expression with finite numbers is decoded by as many levels as its value has, or more. -/
theorem decodeLevels_reordered {e : Expr} (he : e.Finite) {levels : Nat}
    (hlevels : (r e.toJson).depth ≤ levels) :
  decodeLevels levels (r e.toJson) = .ok e
  := by
  induction levels generalizing e with
  | zero => exact absurd hlevels (Nat.not_le_of_gt (Json.depth_pos _))
  | succ levels ih =>
    apply decodeWith_reordered h he
    intro child hchild hdepth
    apply ih ((finite_iff.1 he).2 child hchild)
    omega

/-- An expression with finite numbers is decoded. -/
theorem decode_reordered {e : Expr} (he : e.Finite) :
  decode (r e.toJson) = .ok e
  := decodeLevels_reordered h he (Nat.le_refl _)

end Expr

/-! ## Statements, functions and programs -/

/-- A statement is decoded. -/
theorem Stmt.decode_reordered {st : Stmt} (hst : st.expr.Finite) :
  Stmt.decode (r st.toJson) = .ok st
  := by
  cases st with
  | const name type init =>
    obtain ⟨members, hr, hvalues⟩ := h.exists_members [("name", .string name),
      ("ty", Json.ofOption ValueType.toJson type), ("init", init.toJson)] (by simp)
    have hinit : Expr.decode (r init.toJson) = .ok init := Expr.decode_reordered h hst
    rw [toJson, h.tagged, hr, decode, Json.variant_tagged (by decide)]
    simp only [bind, Except.bind, Json.fieldsPayload]
    rw [Fields.ofMembers_eq_ok_iff_reads]
    simp (disch := decide) only [Fields.reads_seq, Fields.reads_map]
    simp [Fields.Reads, Fields.required, Fields.withDefault, Fields.ofMembers_field, hvalues, h.string,
      ValueType.decode_option_reordered h, hinit, Decoder.text]
  | ret value =>
    have hvalue : Expr.decode (r value.toJson) = .ok value := Expr.decode_reordered h hst
    rw [toJson, h.tagged]
    show (Expr.decode (r value.toJson)).map ret = _
    rw [hvalue]
    rfl

/-- A parameter is decoded. -/
theorem Param.decode_reordered (p : Param) :
  Param.decode (r p.toJson) = .ok p
  := by
  obtain ⟨members, hr, hvalues⟩ := h.exists_members [("name", .string p.name),
    ("ty", p.type.toJson)] (by simp)
  rw [toJson, hr, decode, Fields.record, Fields.ofMembers_eq_ok_iff_reads]
  simp (disch := decide) only [Fields.reads_two_required]
  simp [Fields.Reads, Fields.required, Fields.ofMembers_field, hvalues, h.string,
    ValueType.decode_reordered h, Decoder.text]

/-- A function is decoded. -/
theorem Function.decode_reordered {f : Function} (hf : ∀ st ∈ f.body, st.expr.Finite) :
  Function.decode (r f.toJson) = .ok f
  := by
  obtain ⟨members, hr, hvalues⟩ := h.exists_members [("name", .string f.name),
    ("params", Json.ofList Param.toJson f.params),
    ("return_type", Json.ofOption ValueType.toJson f.returnType),
    ("body", Json.ofList Stmt.toJson f.body)] (by simp)
  have hparams : Decoder.list Param.decode (r (Json.ofList Param.toJson f.params)) = .ok f.params := by
    rw [h.ofList]
    exact Decoder.list_ofList fun p _ => Param.decode_reordered h p
  have hbody : Decoder.list Stmt.decode (r (Json.ofList Stmt.toJson f.body)) = .ok f.body := by
    rw [h.ofList]
    exact Decoder.list_ofList fun st hst => Stmt.decode_reordered h (hf st hst)
  rw [toJson, hr, decode, Fields.record, Fields.ofMembers_eq_ok_iff_reads]
  simp (disch := decide) only [Fields.reads_seq, Fields.reads_map]
  simp [Fields.Reads, Fields.required, Fields.withDefault, Fields.ofMembers_field, hvalues, h.string,
    ValueType.decode_option_reordered h, hparams, hbody, Decoder.text]

/-- A program with finite numbers is decoded. -/
theorem Program.decode_reordered {p : Program} (hp : p.Finite) :
  Program.decode (r p.toJson) = .ok p
  := by
  obtain ⟨members, hr, hvalues⟩ := h.exists_members [("functions",
    Json.ofList Function.toJson p.functions)] (by simp)
  have hfunctions : Decoder.list Function.decode (r (Json.ofList Function.toJson p.functions))
      = .ok p.functions := by
    rw [h.ofList]
    exact Decoder.list_ofList fun f hf => Function.decode_reordered h (finite_iff.1 hp f hf)
  rw [toJson, hr, decode, Fields.record, Fields.ofMembers_eq_ok_iff_reads]
  simp only [Fields.reads_map]
  simp [Fields.Reads, Fields.required, Fields.ofMembers_field, hvalues, hfunctions]

end

/-! ## What is decoded -/

/-- A constant that is decoded is finite. -/
theorem Literal.finite_of_decode {j : Json} {l : Literal} (h : Literal.decode j = .ok l) :
  (Expr.literal l).Finite
  := by
  rw [Expr.finite_iff]
  refine ⟨?_, by simp [Expr.children]⟩
  rintro b ⟨⟩
  obtain ⟨⟨tag, payload⟩, -, h⟩ := bind_eq_ok_iff.1 h
  dsimp only at h
  split at h
  · obtain ⟨b', hnumber, ⟨⟩⟩ := bind_eq_ok_iff.1 h
    obtain ⟨j', hj'⟩ := Json.exists_of_onePayload hnumber
    exact Json.isFinite_of_number hj'
  · obtain ⟨s, -, ⟨⟩⟩ := bind_eq_ok_iff.1 h

namespace Expr

section

variable {part : Decoder Expr} (hpart : ∀ j e, part j = .ok e → e.Finite)

include hpart

/-- A part that must be there has finite numbers when parts that are decoded have. -/
theorem finite_of_required {name : String} {members : List (String × Json)} {e : Expr}
    (h : (Fields.required name part).ofMembers members = .ok e) :
  e.Finite
  := by
  obtain ⟨j, hj⟩ := Fields.exists_of_required h
  exact hpart j e hj

/-- So has an expression that is decoded. -/
theorem finite_of_decodeWith {j : Json} {e : Expr} (h : decodeWith part j = .ok e) :
  e.Finite
  := by
  obtain ⟨⟨tag, payload⟩, -, h⟩ := bind_eq_ok_iff.1 h
  dsimp only at h
  split at h
  · obtain ⟨l, hliteral, ⟨⟩⟩ := bind_eq_ok_iff.1 h
    obtain ⟨j', hj'⟩ := Json.exists_of_onePayload hliteral
    exact Literal.finite_of_decode hj'
  · obtain ⟨name, -, ⟨⟩⟩ := bind_eq_ok_iff.1 h
    simp [Finite, numbers]
  all_goals
    obtain ⟨members, hmembers⟩ := Json.exists_of_fieldsPayload h
    rw [Fields.ofMembers_eq_ok_iff_reads] at hmembers
    simp (disch := decide) only [Fields.reads_two_required, Fields.reads_three_required] at hmembers
    rw [finite_iff]
  · obtain ⟨left, hleft, op, -, right, hright, rfl⟩ := hmembers
    simp [children, finite_of_required hpart hleft, finite_of_required hpart hright]
  · obtain ⟨test, htest, consequent, hconsequent, alternate, halternate, rfl⟩ := hmembers
    simp [children, finite_of_required hpart htest, finite_of_required hpart hconsequent,
      finite_of_required hpart halternate]
  · obtain ⟨callee, hcallee, args, hargs, rfl⟩ := hmembers
    obtain ⟨j', hj'⟩ := Fields.exists_of_required hargs
    have hfinite : ∀ arg ∈ args, arg.Finite := by
      intro arg harg
      obtain ⟨j'', hj''⟩ := Decoder.exists_of_mem_list hj' harg
      exact hpart j'' arg hj''
    simpa [children, finite_of_required hpart hcallee] using hfinite
  · obtain ⟨object, hobject, property, -, rfl⟩ := hmembers
    simp [children, finite_of_required hpart hobject]
  · obtain ⟨object, hobject, key, hkey, rfl⟩ := hmembers
    simp [children, finite_of_required hpart hobject, finite_of_required hpart hkey]

end

/-- An expression that is decoded by some levels has finite numbers. -/
theorem finite_of_decodeLevels {levels : Nat} {j : Json} {e : Expr}
    (h : decodeLevels levels j = .ok e) :
  e.Finite
  := by
  induction levels generalizing j e with
  | zero => cases h
  | succ levels ih => exact finite_of_decodeWith (fun _ _ => ih) h

end Expr

/-- A statement that is decoded has finite numbers. -/
theorem Stmt.finite_of_decode {j : Json} {st : Stmt} (h : Stmt.decode j = .ok st) :
  st.expr.Finite
  := by
  obtain ⟨⟨tag, payload⟩, -, h⟩ := bind_eq_ok_iff.1 h
  dsimp only at h
  split at h
  · obtain ⟨members, hmembers⟩ := Json.exists_of_fieldsPayload h
    rw [Fields.ofMembers_eq_ok_iff_reads] at hmembers
    simp (disch := decide) only [Fields.reads_seq, Fields.reads_map] at hmembers
    obtain ⟨name, -, type, -, init, hinit, rfl⟩ := hmembers
    obtain ⟨j', hj'⟩ := Fields.exists_of_required hinit
    exact Expr.finite_of_decodeLevels hj'
  · obtain ⟨value, hvalue, ⟨⟩⟩ := bind_eq_ok_iff.1 h
    obtain ⟨j', hj'⟩ := Json.exists_of_onePayload hvalue
    exact Expr.finite_of_decodeLevels hj'

/-- The statements of a function that is decoded have finite numbers. -/
theorem Function.finite_of_decode {j : Json} {f : Function} (h : Function.decode j = .ok f) :
  ∀ st ∈ f.body, st.expr.Finite
  := by
  obtain ⟨members, hmembers⟩ := Json.exists_of_record h
  rw [Fields.ofMembers_eq_ok_iff_reads] at hmembers
  simp (disch := decide) only [Fields.reads_seq, Fields.reads_map] at hmembers
  obtain ⟨name, -, params, -, returnType, -, body, hbody, rfl⟩ := hmembers
  intro st hst
  obtain ⟨j', hj'⟩ := Fields.exists_of_required hbody
  obtain ⟨j'', hj''⟩ := Decoder.exists_of_mem_list hj' hst
  exact Stmt.finite_of_decode hj''

namespace Program

/-- A program that is decoded has finite numbers. -/
theorem finite_of_decode {j : Json} {p : Program} (h : decode j = .ok p) :
  p.Finite
  := by
  obtain ⟨members, hmembers⟩ := Json.exists_of_record h
  rw [Fields.ofMembers_eq_ok_iff_reads, Fields.reads_map] at hmembers
  obtain ⟨functions, hfunctions, rfl⟩ := hmembers
  rw [finite_iff]
  intro f hf
  obtain ⟨j', hj'⟩ := Fields.exists_of_required hfunctions
  obtain ⟨j'', hj''⟩ := Decoder.exists_of_mem_list hj' hf
  exact Function.finite_of_decode hj''

/-- Programs go through JSON and back. A program is decoded from what it is encoded to exactly when its
numbers are finite, as it is or with the members of objects in key order. And whatever is decoded can be
encoded and decoded again. -/
theorem decode_toJson_iff_finite :
  (∀ p : Program, decode p.toJson = .ok p ↔ p.Finite)
  ∧ (∀ p : Program, decode p.toJson.sorted = .ok p ↔ p.Finite)
  ∧ ∀ (j : Json) (p : Program), decode j = .ok p →
    decode p.toJson = .ok p ∧ decode p.toJson.sorted = .ok p
  := by
  refine ⟨fun p => ⟨finite_of_decode, ?_⟩, fun p => ⟨finite_of_decode, ?_⟩, ?_⟩
  · exact decode_reordered Json.reorders_id
  · exact decode_reordered Json.reorders_sorted
  · intro j p h
    have hp := finite_of_decode h
    exact ⟨decode_reordered Json.reorders_id hp, decode_reordered Json.reorders_sorted hp⟩

/-- A program with an expression of every kind. -/
def everyKind : Program where
  functions := [⟨"pick", [⟨"xs", ⟨.string, true⟩⟩, ⟨"n", ⟨.number, false⟩⟩], none,
    [.const "item" none
        (.index (.ident "xs") (.binary (.ident "n") .sub (.literal (.number (.ofNat 1))))),
      .const "long" (some ⟨.boolean, false⟩)
        (.binary (.member (.ident "item") "length") .gt (.literal (.number .zero))),
      .ret (.conditional (.ident "long") (.call (.ident "pick") [.ident "xs", .ident "n"])
        (.literal (.string "a \"quoted\" line\n")))]⟩]

/-- A function that is given by the list of its fields, with a declaration whose type is left out. A
record has a field of no meaning, a type is given by the list of its fields, and its name is a key. -/
def sparseProgram : Json :=
  .object [("note", .array []), ("functions", .array [.array [.string "f",
    .array [.object [("ty", .array [.object [("Number", .null)], .bool true]), ("x", .int 1),
      ("name", .string "xs")]],
    .null,
    .array [.object [("Const", .object [
        ("init", .object [("Literal", .object [("Number", .int (-2))])]), ("name", .string "c")])],
      .object [("Return", .object [("Ident", .string "c")])]]]])]

/-- The program of that value. -/
def sparseFunction : Program where
  functions := [⟨"f", [⟨"xs", ⟨.number, true⟩⟩], none,
    [.const "c" none (.literal (.number (Binary64.ofNat 2).negate)), .ret (.ident "c")]⟩]

/-- The program with every kind of expression goes through JSON and back, in both orders, and so does what is
decoded from the function that is given by the list of its fields. -/
theorem decode_toJson_iff_finite_everyKind :
  decode everyKind.toJson = .ok everyKind
  ∧ decode everyKind.toJson.sorted = .ok everyKind
  ∧ decode sparseProgram = .ok sparseFunction
  ∧ decode sparseFunction.toJson.sorted = .ok sparseFunction
  := by
  have hfinite : everyKind.Finite := by
    decide +kernel
  have hsparse : decode sparseProgram = .ok sparseFunction := by
    rfl
  obtain ⟨hencoded, hsorted, hagain⟩ := decode_toJson_iff_finite
  exact ⟨(hencoded everyKind).2 hfinite, (hsorted everyKind).2 hfinite, hsparse,
    (hagain _ _ hsparse).2⟩

end Program

end Patchboard
