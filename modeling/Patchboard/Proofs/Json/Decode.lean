import Patchboard.Json.Decode
import Mathlib.Data.List.Forall2

/-!
# What decoders accept

A list is decoded item by item. The members of a record are read one after another, and each is
handed to the field of its name. Where a field stands does not matter to it: it sees the values of its
own name alone, and two records that share no name are read from the same members as if each were
alone.
-/

namespace Patchboard.Json

variable {α β γ δ : Type}

/-! ## Lists -/

namespace Decoder

variable {decode : Decoder α}

/-- Items are decoded one by one. -/
theorem mapM_eq_ok_iff {items : List Json} {as : List α} :
  items.mapM decode = .ok as ↔ List.Forall₂ (fun j a => decode j = .ok a) items as
  := by
  induction items generalizing as with
  | nil =>
    rw [List.mapM_nil, List.forall₂_nil_left_iff]
    show Except.ok [] = _ ↔ _
    simp [eq_comm]
  | cons j rest ih =>
    rw [List.mapM_cons, List.forall₂_cons_left_iff]
    cases decode j with
    | error f => simp [bind, Except.bind]
    | ok a =>
      simp only [← ih]
      cases rest.mapM decode with
      | error f => simp [bind, Except.bind]
      | ok as => simp [bind, Except.bind, pure, Except.pure, eq_comm]

/-- A list is decoded from its items. -/
theorem list_eq_ok_iff {j : Json} {as : List α} :
  list decode j = .ok as
    ↔ ∃ items, j = .array items ∧ List.Forall₂ (fun j a => decode j = .ok a) items as
  := by
  cases j with
  | array items =>
    rw [list, mapM_eq_ok_iff]
    simp
  | _ => simp [list, mismatch]

/-- Every item of a list that is decoded was decoded from a value. -/
theorem exists_of_mem_list {j : Json} {as : List α} (h : list decode j = .ok as) {a : α}
    (ha : a ∈ as) :
  ∃ j', decode j' = .ok a
  := by
  obtain ⟨items, -, hitems⟩ := list_eq_ok_iff.1 h
  clear h
  induction hitems with
  | nil => cases ha
  | cons hj _ ih =>
    rcases List.mem_cons.1 ha with rfl | ha
    · exact ⟨_, hj⟩
    · exact ih ha

section Written

variable {encode : α → Json} {as : List α} (h : ∀ a ∈ as, decode (encode a) = .ok a)

include h

theorem mapM_map_encode :
  (as.map encode).mapM decode = .ok as
  := by
  rw [mapM_eq_ok_iff, List.forall₂_map_left_iff, List.forall₂_same]
  exact h

/-- A list is read as it was written when its items are. -/
theorem list_ofList :
  list decode (Json.ofList encode as) = .ok as
  := mapM_map_encode h

/-- So is a list of fixed length. -/
theorem array_ofList :
  array as.length decode (Json.ofList encode as) = .ok as
  := by
  have hlength : (as.map encode).length = as.length := List.length_map encode
  have htake : (as.map encode).take as.length = as.map encode := by
    rw [← hlength, List.take_length]
  rw [Json.ofList, array, htake, mapM_map_encode h, hlength]
  simp [bind, Except.bind, pure, Except.pure]

end Written

end Decoder

/-! ## The values of a name -/

/-- The values of a name, in the order in which they are written. -/
def valuesOf (members : List (String × Json)) (name : String) : List Json :=
  members.filterMap fun (key, j) => if key = name then some j else none

@[simp]
theorem valuesOf_nil (name : String) :
  valuesOf [] name = []
  := rfl

@[simp]
theorem valuesOf_cons_self (name : String) (j : Json) (members : List (String × Json)) :
  valuesOf ((name, j) :: members) name = j :: valuesOf members name
  := by
  simp [valuesOf]

@[simp]
theorem valuesOf_cons_of_ne {key name : String} (h : key ≠ name) (j : Json)
    (members : List (String × Json)) :
  valuesOf ((key, j) :: members) name = valuesOf members name
  := by
  simp [valuesOf, h]

namespace Fields

section Reading

variable {fields : Fields α} {key : String} {j : Json}

/-- A member that is no field is passed over. -/
theorem readMembers_of_step_eq_none (h : fields.step key j = none) (s : fields.State)
    (rest : List (String × Json)) :
  fields.readMembers s ((key, j) :: rest) = fields.readMembers s rest
  := by
  simp only [readMembers, h]

/-- A member that is a field is read before the others. -/
theorem readMembers_of_step_eq_some {read : fields.State → Except Fault fields.State}
    (h : fields.step key j = some read) (s : fields.State) (rest : List (String × Json)) :
  fields.readMembers s ((key, j) :: rest) = (read s).bind fun s => fields.readMembers s rest
  := by
  simp only [readMembers, h]
  cases read s <;> rfl

/-- A record is read when its members are and it is whole then. -/
theorem ofMembers_eq_ok_iff {members : List (String × Json)} {a : α} :
  fields.ofMembers members = .ok a
    ↔ ∃ s, fields.readMembers fields.start members = .ok s ∧ fields.finish s = .ok a
  := by
  rw [ofMembers]
  cases fields.readMembers fields.start members with
  | error f => simp [bind, Except.bind]
  | ok s => simp [bind, Except.bind]

/-- The members give the record, and it is one that is wanted. -/
def Reads (fields : Fields α) (members : List (String × Json)) (wanted : α → Prop) : Prop :=
  ∃ a, fields.ofMembers members = .ok a ∧ wanted a

theorem ofMembers_eq_ok_iff_reads {members : List (String × Json)} {a : α} :
  fields.ofMembers members = .ok a ↔ fields.Reads members (· = a)
  := by
  simp [Reads]

end Reading

/-! ## A single field -/

section Field

variable (name : String) (decode : Decoder α) (absent : Except Fault α)
  (members : List (String × Json))

theorem step_field_of_ne {key : String} (h : key ≠ name) (j : Json) :
  (field name decode absent).step key j = none
  := if_neg h

/-- What becomes of a field at a value of its name. -/
def readField (j : Json) : Option α → Except Fault (Option α)
  | some _ => .error (.repeatedField name)
  | none => (decode j).map some

theorem step_field_self (j : Json) :
  (field name decode absent).step name j = some (readField name decode j)
  := by
  simp only [field, if_true]
  congr

/-- A field that has been read must not come again. -/
theorem readMembers_field_some (a : α) :
  (field name decode absent).readMembers (some a) members
    = match valuesOf members name with
      | [] => .ok (some a)
      | _ :: _ => .error (.repeatedField name)
  := by
  induction members with
  | nil => rfl
  | cons member rest ih =>
    obtain ⟨key, j⟩ := member
    by_cases h : key = name
    · subst h
      rw [valuesOf_cons_self]
      exact readMembers_of_step_eq_some (step_field_self key decode absent j) _ _
    · rw [valuesOf_cons_of_ne h, ← ih]
      exact readMembers_of_step_eq_none (step_field_of_ne name decode absent h j) _ _

/-- A field takes the value of its name. -/
theorem readMembers_field_none :
  (field name decode absent).readMembers none members
    = match valuesOf members name with
      | [] => .ok none
      | [j] => (decode j).map some
      | j :: _ :: _ => (decode j).bind fun _ => .error (.repeatedField name)
  := by
  induction members with
  | nil => rfl
  | cons member rest ih =>
    obtain ⟨key, j⟩ := member
    by_cases h : key = name
    · subst h
      rw [valuesOf_cons_self]
      apply Eq.trans (readMembers_of_step_eq_some (step_field_self key decode absent j) _ _)
      rw [readField]
      cases hj : decode j with
      | error f => cases valuesOf rest key <;> simp only [hj] <;> rfl
      | ok a =>
        apply Eq.trans (readMembers_field_some key decode absent rest a)
        cases valuesOf rest key <;> simp only [hj] <;> rfl
    · rw [valuesOf_cons_of_ne h, ← ih]
      exact readMembers_of_step_eq_none (step_field_of_ne name decode absent h j) _ _

/-- A field is decoded from the only value of its name. -/
theorem ofMembers_field :
  (field name decode absent).ofMembers members
    = match valuesOf members name with
      | [] => absent
      | [j] => decode j
      | j :: _ :: _ => (decode j).bind fun _ => .error (.repeatedField name)
  := by
  show ((field name decode absent).readMembers none members).bind _ = _
  rw [readMembers_field_none]
  split
  · rfl
  · next j _ => cases decode j <;> rfl
  · next j _ _ _ => cases decode j <;> rfl

end Field

/-- A field that must be there was decoded from a value. -/
theorem exists_of_required {name : String} {decode : Decoder α} {members : List (String × Json)}
    {a : α} (h : (required name decode).ofMembers members = .ok a) :
  ∃ j, decode j = .ok a
  := by
  rw [required, ofMembers_field] at h
  split at h
  · cases h
  · next j _ => exact ⟨j, h⟩
  · next j _ _ _ => cases hj : decode j <;> rw [hj] at h <;> cases h

/-! ## Several fields -/

/-- A record reads the members of its names, and no others. -/
class Named (fields : Fields α) : Prop where
  isSome_step : ∀ key j, (fields.step key j).isSome ↔ key ∈ fields.names

instance (name : String) (decode : Decoder α) (absent : Except Fault α) :
    Named (field name decode absent) where
  isSome_step key j := by
    by_cases h : key = name <;> simp [field, h]

instance (name : String) (decode : Decoder α) :
    Named (required name decode) :=
  inferInstanceAs (Named (field ..))

instance (name : String) (decode : Decoder α) (default : α) :
    Named (withDefault name decode default) :=
  inferInstanceAs (Named (field ..))

instance (f : α → β) (fields : Fields α) [h : Named fields] : Named (f <$> fields) where
  isSome_step := h.isSome_step

instance (f : Fields (α → β)) (fields : Fields α) [hf : Named f] [h : Named fields] :
    Named (f <*> fields) where
  isSome_step key j := by
    show (Fields.step (both _ f fields) key j).isSome ↔ key ∈ f.names ++ fields.names
    rw [List.mem_append, ← hf.isSome_step key j, ← h.isSome_step key j]
    cases hstep : f.step key j <;> simp [both, hstep]

@[simp]
theorem names_required (name : String) (decode : Decoder α) :
  (required name decode).names = [name]
  := rfl

@[simp]
theorem names_withDefault (name : String) (decode : Decoder α) (default : α) :
  (withDefault name decode default).names = [name]
  := rfl

@[simp]
theorem names_map (f : α → β) (fields : Fields α) :
  (f <$> fields).names = fields.names
  := rfl

@[simp]
theorem names_seq (f : Fields (α → β)) (fields : Fields α) :
  (f <*> fields).names = f.names ++ fields.names
  := rfl

theorem readMembers_map (f : α → β) (fields : Fields α) (s : fields.State)
    (members : List (String × Json)) :
  (f <$> fields).readMembers s members = fields.readMembers s members
  := by
  induction members generalizing s with
  | nil => rfl
  | cons member rest ih =>
    obtain ⟨key, j⟩ := member
    cases h : fields.step key j with
    | none =>
      have h' : (f <$> fields).step key j = none := h
      rw [readMembers_of_step_eq_none h, readMembers_of_step_eq_none h']
      exact ih s
    | some read =>
      have h' : (f <$> fields).step key j = some read := h
      rw [readMembers_of_step_eq_some h, readMembers_of_step_eq_some h']
      congr
      funext s
      exact ih s

section Both

variable {f : Fields α} {g : Fields β} [hf : Named f] [hg : Named g] (make : α → β → γ)

/-- A field of the first record is no field of the second when they share no name. -/
theorem step_eq_none_of_disjoint (h : ∀ key ∈ f.names, key ∉ g.names) {key : String} {j : Json}
    (hstep : (f.step key j).isSome) :
  g.step key j = none
  := by
  rw [← Option.not_isSome_iff_eq_none, hg.isSome_step]
  exact h key ((hf.isSome_step key j).1 hstep)

/-- Two records that share no name are read side by side. -/
theorem readMembers_both (h : ∀ key ∈ f.names, key ∉ g.names) {s s' : f.State} {t t' : g.State}
    (members : List (String × Json)) :
  (both make f g).readMembers (s, t) members = .ok (s', t')
    ↔ f.readMembers s members = .ok s' ∧ g.readMembers t members = .ok t'
  := by
  induction members generalizing s t with
  | nil =>
    show Except.ok (s, t) = Except.ok (s', t')
      ↔ Except.ok s = Except.ok s' ∧ Except.ok t = Except.ok t'
    simp
  | cons member rest ih =>
    obtain ⟨key, j⟩ := member
    cases hl : f.step key j with
    | some read =>
      have hr : g.step key j = none := step_eq_none_of_disjoint h (by rw [hl]; rfl)
      have hboth : (both make f g).step key j
          = some fun (l, r) => (read l).map fun l => (l, r) := by
        simp only [both, hl]
      rw [readMembers_of_step_eq_some hboth (s, t) rest, readMembers_of_step_eq_some hl,
        readMembers_of_step_eq_none hr]
      show ((read s).map fun l => (l, t)).bind _ = _ ↔ (read s).bind _ = _ ∧ _
      cases read s with
      | error e => simp [Except.map, Except.bind]
      | ok s => exact ih
    | none =>
      cases hr : g.step key j with
      | none =>
        have hboth : (both make f g).step key j = none := by
          simp only [both, hl, hr, Option.map_none]
        rw [readMembers_of_step_eq_none hboth (s, t) rest, readMembers_of_step_eq_none hl,
          readMembers_of_step_eq_none hr]
        exact ih
      | some read =>
        have hboth : (both make f g).step key j
            = some fun (l, r) => (read r).map fun r => (l, r) := by
          simp only [both, hl, hr, Option.map_some]
        rw [readMembers_of_step_eq_some hboth (s, t) rest, readMembers_of_step_eq_none hl,
          readMembers_of_step_eq_some hr]
        show ((read t).map fun r => (s, r)).bind _ = _ ↔ _ ∧ (read t).bind _ = _
        cases read t with
        | error e => simp [Except.map, Except.bind]
        | ok t => exact ih

/-- A record made of two that share no name is whole when both are. -/
theorem reads_both (h : ∀ key ∈ f.names, key ∉ g.names) {members : List (String × Json)}
    {wanted : γ → Prop} :
  (both make f g).Reads members wanted
    ↔ f.Reads members fun a => g.Reads members fun b => wanted (make a b)
  := by
  have hfinish (s : f.State) (t : g.State) (c : γ) : (both make f g).finish (s, t) = .ok c
      ↔ ∃ a, f.finish s = .ok a ∧ ∃ b, g.finish t = .ok b ∧ make a b = c := by
    show (f.finish s >>= fun a => g.finish t >>= fun b => pure (make a b)) = .ok c ↔ _
    cases f.finish s <;> cases g.finish t <;>
      simp [bind, Except.bind, pure, Except.pure]
  constructor
  · rintro ⟨c, hok, hc⟩
    obtain ⟨⟨s, t⟩, hread, hok⟩ := ofMembers_eq_ok_iff.1 hok
    obtain ⟨hs, ht⟩ := (readMembers_both make h members).1 hread
    obtain ⟨a, ha, b, hb, rfl⟩ := (hfinish s t c).1 hok
    exact ⟨a, ofMembers_eq_ok_iff.2 ⟨s, hs, ha⟩, b, ofMembers_eq_ok_iff.2 ⟨t, ht, hb⟩, hc⟩
  · rintro ⟨a, ha, b, hb, hc⟩
    obtain ⟨s, hs, ha⟩ := ofMembers_eq_ok_iff.1 ha
    obtain ⟨t, ht, hb⟩ := ofMembers_eq_ok_iff.1 hb
    use make a b
    rw [ofMembers_eq_ok_iff]
    exact ⟨⟨(s, t), (readMembers_both make h members).2 ⟨hs, ht⟩,
      (hfinish s t _).2 ⟨a, ha, b, hb, rfl⟩⟩, hc⟩

end Both

/-- What is made of a record is made of it when it is read. -/
@[simp]
theorem reads_map {f : α → β} {fields : Fields α} {members : List (String × Json)}
    {wanted : β → Prop} :
  (f <$> fields).Reads members wanted ↔ fields.Reads members fun a => wanted (f a)
  := by
  have hread : (f <$> fields).ofMembers members = (fields.ofMembers members).map f := by
    rw [ofMembers, ofMembers]
    apply Eq.trans (congrArg (· >>= _) (readMembers_map f fields _ members))
    cases fields.readMembers fields.start members <;> rfl
  rw [Reads, Reads, hread]
  cases fields.ofMembers members <;> simp [Except.map]

/-- One more field is read beside the fields before it. -/
theorem reads_seq {f : Fields (α → β)} {g : Fields α} [Named f] [Named g]
    {members : List (String × Json)} {wanted : β → Prop} (h : ∀ key ∈ f.names, key ∉ g.names) :
  (f <*> g).Reads members wanted
    ↔ f.Reads members fun k => g.Reads members fun a => wanted (k a)
  := reads_both _ h

section Required

variable {name name' name'' : String} {decode : Decoder α} {decode' : Decoder β}
  {decode'' : Decoder γ} {members : List (String × Json)}

/-- Two fields that must be there are read side by side. -/
theorem reads_two_required {make : α → β → δ} {wanted : δ → Prop} (h : name ≠ name') :
  (make <$> required name decode <*> required name' decode').Reads members wanted
    ↔ (required name decode).Reads members fun a =>
      (required name' decode').Reads members fun b => wanted (make a b)
  := by
  rw [reads_seq (by simpa using h), reads_map]

/-- And so are three. -/
theorem reads_three_required {make : α → β → γ → δ} {wanted : δ → Prop} (h : name ≠ name')
    (h' : name ≠ name'') (h'' : name' ≠ name'') :
  (make <$> required name decode <*> required name' decode' <*> required name'' decode'').Reads
      members wanted
    ↔ (required name decode).Reads members fun a =>
      (required name' decode').Reads members fun b =>
        (required name'' decode'').Reads members fun c => wanted (make a b c)
  := by
  rw [reads_seq (by simpa using ⟨h', h''⟩), reads_two_required h]

end Required

end Fields

/-! ## Records and variants -/

section

variable {fields : Fields α} {a : α}

/-- A variant is known by the key of its payload. -/
theorem variant_tagged {known : List String} {tag : String} (h : tag ∈ known) (payload : Json) :
  variant known (.tagged tag payload) = .ok (tag, some payload)
  := by
  show (if tag ∈ known then _ else _) = _
  rw [if_pos h]
  rfl

/-- A payload with one value was decoded from it. -/
theorem exists_of_onePayload {decode : Decoder α} {payload : Option Json}
    (h : onePayload decode payload = .ok a) :
  ∃ j, decode j = .ok a
  := by
  cases payload with
  | none => cases h
  | some j => exact ⟨j, h⟩

/-- A payload with fields was read from members. -/
theorem exists_of_fieldsPayload {payload : Option Json} (h : fieldsPayload fields payload = .ok a) :
  ∃ members, fields.ofMembers members = .ok a
  := by
  cases payload with
  | none => cases h
  | some j =>
    cases j with
    | object members => exact ⟨members, h⟩
    | _ => cases h

/-- The list of the fields of a record is read as members of these names. -/
theorem ofMembers_of_ofItems {name : String} {short : Bool} {items : List Json}
    (h : fields.ofItems name short items = .ok a) :
  fields.ofMembers (fields.names.zip items) = .ok a
  := by
  rw [Fields.ofItems] at h
  rw [Fields.ofMembers]
  cases hread : fields.readMembers fields.start (fields.names.zip items) with
  | error f =>
    rw [hread] at h
    cases h
  | ok s =>
    rw [hread] at h
    simp only [bind, Except.bind] at h
    split at h
    · cases h
    · split at h
      · cases h
      · exact h

/-- A record was read from members, or from its fields as if they were members. -/
theorem exists_of_record {name : String} {short : Bool} {j : Json}
    (h : fields.record name short j = .ok a) :
  ∃ members, fields.ofMembers members = .ok a
  := by
  cases j with
  | object members => exact ⟨members, h⟩
  | array items => exact ⟨_, ofMembers_of_ofItems h⟩
  | _ => cases h

end

end Patchboard.Json
