import Mathlib.Data.List.Nodup
import Patchboard.Proofs.Json.Decode

/-!
# The order of members

The members of an object may be written in any order when no key comes twice: a record takes the same
values from them. So a value may be decoded as it is, or with the members of its objects sorted, or in
another order at any depth.
-/

namespace Patchboard.Json

/-! ## Values of a name -/

variable {members : List (String × Json)} {name : String} {j : Json}

theorem mem_of_mem_valuesOf (h : j ∈ valuesOf members name) :
  (name, j) ∈ members
  := by
  obtain ⟨⟨key, j'⟩, hmem, hj⟩ := List.mem_filterMap.1 h
  dsimp only at hj
  split at hj
  · next hkey =>
    subst hkey
    obtain rfl := Option.some.inj hj
    exact hmem
  · cases hj

/-- A value of a name is less deep than its object. -/
theorem depth_lt_of_mem_valuesOf (h : j ∈ valuesOf members name) :
  j.depth < (Json.object members).depth
  := by
  rw [depth]
  apply Nat.lt_succ_of_le
  apply depth_le_of_mem_members (mem_of_mem_valuesOf h)

/-- An item is less deep than its list. -/
theorem depth_lt_of_mem {items : List Json} (h : j ∈ items) :
  j.depth < (Json.array items).depth
  := by
  rw [depth]
  apply Nat.lt_succ_of_le
  apply depth_le_of_mem_items h

/-- A name has one value at most when no key comes twice. -/
theorem length_valuesOf_le (h : (members.map Prod.fst).Nodup) (name : String) :
  (valuesOf members name).length ≤ 1
  := by
  induction members with
  | nil => exact Nat.zero_le 1
  | cons member rest ih =>
    obtain ⟨key, j⟩ := member
    obtain ⟨hkey, hrest⟩ := List.nodup_cons.1 h
    by_cases hname : key = name
    · subst hname
      have hnone : valuesOf rest key = [] := by
        apply List.eq_nil_iff_forall_not_mem.2
        intro j' hj'
        apply hkey
        apply List.mem_map_of_mem (f := Prod.fst) (mem_of_mem_valuesOf hj')
      rw [valuesOf_cons_self, hnone]
      exact Nat.le_refl 1
    · rw [valuesOf_cons_of_ne hname]
      exact ih hrest

/-- The values of a name are changed as the members are. -/
theorem valuesOf_map (r : Json → Json) (members : List (String × Json)) (name : String) :
  valuesOf (members.map (Prod.map id r)) name = (valuesOf members name).map r
  := by
  induction members with
  | nil => rfl
  | cons member rest ih =>
    obtain ⟨key, j⟩ := member
    rw [List.map_cons, Prod.map_apply, id]
    by_cases hname : key = name
    · subst hname
      rw [valuesOf_cons_self, valuesOf_cons_self, ih, List.map_cons]
    · rw [valuesOf_cons_of_ne hname, valuesOf_cons_of_ne hname, ih]

/-! ## Other orders -/

/-- Writes the members of every object that repeats no key in some order, and leaves all else as it
is. -/
structure Reorders (r : Json → Json) : Prop where
  object : ∀ members, (members.map Prod.fst).Nodup →
    ∃ members', r (.object members) = .object members' ∧
      members'.Perm (members.map (Prod.map id r))
  array : ∀ items, r (.array items) = .array (items.map r)
  null : r .null = .null
  bool : ∀ b, r (.bool b) = .bool b
  real : ∀ b h, r (.real b h) = .real b h
  string : ∀ s, r (.string s) = .string s

namespace Reorders

variable {α : Type} {r : Json → Json} (h : Reorders r)

include h

/-- In another order each name has the same value. -/
theorem exists_members (members : List (String × Json)) (hkeys : (members.map Prod.fst).Nodup) :
  ∃ members', r (.object members) = .object members' ∧
    ∀ name, valuesOf members' name = (valuesOf members name).map r
  := by
  obtain ⟨members', hr, hperm⟩ := h.object members hkeys
  refine ⟨members', hr, ?_⟩
  intro name
  have hvalues : (valuesOf members' name).Perm ((valuesOf members name).map r) := by
    rw [← valuesOf_map]
    apply hperm.filterMap
  have hlength := length_valuesOf_le hkeys name
  match hone : valuesOf members name with
  | [] =>
    rw [hone] at hvalues
    exact hvalues.eq_nil
  | [j] =>
    rw [hone] at hvalues
    exact hvalues.eq_singleton
  | _ :: _ :: _ =>
    rw [hone] at hlength
    exact absurd hlength (by simp)

/-- A single member has one order. -/
theorem tagged (tag : String) (payload : Json) :
  r (.tagged tag payload) = .tagged tag (r payload)
  := by
  obtain ⟨members', hr, hperm⟩ := h.object [(tag, payload)] (List.nodup_singleton tag)
  rw [Json.tagged, hr, hperm.eq_singleton]
  rfl

/-- The items of a list stay in order. -/
theorem ofList (encode : α → Json) (as : List α) :
  r (Json.ofList encode as) = Json.ofList (fun a => r (encode a)) as
  := by
  rw [Json.ofList, h.array, List.map_map]
  rfl

end Reorders

/-- Values may be left as they are. -/
theorem reorders_id :
  Reorders id
  where
  object members _ := ⟨members, rfl, by rw [Prod.map_id, List.map_id]⟩
  array items := by rw [List.map_id, id]
  null := rfl
  bool _ := rfl
  real _ _ := rfl
  string _ := rfl

/-! ## Members in key order -/

theorem sortedItems_eq_map (items : List Json) :
  sortedItems items = items.map sorted
  := by
  induction items with
  | nil => rw [sortedItems, List.map_nil]
  | cons item rest ih => rw [sortedItems, List.map_cons, ih]

/-- A member of a new key is put among the others. -/
theorem perm_insertMember {key : String} {value : Json} (h : key ∉ members.map Prod.fst) :
  (insertMember key value members).Perm ((key, value) :: members)
  := by
  induction members with
  | nil => exact .refl _
  | cons member rest ih =>
    obtain ⟨key', value'⟩ := member
    rw [List.map_cons, List.mem_cons, not_or] at h
    rw [insertMember, if_neg h.1]
    split
    · exact .refl _
    · apply ((ih h.2).cons _).trans
      apply List.Perm.swap

/-- Members without repeated keys are sorted into others without losing any. -/
theorem perm_sortedMembers {done : List (String × Json)}
    (h : (members.map Prod.fst ++ done.map Prod.fst).Nodup) :
  (sortedMembers members done).Perm (members.map (Prod.map id sorted) ++ done)
  := by
  induction members generalizing done with
  | nil =>
    rw [sortedMembers]
    exact .refl _
  | cons member rest ih =>
    obtain ⟨key, value⟩ := member
    rw [List.map_cons, List.cons_append, List.nodup_cons, List.mem_append, not_or] at h
    obtain ⟨⟨hrest, hdone⟩, hnodup⟩ := h
    have hinsert : (insertMember key value.sorted done).Perm ((key, value.sorted) :: done) :=
      perm_insertMember hdone
    have hkeys : (rest.map Prod.fst ++ (insertMember key value.sorted done).map Prod.fst).Nodup := by
      have hperm : (rest.map Prod.fst ++ (insertMember key value.sorted done).map Prod.fst).Perm
          (key :: (rest.map Prod.fst ++ done.map Prod.fst)) := by
        apply ((hinsert.map Prod.fst).append_left _).trans
        apply List.perm_middle
      rw [hperm.nodup_iff, List.nodup_cons, List.mem_append, not_or]
      exact ⟨⟨hrest, hdone⟩, hnodup⟩
    rw [sortedMembers]
    apply (ih hkeys).trans
    apply (hinsert.append_left _).trans
    apply List.perm_middle

/-- Values may be sorted. -/
theorem reorders_sorted :
  Reorders sorted
  where
  object members hkeys := by
    rw [sorted]
    refine ⟨_, rfl, ?_⟩
    have hperm : (sortedMembers members []).Perm (members.map (Prod.map id sorted) ++ []) :=
      perm_sortedMembers (by simpa using hkeys)
    rwa [List.append_nil] at hperm
  array items := by rw [sorted, sortedItems_eq_map]
  null := by rw [sorted] <;> simp
  bool _ := by rw [sorted] <;> simp
  real _ _ := by rw [sorted] <;> simp
  string _ := by rw [sorted] <;> simp

end Patchboard.Json
