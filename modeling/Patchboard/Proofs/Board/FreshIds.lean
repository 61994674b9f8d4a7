import Mathlib.Data.List.Induction
import Mathlib.Data.List.Infix
import Mathlib.Data.List.Nodup
import Mathlib.Data.List.Perm.Subperm
import Patchboard.Board.Codec
import Patchboard.Proofs.Board.InPlace
import Patchboard.Proofs.Board.Runs

/-!
# Fresh ids

The search for a fresh id wraps around, and comes to an end as long as some id is free: with fewer nodes
than ids it cannot have tried them all. A node that is placed under a fresh id stands behind the others,
and no node gives way to it.

Until the next id saturates it is greater than all ids that have ever been on the board, so a fresh id
is new even when nodes have been removed.
-/

namespace Patchboard

namespace Board

variable {b : Board} {id : NodeId}

/-! ## Counting ids -/

/-- Ids that are tried one after another differ until all have been tried. -/
theorem nodup_candidates (start : UInt32) {k : Nat} (hk : k ≤ UInt32.size) :
  ((List.range k).map fun i => NodeId.mk (start + UInt32.ofNat i)).Nodup
  := by
  apply List.Nodup.map_on _ List.nodup_range
  intro i hi j hj h
  rw [List.mem_range] at hi hj
  have hsum : UInt32.ofNat i = UInt32.ofNat j := by
    injection h with h
    exact (UInt32.add_right_inj start).1 h
  have hmod := congrArg UInt32.toNat hsum
  rw [UInt32.toNat_ofNat_of_lt' (Nat.lt_of_lt_of_le hi hk),
    UInt32.toNat_ofNat_of_lt' (Nat.lt_of_lt_of_le hj hk)] at hmod
  exact hmod

/-- With fewer nodes than ids some id is free. -/
theorem exists_freshId? (h : b.nodes.length < UInt32.size) :
  ∃ id, b.freshId? = some id
  := by
  rw [← Option.isSome_iff_exists, ← Option.ne_none_iff_isSome]
  intro hnone
  have htaken : ((List.range (b.nodes.length + 1)).map fun i =>
      NodeId.mk (b.nextId + UInt32.ofNat i)) ⊆ b.ids := by
    intro id hid
    have htried := List.find?_eq_none.1 hnone id hid
    rwa [Bool.not_eq_true', Bool.not_eq_false, contains_iff] at htried
  have hlength := ((nodup_candidates b.nextId h).subperm htaken).length_le
  rw [List.length_map, List.length_range, ids, List.length_map] at hlength
  omega

/-- With as many nodes as ids every id is taken. -/
theorem mem_ids_of_length (h : UInt32.size ≤ b.nodes.length) (id : NodeId) :
  id ∈ b.ids
  := by
  by_contra hid
  have hnodup : ((id :: b.ids).map fun id => id.val.toNat).Nodup := by
    apply List.Nodup.map _ (List.nodup_cons.2 ⟨hid, b.distinct⟩)
    intro i j hij
    cases i
    cases j
    exact congrArg NodeId.mk (UInt32.toNat_inj.1 hij)
  have hsub : ((id :: b.ids).map fun id => id.val.toNat) ⊆ List.range UInt32.size := by
    intro k hk
    obtain ⟨i, -, rfl⟩ := List.mem_map.1 hk
    exact List.mem_range.2 i.val.toNat_lt
  have hlength := (hnodup.subperm hsub).length_le
  rw [List.length_map, List.length_range, List.length_cons, ids, List.length_map] at hlength
  omega

/-! ## The search -/

/-- A candidate that is free ends the search. -/
theorem seek_of_not_contains {c : UInt32} (h : b.contains ⟨c⟩ = false) :
  b.seek c = some ⟨c⟩
  := by
  rw [seek, h, if_neg Bool.false_ne_true]

/-- Candidates that are taken are passed over. -/
theorem seek_of_contains {c : UInt32} {k : Nat}
    (h : ∀ i < k, b.contains ⟨c + UInt32.ofNat i⟩ = true) :
  b.seek c = b.seek (c + UInt32.ofNat k)
  := by
  induction k with
  | zero => simp
  | succ k ih =>
    have htaken := h k (Nat.lt_succ_self k)
    rw [ih fun i hi => h i (Nat.lt_succ_of_lt hi), seek, if_pos htaken]
    congr 1
    simp [UInt32.ofNat_add, UInt32.add_assoc]

/-- The search ends at a free id, or not at all. -/
theorem not_contains_of_seek {c : UInt32} (h : b.seek c = some id) :
  b.contains id = false
  := by
  apply seek.partial_correctness b (fun _ id => b.contains id = false) _ c id h
  intro seek ih c id h
  split at h
  · exact ih _ _ h
  · next hfree =>
    obtain rfl := Option.some.inj h
    rwa [Bool.not_eq_true] at hfree

/-- The search from the next id on finds the first free candidate. -/
theorem seek_eq_freshId? (b : Board) :
  b.seek b.nextId = b.freshId?
  := by
  cases hfresh : b.freshId? with
  | some id =>
    rw [freshId?, List.find?_map, Option.map_eq_some_iff] at hfresh
    obtain ⟨k, hk, rfl⟩ := hfresh
    obtain ⟨hfree, -, htaken⟩ := List.find?_range_eq_some.1 hk
    rw [seek_of_contains (k := k) (by simpa using htaken)]
    apply seek_of_not_contains
    simpa using hfree
  | none =>
    have hfull : UInt32.size ≤ b.nodes.length := by
      by_contra hlt
      obtain ⟨id, hid⟩ := exists_freshId? (Nat.lt_of_not_le hlt)
      rw [hfresh] at hid
      cases hid
    rw [Option.eq_none_iff_forall_not_mem]
    intro id hid
    have hfree := not_contains_of_seek hid
    rw [(b.contains_iff id).2 (mem_ids_of_length hfull id)] at hfree
    cases hfree

/-! ## Placing -/

/-- A node whose id is free is put behind the others. -/
theorem put_of_not_mem {n : Node} (h : n.id ∉ b.ids) :
  b.put n = b.append n b.nextId h
  := dif_neg h

end Board

namespace InPlace

open Board

/-- Steps do not follow steps that go on forever. -/
theorem runOn_bind_none {α β : Type} {b : Board} {steps : InPlace α} {next : α → InPlace β}
    (h : runOn steps b = none) :
  runOn (steps >>= next) b = none
  := run_bind_of_none h

/-- Placing under a fresh id in place is placing under a fresh id, and goes on forever when no id is
free. -/
theorem runOn_add (b : Board) (kind : Kind) (x y : Binary64) :
  runOn (add kind x y) b = (b.add kind x y).map fun (id, b') => (.ok id, b')
  := by
  have hfresh : runOn freshId b = b.freshId?.map fun id =>
      (.ok id, { b with nextId := saturatingNext id.val }) := by
    rw [freshId, runOn_bind_ok (runOn_get b), seek_eq_freshId?]
    cases b.freshId? <;> rfl
  rw [Board.add]
  split
  · next hnone =>
    rw [hnone] at hfresh
    exact runOn_bind_none hfresh
  · next id hid =>
    rw [hid] at hfresh
    rw [add, runOn_bind_ok hfresh]
    have hfree : id ∉ ids { b with nextId := saturatingNext id.val } :=
      not_mem_ids_of_freshId? (b := b) hid
    show some (Except.ok id, Board.put _ ⟨id, x, y, kind⟩) = _
    rw [put_of_not_mem hfree]
    rfl

/-- The steps come to an end with an id that was free, and have put one node behind the others. -/
def PlacesFresh (steps : InPlace NodeId) (kind : Kind) (x y : Binary64) (b : Board) : Prop :=
  ∃ id b', runOn steps b = some (.ok id, b') ∧ id ∉ b.ids ∧ b'.nodes = b.nodes ++ [⟨id, x, y, kind⟩]

/-- With fewer nodes than ids a payload is placed under a fresh id. -/
theorem placesFresh_add {b : Board} (h : b.nodes.length < UInt32.size) (kind : Kind) (x y : Binary64) :
  PlacesFresh (add kind x y) kind x y b
  := by
  obtain ⟨id, hid⟩ := exists_freshId? h
  cases hadd : b.add kind x y with
  | none =>
    rw [Board.add] at hadd
    split at hadd
    · next hnone =>
      rw [hid] at hnone
      cases hnone
    · cases hadd
  | some res =>
    obtain ⟨id, b'⟩ := res
    obtain ⟨-, hnew, hb'⟩ := add_eq_some hadd
    refine ⟨id, b', ?_, hnew, ?_⟩
    · rw [runOn_add, hadd]
      rfl
    · rw [hb']
      rfl

end InPlace

/-! ## Actions -/

/-- Something that is done to a board. -/
inductive Action where
  /-- Places a payload, whatever its wires are, under a fresh id. -/
  | add (kind : Kind) (x y : Binary64)
  /-- Places a whole node, wires included, under its own id. -/
  | insert (n : Node)
  | connect (consumer : NodeId) (slot : Nat) (producer : NodeId)
  | disconnect (consumer : NodeId) (slot : Nat)
  | remove (id : NodeId)
  | move (id : NodeId) (x y : Binary64)
  /-- Reads a board from a text, to stand in the place of the board. -/
  | load (text : String)

/-- The action reads another board. -/
def Action.isLoad : Action → Bool
  | .load _ => true
  | _ => false

namespace Board

variable {b : Board}

/-- The board after an action. An action that fails leaves the board as it was. -/
def act (b : Board) : Action → Board
  | .add kind x y => ((b.add kind x y).map (·.2)).getD b
  | .insert n => (b.insert n).toOption.getD b
  | .connect consumer slot producer => (b.connect consumer slot producer).toOption.join.getD b
  | .disconnect consumer slot => ((b.disconnect consumer slot).toOption.map (·.2)).getD b
  | .remove id => ((b.remove id).toOption.map (·.2)).getD b
  | .move id x y => (b.move id x y).toOption.getD b
  | .load text => (ofText text).toOption.getD b

/-- The board that actions make of the empty one. -/
def after (actions : List Action) : Board :=
  actions.foldl act empty

/-- All ids are below the next one. -/
def Below (b : Board) : Prop :=
  ∀ id ∈ b.ids, id.val < b.nextId

/-- A change that brings no id and leaves the next id alone. -/
structure BringsNone (b b' : Board) : Prop where
  ids : b'.ids ⊆ b.ids
  nextId : b'.nextId = b.nextId

/-- An action that is no load brings no id, or it places a node. -/
theorem act_cases (b : Board) {a : Action} (ha : a.isLoad = false) :
  BringsNone b (b.act a)
    ∨ (∃ kind x y id, b.add kind x y = some (id, b.act a))
    ∨ ∃ n, b.insert n = .ok (b.act a)
  := by
  have hself : BringsNone b b := ⟨List.Subset.refl _, rfl⟩
  have hkinds (f) : BringsNone b (b.mapKinds f) := by
    constructor
    · rw [ids_mapKinds]
      exact List.Subset.refl _
    · rfl
  cases a with
  | add kind x y =>
    rw [act]
    cases hadd : b.add kind x y with
    | none => exact .inl hself
    | some res => exact .inr (.inl ⟨kind, x, y, res.1, hadd⟩)
  | insert n =>
    rw [act]
    cases hinsert : b.insert n with
    | error e => exact .inl hself
    | ok b' => exact .inr (.inr ⟨n, hinsert⟩)
  | connect consumer slot producer =>
    left
    rw [act]
    cases hc : b.connect consumer slot producer with
    | error e => exact hself
    | ok res =>
      cases res with
      | none => exact hself
      | some b' =>
        obtain ⟨_, _, _, _, _, _, _, _, f, _, _, _, _, hb'⟩ := connect_eq_ok hc
        rw [mapKinds_mapKinds] at hb'
        show BringsNone b b'
        rw [hb']
        apply hkinds
  | disconnect consumer slot =>
    left
    rw [act]
    cases hd : b.disconnect consumer slot with
    | error e => exact hself
    | ok res =>
      obtain ⟨_, _, _, _, f, _, hb', _, _⟩ := disconnect_eq_ok hd
      show BringsNone b res.2
      rw [hb']
      apply hkinds
  | remove id =>
    left
    rw [act]
    cases hr : b.remove id with
    | error e => exact hself
    | ok res =>
      apply remove_induction _ hself hr
      intro b' n _ hb'
      constructor
      · rw [detach_eq, ids_mapKinds]
        intro id hid
        exact hb'.ids (mem_ids_erase.1 hid).1
      · exact hb'.nextId
  | move id x y =>
    left
    rw [act, Board.move, require]
    cases b.get? id with
    | none => exact hself
    | some n =>
      constructor
      · show (b.place id x y).ids ⊆ b.ids
        rw [(leavesWires_place b id x y).ids]
        exact List.Subset.refl _
      · rfl
  | load text => cases ha

/-! ## Runs without loads -/

/-- The next id is no smaller. -/
theorem le_saturatingNext (k : UInt32) :
  k ≤ saturatingNext k
  := by
  have hk := k.toNat_lt
  rw [saturatingNext, UInt32.le_iff_toNat_le]
  split
  · exact Nat.le_refl _
  · next hlast =>
    rw [← UInt32.toNat_inj] at hlast
    simp only [UInt32.toNat_add, UInt32.reduceToNat] at *
    omega

/-- The next id is greater unless it is the last one. -/
theorem lt_of_saturatingNext_le {k next : UInt32} (h : saturatingNext k ≤ next)
    (hnext : next ≠ 0xFFFFFFFF) :
  k < next
  := by
  have hk := k.toNat_lt
  have hlast := next.toNat_lt
  rw [saturatingNext] at h
  simp only [UInt32.lt_iff_toNat_lt, UInt32.le_iff_toNat_le, ne_eq, ← UInt32.toNat_inj] at *
  split at h <;> simp only [UInt32.toNat_add, UInt32.reduceToNat] at * <;> omega

theorem le_max_both (k l : UInt32) :
  k ≤ max k l ∧ l ≤ max k l
  := by
  rw [UInt32.max_def]
  split
  · next h => exact ⟨h, UInt32.le_refl l⟩
  · next h => exact ⟨UInt32.le_refl k, UInt32.le_of_lt (UInt32.not_le.1 h)⟩

/-- On a board whose ids are below the next one that one is fresh. -/
theorem Below.freshId? (h : b.Below) :
  b.freshId? = some ⟨b.nextId⟩
  := by
  rw [← seek_eq_freshId?]
  apply seek_of_not_contains
  rw [Bool.eq_false_iff, ne_eq, contains_iff]
  intro hid
  exact UInt32.lt_irrefl _ (h _ hid)

/-- A node below the next id may be placed when the next id is not lowered. -/
theorem Below.append (h : b.Below) {n : Node} {next : UInt32} (hnew : n.id ∉ b.ids)
    (hle : b.nextId ≤ next) (hn : n.id.val < next) :
  (b.append n next hnew).Below
  := by
  intro id hid
  rcases mem_ids_append.1 hid with hid | rfl
  · exact UInt32.lt_of_lt_of_le (h id hid) hle
  · exact hn

/-- An action that is no load does not lower the next id, and keeps all ids below it, unless it makes it
the last one. -/
theorem Below.act (h : b.Below) {a : Action} (ha : a.isLoad = false)
    (hnext : (b.act a).nextId ≠ 0xFFFFFFFF) :
  b.nextId ≤ (b.act a).nextId ∧ (b.act a).Below
  := by
  rcases b.act_cases ha with hnone | ⟨kind, x, y, id, hadd⟩ | ⟨n, hinsert⟩
  · rw [Below, hnone.nextId]
    exact ⟨UInt32.le_refl _, fun id hid => h id (hnone.ids hid)⟩
  · obtain ⟨hid, hnew, hact⟩ := add_eq_some hadd
    rw [h.freshId?] at hid
    obtain rfl := Option.some.inj hid
    rw [hact] at hnext ⊢
    have hle := le_saturatingNext b.nextId
    exact ⟨hle, h.append hnew hle (lt_of_saturatingNext_le (UInt32.le_refl _) hnext)⟩
  · obtain ⟨-, hnew, hact⟩ := insert_eq_ok hinsert
    rw [hact] at hnext ⊢
    obtain ⟨hle, hid⟩ := le_max_both b.nextId (saturatingNext n.id.val)
    exact ⟨hle, h.append hnew hle (lt_of_saturatingNext_le hid hnext)⟩

theorem after_concat (actions : List Action) (a : Action) :
  after (actions ++ [a]) = (after actions).act a
  := by
  rw [after, after, List.foldl_append]
  rfl

/-- Along a run without loads on which the next id does not saturate it stays above all ids that have
ever been on the board. -/
theorem lt_nextId_after {actions : List Action} (hload : ∀ a ∈ actions, a.isLoad = false)
    (hnext : ∀ before, before <+: actions → (after before).nextId ≠ 0xFFFFFFFF)
    {before : List Action} (hbefore : before <+: actions) :
  ∀ id ∈ (after before).ids, id.val < (after actions).nextId
  := by
  induction actions using List.reverseRecOn generalizing before with
  | nil =>
    obtain rfl := List.prefix_nil.1 hbefore
    intro id hid
    cases hid
  | append_singleton front a ih =>
    have hfront : ∀ {before}, before <+: front →
        ∀ id ∈ (after before).ids, id.val < (after front).nextId := by
      apply ih
      · intro a' ha'
        exact hload a' (List.mem_append_left _ ha')
      · intro before hbefore
        exact hnext before (hbefore.trans (List.prefix_append front [a]))
    have hlast := hnext _ (List.prefix_refl _)
    rw [after_concat] at hlast ⊢
    have hbelow : (after front).Below := hfront (List.prefix_refl _)
    obtain ⟨hle, hact⟩ := hbelow.act (hload a (by simp)) hlast
    rcases List.prefix_concat_iff.1 hbefore with rfl | hbefore
    · rw [after_concat]
      exact hact
    · intro id hid
      exact UInt32.lt_of_lt_of_le (hfront hbefore id hid) hle

/-- Fresh ids are free and new. After any actions, as long as there are fewer nodes than ids, a payload
is placed behind the nodes that are there, under an id that none of them has. And while the next id has
not saturated, and no other board has been read, it is above all ids that have ever been on the board,
so no id is handed out again. -/
theorem fresh_ids_after (actions : List Action) :
  ((after actions).nodes.length < UInt32.size → ∀ x y,
    (∀ kind, InPlace.PlacesFresh (InPlace.add kind x y) kind x y (after actions))
    ∧ ∀ tag, InPlace.PlacesFresh (InPlace.addNode tag x y) (Kind.fresh tag) x y (after actions))
  ∧ ((∀ a ∈ actions, a.isLoad = false) →
    (∀ before, before <+: actions → (after before).nextId ≠ 0xFFFFFFFF) →
    (∀ before, before <+: actions → ∀ id ∈ (after before).ids, id.val < (after actions).nextId)
    ∧ ∀ kind x y id b', InPlace.runOn (InPlace.add kind x y) (after actions) = some (.ok id, b') →
      ∀ before, before <+: actions → id ∉ (after before).ids)
  := by
  constructor
  · intro hlength x y
    constructor
    · intro kind
      exact InPlace.placesFresh_add hlength kind x y
    · intro tag
      exact InPlace.placesFresh_add hlength (Kind.fresh tag) x y
  · intro hload hnext
    refine ⟨fun before => lt_nextId_after hload hnext, ?_⟩
    intro kind x y id b' hrun before hbefore hid
    have hbelow : (after actions).Below := lt_nextId_after hload hnext (List.prefix_refl _)
    have hadd : (after actions).add kind x y = some (id, b') := by
      rw [InPlace.runOn_add, Option.map_eq_some_iff] at hrun
      obtain ⟨_, hadd, ⟨⟩⟩ := hrun
      exact hadd
    obtain ⟨hfresh, -, -⟩ := add_eq_some hadd
    rw [hbelow.freshId?] at hfresh
    obtain rfl := Option.some.inj hfresh
    exact UInt32.lt_irrefl _ (lt_nextId_after hload hnext hbefore _ hid)

/-- A board with the greatest id is read, and two payloads are placed. -/
def wrapping : List Action :=
  [.load "[\x7b\"id\":4294967295,\"x\":0,\"y\":0,\"kind\":\"ReturnStatement\"\x7d]",
    .add (Kind.fresh .binaryExpression) .zero .zero, .add (Kind.fresh .numericLiteral) .zero .zero]

/-- A node is placed far above the others, wired and taken away. -/
def recycling : List Action :=
  [.add (Kind.fresh .binaryExpression) .zero .zero, .insert ⟨⟨70⟩, .zero, .zero, Kind.fresh .numericLiteral⟩,
    .connect ⟨0⟩ 0 ⟨70⟩, .remove ⟨70⟩]

/-- Behind the greatest id the fresh ids begin again at zero, and a node is still placed under one. The id of a
node that has been taken away is not handed out again. -/
theorem fresh_ids_after_wrapping_recycling :
  (after wrapping).ids = [⟨4294967295⟩, ⟨0⟩, ⟨1⟩]
  ∧ InPlace.PlacesFresh (InPlace.addNode .stringLiteral .zero .zero) (Kind.fresh .stringLiteral) .zero
    .zero (after wrapping)
  ∧ (after recycling).ids = [⟨0⟩]
  ∧ ∀ id b', InPlace.runOn (InPlace.add (Kind.fresh .stringLiteral) .zero .zero) (after recycling)
    = some (.ok id, b') → id ≠ ⟨70⟩
  := by
  have hlength : (after wrapping).nodes.length < UInt32.size := by
    decide +kernel
  have hload : ∀ a ∈ recycling, a.isLoad = false := by
    decide
  have hnext : ∀ before ∈ recycling.inits, (after before).nextId ≠ 0xFFFFFFFF := by
    decide +kernel
  refine ⟨by decide +kernel, ((fresh_ids_after wrapping).1 hlength .zero .zero).2 .stringLiteral,
    by decide +kernel, ?_⟩
  intro id b' hrun hid
  have hnew := ((fresh_ids_after recycling).2 hload fun before hbefore =>
    hnext before ((List.mem_inits before recycling).2 hbefore)).2 _ _ _ id b' hrun (recycling.take 2)
    (List.take_prefix 2 recycling)
  rw [hid] at hnew
  exact hnew (by decide +kernel)

end Board

end Patchboard
