import Patchboard.Board.Codec
import Patchboard.Proofs.Board.Slots
import Patchboard.Proofs.Node.Codec
import Mathlib.Data.List.Induction

/-!
# Boards through JSON

A board is written as the list of its nodes, and read by placing the nodes of a list one after
another. Reading gives the nodes that were written, in their order; the id for the next node is not
written, and becomes the first one above all others. A list that repeats an id is turned down at the
first node whose id is taken.
-/

namespace Patchboard

open Json (Decoder)

/-! ## The id for the next node -/

/-- The first id above those of some nodes; the greatest id when there is none above. -/
def firstIdAbove (ns : List Node) : UInt32 :=
  match (ns.map fun n => n.id.val).max? with
  | none => 0
  | some id => saturatingNext id

/-- A greater id has no smaller next id. -/
theorem saturatingNext_mono {m n : UInt32} (h : m ≤ n) :
  saturatingNext m ≤ saturatingNext n
  := by
  have hn := n.toNat_lt
  simp only [saturatingNext, UInt32.le_iff_toNat_le, ← UInt32.toNat_inj] at *
  split <;> split <;> simp only [UInt32.toNat_add, UInt32.reduceToNat] at * <;> omega

/-- The greater of two ids has the greater of their next ids. -/
theorem saturatingNext_max (m n : UInt32) :
  saturatingNext (max m n) = max (saturatingNext m) (saturatingNext n)
  := by
  rw [UInt32.max_def, UInt32.max_def]
  by_cases h : m ≤ n
  · rw [if_pos h, if_pos (saturatingNext_mono h)]
  · have hle : saturatingNext n ≤ saturatingNext m :=
      saturatingNext_mono (UInt32.le_of_lt (UInt32.not_le.1 h))
    rw [if_neg h]
    split
    · next hle' => exact UInt32.le_antisymm hle' hle
    · rfl

/-- The id for the next node once a node has been placed. -/
def raised (id : UInt32) (n : Node) : UInt32 :=
  max id (saturatingNext n.id.val)

/-- Nodes that are placed one after another raise the id for the next node above theirs. -/
theorem foldl_raised (ns : List Node) :
  ns.foldl raised 0 = firstIdAbove ns
  := by
  cases ns with
  | nil => rfl
  | cons n rest =>
    have hzero : raised 0 n = saturatingNext n.id.val := by
      rw [raised, UInt32.max_def, if_pos UInt32.zero_le]
    rw [firstIdAbove, List.map_cons, List.max?_cons', List.foldl_map, List.foldl_cons, hzero]
    generalize n.id.val = id
    induction rest generalizing id with
    | nil => rfl
    | cons m rest ih => rw [List.foldl_cons, List.foldl_cons, raised, ← saturatingNext_max, ih]

namespace Board

/-! ## Placing a list of nodes -/

/-- A node whose id is free is placed behind the others and raises the id for the next node. -/
theorem insert_of_not_mem {b : Board} {n : Node} (h : n.id ∉ b.ids) :
  ∃ b', b.insert n = .ok b' ∧ b'.nodes = b.nodes ++ [n] ∧ b'.nextId = raised b.nextId n
  := by
  have hget : b.get? n.id = none := by
    apply get?_of_not_contains
    rwa [Bool.eq_false_iff, ne_eq, contains_iff]
  exact ⟨_, insert_of_none hget, rfl, rfl⟩

/-- Nodes with ids of their own are placed in order. -/
theorem foldlM_insert_of_nodup {b : Board} {ns : List Node} (h : (b.ids ++ ns.map Node.id).Nodup) :
  ∃ b', ns.foldlM insert b = .ok b' ∧ b'.nodes = b.nodes ++ ns
    ∧ b'.nextId = ns.foldl raised b.nextId
  := by
  induction ns generalizing b with
  | nil => exact ⟨b, rfl, (List.append_nil _).symm, rfl⟩
  | cons n rest ih =>
    have hfree : n.id ∉ b.ids := by
      intro hid
      exact (List.nodup_append.1 h).2.2 _ hid _ List.mem_cons_self rfl
    obtain ⟨b₁, hinsert, hnodes₁, hnext₁⟩ := insert_of_not_mem hfree
    have hids : b₁.ids = b.ids ++ [n.id] := by
      rw [ids, hnodes₁, List.map_append]
      rfl
    have hrest : (b₁.ids ++ rest.map Node.id).Nodup := by
      rw [hids, List.append_assoc]
      exact h
    obtain ⟨b', hplaced, hnodes, hnext⟩ := ih hrest
    refine ⟨b', ?_, ?_, ?_⟩
    · rw [List.foldlM_cons, hinsert]
      exact hplaced
    · rw [hnodes, hnodes₁, List.append_assoc]
      rfl
    · rw [hnext, hnext₁, List.foldl_cons]

/-- Nodes with distinct ids make a board. -/
theorem ofNodes_of_nodup {ns : List Node} (h : (ns.map Node.id).Nodup) :
  ∃ b, ofNodes ns = .ok b ∧ b.nodes = ns ∧ b.nextId = firstIdAbove ns
  := by
  obtain ⟨b, hb, hnodes, hnext⟩ := foldlM_insert_of_nodup (b := empty) h
  exact ⟨b, hb, hnodes, hnext.trans (foldl_raised ns)⟩

/-- A list with a repeated id has a first node whose id is taken. -/
theorem exists_first_repeated {ns : List Node} (h : ¬ (ns.map Node.id).Nodup) :
  ∃ before n rest, ns = before ++ n :: rest
    ∧ (before.map Node.id).Nodup ∧ n.id ∈ before.map Node.id
  := by
  induction ns using List.reverseRecOn with
  | nil => exact absurd List.nodup_nil h
  | append_singleton front n ih =>
    by_cases hfront : (front.map Node.id).Nodup
    · refine ⟨front, n, [], rfl, hfront, ?_⟩
      by_contra hn
      apply h
      rw [List.map_append, List.nodup_append]
      refine ⟨hfront, List.pairwise_singleton _ _, ?_⟩
      rintro id hid _ hid' rfl
      rw [List.map_singleton, List.mem_singleton] at hid'
      exact hn (hid' ▸ hid)
    · obtain ⟨before, m, rest, rfl, hdistinct, hm⟩ := ih hfront
      exact ⟨before, m, rest ++ [n], by simp, hdistinct, hm⟩

/-- Placing stops at the first node whose id is taken. -/
theorem ofNodes_of_repeated {before : List Node} {n : Node} (rest : List Node)
    (hdistinct : (before.map Node.id).Nodup) (hn : n.id ∈ before.map Node.id) :
  ofNodes (before ++ n :: rest) = .error (.duplicate n.id)
  := by
  obtain ⟨b, hb, hnodes, -⟩ := ofNodes_of_nodup hdistinct
  obtain ⟨m, hm⟩ : ∃ m, b.get? n.id = some m := by
    apply exists_get?
    rw [contains_iff, ids, hnodes]
    exact hn
  rw [ofNodes, List.foldlM_append]
  rw [ofNodes] at hb
  rw [hb]
  show (n :: rest).foldlM insert b = _
  rw [List.foldlM_cons, insert_of_some hm]
  rfl

/-! ## Decoding -/

/-- A board is decoded by placing the nodes that are listed. -/
theorem decode_of_nodes {j : Json} {ns : List Node} (h : Decoder.list Node.decode j = .ok ns) :
  decode j = match ofNodes ns with
    | .error e => .error (.board e)
    | .ok b => .ok b
  := by
  rw [decode, h]
  rfl

/-- Nodes with finite numbers are decoded from what they are encoded to. -/
theorem decode_list_toJson {ns : List Node} (h : ∀ n ∈ ns, n.Finite) :
  Decoder.list Node.decode (Json.ofList Node.toJson ns) = .ok ns
  := Decoder.list_ofList fun n hn => Node.decode_toJson (h n hn)

/-- A list of nodes with distinct ids is decoded to the board of these nodes. -/
theorem decode_of_nodup {j : Json} {ns : List Node} (hns : Decoder.list Node.decode j = .ok ns)
    (h : (ns.map Node.id).Nodup) :
  ∃ b, decode j = .ok b ∧ b.nodes = ns ∧ b.nextId = firstIdAbove ns
  := by
  obtain ⟨b, hb, hnodes, hnext⟩ := ofNodes_of_nodup h
  use b
  rw [decode_of_nodes hns, hb]
  exact ⟨rfl, hnodes, hnext⟩

/-- A list of nodes with a repeated id is turned down at the first node whose id is taken. -/
theorem decode_of_repeated {j : Json} {ns : List Node} (hns : Decoder.list Node.decode j = .ok ns)
    (h : ¬ (ns.map Node.id).Nodup) :
  ∃ before n rest, ns = before ++ n :: rest ∧ (before.map Node.id).Nodup
    ∧ n.id ∈ before.map Node.id ∧ decode j = .error (.board (.duplicate n.id))
  := by
  obtain ⟨before, n, rest, rfl, hdistinct, hn⟩ := exists_first_repeated h
  refine ⟨before, n, rest, rfl, hdistinct, hn, ?_⟩
  rw [decode_of_nodes hns, ofNodes_of_repeated rest hdistinct hn]

/-- A board that is decoded holds the nodes that are listed, and the first id above theirs. -/
theorem of_decode {j : Json} {b : Board} (h : decode j = .ok b) :
  Decoder.list Node.decode j = .ok b.nodes ∧ b.nextId = firstIdAbove b.nodes
  := by
  cases hns : Decoder.list Node.decode j with
  | error f =>
    rw [decode, hns] at h
    cases h
  | ok ns =>
    by_cases hdistinct : (ns.map Node.id).Nodup
    · obtain ⟨b', hb', rfl, hnext⟩ := decode_of_nodup hns hdistinct
      obtain rfl : b' = b := by
        rw [hb'] at h
        exact Except.ok.inj h
      exact ⟨rfl, hnext⟩
    · obtain ⟨_, n, _, _, _, _, herror⟩ := decode_of_repeated hns hdistinct
      rw [herror] at h
      cases h

/-- The nodes of a board that is decoded have finite numbers. -/
theorem finite_of_decode {j : Json} {b : Board} (h : decode j = .ok b) :
  ∀ n ∈ b.nodes, n.Finite
  := by
  intro n hn
  obtain ⟨j', hj'⟩ := Decoder.exists_of_mem_list (of_decode h).1 hn
  exact Node.finite_of_decode hj'

/-- A board with finite numbers is decoded with its nodes in their order. -/
theorem decode_toJson {b : Board} (h : ∀ n ∈ b.nodes, n.Finite) :
  ∃ b', decode b.toJson = .ok b' ∧ b'.nodes = b.nodes ∧ b'.nextId = firstIdAbove b.nodes
  := decode_of_nodup (decode_list_toJson h) b.distinct

/-- Boards go through JSON and back. Finite nodes with distinct ids are decoded from what they are
encoded to, and the board takes the first id above theirs; so a board that is written and read keeps
its nodes, and is the same when it had that id. A repeated id is turned down at the first node that
repeats one. Whatever is decoded can be encoded and decoded again. -/
theorem decode_encoded :
  (∀ ns : List Node, (∀ n ∈ ns, n.Finite) →
    Decoder.list Node.decode (Json.ofList Node.toJson ns) = .ok ns
    ∧ ((ns.map Node.id).Nodup → ∃ b, decode (Json.ofList Node.toJson ns) = .ok b
      ∧ b.nodes = ns ∧ b.nextId = firstIdAbove ns))
  ∧ (∀ b : Board, (∀ n ∈ b.nodes, n.Finite) → ∃ b', decode b.toJson = .ok b'
    ∧ b'.nodes = b.nodes ∧ (b' = b ↔ b.nextId = firstIdAbove b.nodes))
  ∧ (∀ (j : Json) (ns : List Node), Decoder.list Node.decode j = .ok ns →
    ¬ (ns.map Node.id).Nodup →
    ∃ before n rest, ns = before ++ n :: rest ∧ (before.map Node.id).Nodup
      ∧ n.id ∈ before.map Node.id ∧ decode j = .error (.board (.duplicate n.id)))
  ∧ ∀ (j : Json) (b : Board), decode j = .ok b → decode b.toJson = .ok b
  := by
  refine ⟨?_, ?_, fun j ns => decode_of_repeated, ?_⟩
  · intro ns hfinite
    exact ⟨decode_list_toJson hfinite, decode_of_nodup (decode_list_toJson hfinite)⟩
  · intro b hfinite
    obtain ⟨b', hb', hnodes, hnext⟩ := decode_toJson hfinite
    refine ⟨b', hb', hnodes, ?_⟩
    rw [← hnext]
    constructor
    · rintro rfl
      rfl
    · intro h
      exact ext_of_nodes hnodes h.symm
  · intro j b h
    obtain ⟨-, hnext⟩ := of_decode h
    obtain ⟨b', hb', hnodes', hnext'⟩ := decode_toJson (finite_of_decode h)
    rw [hb', ext_of_nodes hnodes' (hnext'.trans hnext.symm)]

/-- A board with a parameter that feeds two slots of a call. Nodes with greater ids have been taken
away. -/
def fedCall : Board where
  nodes := [
    ⟨⟨7⟩, .zero, .zero, .parameter "x" "infer" true [⟨4⟩, ⟨4⟩]⟩,
    ⟨⟨4⟩, .ofNat 3, .zero, .callExpression [some ⟨7⟩, none, some ⟨7⟩] none⟩]
  nextId := 100
  distinct := by decide

/-- A call of the greatest id that is given by the place of its kind, without its wires, and with a
field of no meaning. -/
def sparseCall : Json :=
  .array [.object [("kind", .int 9), ("note", .null), ("id", .int 4294967295), ("y", .int 2),
    ("x", .int 0)]]

/-- The board of that call. There is no greater id for the next node. -/
def lastCall : Board where
  nodes := [⟨⟨4294967295⟩, .zero, .ofNat 2, .callExpression [] none⟩]
  nextId := 4294967295
  distinct := by decide

/-- The call with the parameter that feeds it is decoded from what it is encoded to, with the first id above
its nodes as the next one, and so as another board. Written twice its nodes are refused. The call that is given
without its wires is decoded, and what is decoded from it can be encoded and decoded again. -/
theorem decode_encoded_fedCall_sparseCall :
  (∃ b, decode (Json.ofList Node.toJson fedCall.nodes) = .ok b ∧ b.nodes = fedCall.nodes
    ∧ b.nextId = 8)
  ∧ (∃ b, decode fedCall.toJson = .ok b ∧ b.nodes = fedCall.nodes ∧ b ≠ fedCall)
  ∧ (∃ n, decode (Json.ofList Node.toJson (fedCall.nodes ++ fedCall.nodes))
    = .error (.board (.duplicate n)))
  ∧ decode sparseCall = .ok lastCall ∧ decode lastCall.toJson = .ok lastCall
  := by
  have hfinite : ∀ n ∈ fedCall.nodes, n.Finite := by
    decide +kernel
  have hfinite' : ∀ n ∈ fedCall.nodes ++ fedCall.nodes, n.Finite := by
    decide +kernel
  have hsparse : decode sparseCall = .ok lastCall := by
    decide +kernel
  obtain ⟨hnodes, hboard, hrepeated, hagain⟩ := decode_encoded
  refine ⟨(hnodes _ hfinite).2 fedCall.distinct, ?_, ?_, hsparse, hagain _ _ hsparse⟩
  · obtain ⟨b, hb, hbnodes, hiff⟩ := hboard fedCall hfinite
    refine ⟨b, hb, hbnodes, fun h => ?_⟩
    exact absurd (hiff.1 h) (by decide)
  · obtain ⟨_, n, _, _, _, _, herror⟩ := hrepeated _ _ (hnodes _ hfinite').1 (by decide)
    exact ⟨n.id, herror⟩

end Board

end Patchboard
