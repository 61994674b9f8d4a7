import Mathlib.Data.List.Induction
import Patchboard.Compile.Walk
import Patchboard.Proofs.Compile.Liveness
import Patchboard.Proofs.Steps

/-!
# Where a walk leads

A walk goes through the nodes in the order of a depth-first search, since what a node holds lies on the stack
above everything else until it has been processed. So it comes to an end on every board, with circles or
without, and has then processed what the return leads to; or it has been stopped by the first wire that
dangles.
-/

namespace Patchboard

namespace Walking

variable {α β : Type} {b : Board} {w w' : Walk} {n r : Node}

/-! ## Steps -/

/-- Steps follow steps that come to an end. -/
theorem runFrom_bind_ok {steps : Walking α} {next : α → Walking β} {a : α}
    (h : steps.runFrom w = some (.ok a, w')) :
  (steps >>= next).runFrom w = (next a).runFrom w'
  := run_bind_of_ok h

/-- Steps do not follow steps that are stopped. -/
theorem runFrom_bind_error {steps : Walking α} {next : α → Walking β} {d : Diagnostic}
    (h : steps.runFrom w = some (.error d, w')) :
  (steps >>= next).runFrom w = some (.error d, w')
  := run_bind_of_error h

/-! ## Slots -/

/-- A walk that has counted a wire. -/
def counted (b : Board) (w : Walk) (x : Wire) : Walk :=
  if b.isBinding x.producer then { w with references := countUse x.producer w.references }
  else { w with dependencies := w.dependencies.withEdge x.consumer x.producer }

/-- The same walk with another stack. -/
def onto (w : Walk) (stack : List Node) : Walk :=
  { w with stack := stack }

/-- Counting wires has nothing to do with the stack. -/
theorem foldl_counted_onto (b : Board) (w : Walk) (stack : List Node) (xs : List Wire) :
  xs.foldl (counted b) (onto w stack) = onto (xs.foldl (counted b) w) stack
  := by
  induction xs generalizing w with
  | nil => rfl
  | cons x xs ih =>
    have hcounted : counted b (onto w stack) x = onto (counted b w x) stack := by
      rw [counted, counted]
      split <;> rfl
    rw [List.foldl_cons, List.foldl_cons, hcounted, ih]

/-- A walk that has gone along some wires: they have been counted, and what they come from has been put on
the stack. -/
def along (b : Board) (w : Walk) (xs : List Wire) : Walk :=
  onto (xs.foldl (counted b) w) ((xs.filterMap fun x => b.get? x.producer).reverse ++ w.stack)

/-- Going along wires in a row. -/
theorem along_append (b : Board) (w : Walk) (xs ys : List Wire) :
  along b w (xs ++ ys) = along b (along b w xs) ys
  := by
  rw [along, along, along, foldl_counted_onto, List.foldl_append, List.filterMap_append,
    List.reverse_append, List.append_assoc]
  rfl

/-- The first of some wires that comes from no node of the board. -/
def dangling? (b : Board) (xs : List Wire) : Option Wire :=
  xs.find? fun x => !b.contains x.producer

/-- How a walk is stopped by a wire that dangles. -/
def Stops (x : Wire) (result : Option (Except Diagnostic Unit × Walk)) : Prop :=
  ∃ w, result = some (.error (.dangling x.consumer x.slot x.producer), w)

/-- Steps that go along some wires, or are stopped by the first of these that dangles. -/
inductive GoesAlong (b : Board) (xs : List Wire) (steps : Walking Unit) (w : Walk) : Prop
  | through (none : dangling? b xs = none) (run : steps.runFrom w = some (.ok (), along b w xs))
  | stopped {x : Wire} (first : dangling? b xs = some x) (run : Stops x (steps.runFrom w))

/-- Steps that go along wires in a row. -/
theorem GoesAlong.bind {xs ys : List Wire} {steps next : Walking Unit} (h : GoesAlong b xs steps w)
    (hnext : GoesAlong b ys next (along b w xs)) :
  GoesAlong b (xs ++ ys) (steps >>= fun _ => next) w
  := by
  cases h with
  | through none run =>
    have hrun : (steps >>= fun _ => next).runFrom w = next.runFrom (along b w xs) := runFrom_bind_ok run
    have hfirst : dangling? b (xs ++ ys) = dangling? b ys := by
      rw [dangling?, List.find?_append, ← dangling?, none, Option.none_or, dangling?]
    cases hnext with
    | through none run => exact .through (hfirst.trans none) (hrun.trans (along_append b w xs ys ▸ run))
    | stopped first run => exact .stopped (hfirst.trans first) (hrun ▸ run)
  | @stopped x first run =>
    obtain ⟨w', hw'⟩ := run
    apply GoesAlong.stopped
    · rw [dangling?, List.find?_append, ← dangling?, first, Option.some_or]
    · exact ⟨w', runFrom_bind_error hw'⟩

/-- The wire that a slot of a node holds, if it holds any. -/
def wire? (consumer : NodeId) (x : Slot × Nat) : Option Wire :=
  x.1.map (Wire.mk consumer x.2)

/-- A slot is gone through. -/
theorem goesAlong_goThrough (b : Board) (consumer : NodeId) (slot : Nat) (content : Slot) (w : Walk) :
  GoesAlong b (wire? consumer (content, slot)).toList (goThrough b consumer slot content) w
  := by
  cases content with
  | none => exact .through rfl rfl
  | some target =>
    show GoesAlong b [⟨consumer, slot, target⟩] _ w
    rw [goThrough]
    dsimp only
    cases h : b.get? target with
    | none =>
      apply GoesAlong.stopped
      · rw [dangling?, List.find?_cons_of_pos]
        simp [Board.contains, h]
      · exact ⟨w, rfl⟩
    | some p =>
      have hbinding : b.isBinding target = p.kind.isBinding := by
        rw [Board.isBinding, h, Option.any_some]
      apply GoesAlong.through
      · simp [dangling?, Board.contains, h]
      · dsimp only
        simp only [along, List.foldl_cons, List.foldl_nil, counted, hbinding, List.filterMap_cons, h]
        cases p.kind.isBinding <;> rfl

/-- Slots are gone through one after the other. -/
theorem goesAlong_forM (b : Board) (consumer : NodeId) (slots : List (Slot × Nat)) (w : Walk) :
  GoesAlong b (slots.filterMap (wire? consumer))
    (slots.forM fun (content, slot) => goThrough b consumer slot content) w
  := by
  induction slots generalizing w with
  | nil => exact .through rfl rfl
  | cons x slots ih =>
    have hwires : (x :: slots).filterMap (wire? consumer)
        = (wire? consumer x).toList ++ slots.filterMap (wire? consumer) := by
      cases h : wire? consumer x with
      | none => rw [List.filterMap_cons_none h, Option.toList_none, List.nil_append]
      | some y => rw [List.filterMap_cons_some h, Option.toList_some, List.singleton_append]
    rw [hwires]
    apply (goesAlong_goThrough b consumer x.2 x.1 w).bind
    apply ih

/-! ## Nodes -/

/-- A walk that begins to process a node. -/
def entering (w : Walk) (id : NodeId) : Walk :=
  { w with
    visited := id :: w.visited
    processed := w.processed ++ [id]
    dependencies := w.dependencies.withNode id }

/-- With nothing on the stack the walk is at its end. -/
theorem runFrom_walk_nil (b : Board) (w : Walk) :
  b.walk.runFrom (onto w []) = some (.ok (), onto w [])
  := by
  rw [Board.walk]
  rfl

/-- A node is taken off the stack, and processed unless it was visited before. -/
theorem runFrom_walk_cons (b : Board) (w : Walk) (n : Node) (rest : List Node) :
  b.walk.runFrom (onto w (n :: rest))
    = (do
      if ← visit n.id then process b n
      b.walk : Walking Unit).runFrom (onto w rest)
  := by
  conv_lhs => rw [Board.walk]
  rfl

/-- A node that was visited before is taken off the stack, and nothing else happens. -/
theorem runFrom_walk_visited (b : Board) (h : n.id ∈ w.visited) (rest : List Node) :
  b.walk.runFrom (onto w (n :: rest)) = b.walk.runFrom (onto w rest)
  := by
  have hvisit : (visit n.id).runFrom (onto w rest) = some (.ok false, onto w rest) := by
    show (if n.id ∈ w.visited then pure false else _ : Walking Bool).runFrom (onto w rest) = _
    rw [if_pos h]
    rfl
  rw [runFrom_walk_cons, runFrom_bind_ok hvisit]
  rfl

/-- A node that was not visited before is taken off the stack and processed. -/
theorem runFrom_walk_new (b : Board) (h : n.id ∉ w.visited) (rest : List Node) :
  b.walk.runFrom (onto w (n :: rest))
    = (do
      n.kind.inputs.zipIdx.forM fun (content, slot) => goThrough b n.id slot content
      b.walk : Walking Unit).runFrom (onto (entering w n.id) rest)
  := by
  have hvisit : (visit n.id).runFrom (onto w rest)
      = some (.ok true, onto { w with visited := n.id :: w.visited } rest) := by
    show (if n.id ∈ w.visited then pure false else _ : Walking Bool).runFrom (onto w rest) = _
    rw [if_neg h]
    rfl
  rw [runFrom_walk_cons, runFrom_bind_ok hvisit]
  rfl

/-! ## The order of a walk -/

/-- A walk that has processed some nodes, one after the other. -/
def through (b : Board) (ids : List NodeId) : Walk :=
  ids.foldl (fun w id => (b.wiresInto id).foldl (counted b) (entering w id)) .start

/-- A walk that has processed one node more. -/
theorem through_concat (b : Board) (ids : List NodeId) (id : NodeId) :
  through b (ids ++ [id]) = (b.wiresInto id).foldl (counted b) (entering (through b ids) id)
  := List.foldl_concat ..

/-- Counting wires neither visits nor processes anything, and leaves the stack alone. -/
theorem nodes_foldl_counted (b : Board) (w : Walk) (xs : List Wire) :
  (xs.foldl (counted b) w).stack = w.stack ∧ (xs.foldl (counted b) w).visited = w.visited ∧
    (xs.foldl (counted b) w).processed = w.processed
  := by
  induction xs generalizing w with
  | nil => exact ⟨rfl, rfl, rfl⟩
  | cons x xs ih =>
    have hcounted : (counted b w x).stack = w.stack ∧ (counted b w x).visited = w.visited ∧
        (counted b w x).processed = w.processed := by
      rw [counted]
      split <;> exact ⟨rfl, rfl, rfl⟩
    obtain ⟨hstack, hvisited, hprocessed⟩ := ih (counted b w x)
    rw [List.foldl_cons, hstack, hvisited, hprocessed]
    exact hcounted

/-- The nodes that were processed have been visited, and no others; and nothing waits. -/
theorem nodes_through (b : Board) (ids : List NodeId) :
  (through b ids).stack = [] ∧ (through b ids).visited = ids.reverse ∧ (through b ids).processed = ids
  := by
  induction ids using List.reverseRecOn with
  | nil => exact ⟨rfl, rfl, rfl⟩
  | append_singleton ids id ih =>
    obtain ⟨hstack, hvisited, hprocessed⟩ :=
      nodes_foldl_counted b (entering (through b ids) id) (b.wiresInto id)
    rw [through_concat, hstack, hvisited, hprocessed, List.reverse_concat]
    exact ⟨ih.1, congrArg (id :: ·) ih.2.1, congrArg (· ++ [id]) ih.2.2⟩

/-- With nothing on the stack the walk is where it was. -/
theorem onto_through_nil (b : Board) (ids : List NodeId) :
  onto (through b ids) [] = through b ids
  := by
  rw [onto, ← (nodes_through b ids).1]

/-- From a stack, with some nodes processed, the walk comes to another stack with some more nodes processed;
unless a wire into one of these dangles, which stops it. -/
def Leads (b : Board) (ids : List NodeId) (stack : List Node) (ids' : List NodeId) (stack' : List Node) :
    Prop :=
  dangling? b (ids.flatMap b.wiresInto) = none →
    match dangling? b (ids'.flatMap b.wiresInto) with
    | none => b.walk.runFrom (onto (through b ids) stack) = b.walk.runFrom (onto (through b ids') stack')
    | some x => Stops x (b.walk.runFrom (onto (through b ids) stack))

theorem Leads.refl (b : Board) (ids : List NodeId) (stack : List Node) :
  Leads b ids stack ids stack
  := by
  intro h
  rw [h]

/-- What dangles among the wires into some nodes dangles with more nodes behind them. -/
theorem dangling?_append {ids ids' : List NodeId} (h : ids <+: ids') {x : Wire}
    (hx : dangling? b (ids.flatMap b.wiresInto) = some x) :
  dangling? b (ids'.flatMap b.wiresInto) = some x
  := by
  obtain ⟨more, rfl⟩ := h
  rw [List.flatMap_append, dangling?, List.find?_append, ← dangling?, hx, Option.some_or]

theorem Leads.trans {ids ids' ids'' : List NodeId} {stack stack' stack'' : List Node}
    (h : Leads b ids stack ids' stack') (h' : Leads b ids' stack' ids'' stack'') (hmore : ids' <+: ids'') :
  Leads b ids stack ids'' stack''
  := by
  intro hnone
  have hfirst := h hnone
  cases hdangling : dangling? b (ids'.flatMap b.wiresInto) with
  | none =>
    rw [hdangling] at hfirst
    rw [hfirst]
    exact h' hdangling
  | some x =>
    rw [hdangling] at hfirst
    rw [dangling?_append hmore hdangling]
    exact hfirst

/-- A node that was processed before changes nothing. -/
theorem leads_of_mem {ids : List NodeId} (h : n.id ∈ ids) (rest : List Node) :
  Leads b ids (n :: rest) ids rest
  := by
  intro hnone
  rw [hnone]
  apply runFrom_walk_visited
  rw [(nodes_through b ids).2.1]
  apply List.mem_reverse.2 h

/-- What a node holds, from the last slot to the first. -/
def held (b : Board) (n : Node) : List Node :=
  (n.wires.filterMap fun x => b.get? x.producer).reverse

/-- A new node is processed: what it holds comes to lie on the stack. -/
theorem leads_of_new (hn : n ∈ b.nodes) {ids : List NodeId} (hnew : n.id ∉ ids) (rest : List Node) :
  Leads b ids (n :: rest) (ids ++ [n.id]) (held b n ++ rest)
  := by
  intro hnone
  have hvisited : n.id ∉ (through b ids).visited := by
    rw [(nodes_through b ids).2.1]
    rwa [List.mem_reverse]
  have hfirst : dangling? b ((ids ++ [n.id]).flatMap b.wiresInto) = dangling? b n.wires := by
    rw [List.flatMap_append, dangling?, List.find?_append, ← dangling?, hnone, Option.none_or,
      List.flatMap_singleton, Board.wiresInto_id hn, dangling?]
  rw [hfirst, runFrom_walk_new b hvisited, through_concat, Board.wiresInto_id hn]
  cases goesAlong_forM b n.id n.kind.inputs.zipIdx (onto (entering (through b ids) n.id) rest) with
  | through none run =>
    rw [show dangling? b n.wires = Option.none from none]
    dsimp only
    rw [runFrom_bind_ok run, along, foldl_counted_onto]
    rfl
  | @stopped x first run =>
    obtain ⟨w, hw⟩ := run
    rw [show dangling? b n.wires = some x from first]
    exact ⟨w, runFrom_bind_error hw⟩

/-- What a node holds is where its wires lead. -/
theorem map_id_held (hn : n ∈ b.nodes) :
  (held b n).map Node.id = b.wiring.next n.id
  := by
  show _ = (((b.wiresInto n.id).map Wire.producer).filter b.contains).reverse
  rw [held, Board.wiresInto_id hn, List.map_reverse]
  apply congrArg List.reverse
  induction n.wires with
  | nil => rfl
  | cons x xs ih =>
    cases h : b.get? x.producer with
    | none => simp [h, ih, Board.contains]
    | some p => simp [h, ih, Board.contains, Board.id_of_get? h]

/-- What a node holds is on the board. -/
theorem mem_nodes_of_mem_held {p : Node} (hp : p ∈ held b n) :
  p ∈ b.nodes
  := by
  obtain ⟨x, -, hx⟩ := List.mem_filterMap.1 (List.mem_reverse.1 hp)
  apply Board.mem_of_get? hx

/-- A walk takes the nodes of a row off the stack in the order in which a search visits them, provided that
it does so with each of them. -/
theorem leads_foldl_visit {depth : Nat}
    (visits : ∀ (s : Graph.Search) (n : Node) (rest : List Node), s.Orderly b.wiring → n ∈ b.nodes →
      b.wiring.nodes.length ≤ depth + s.entered.length →
      Leads b s.entered (n :: rest) (b.wiring.visit depth s n.id).entered rest)
    (row : List Node) (s : Graph.Search) (rest : List Node) (hs : s.Orderly b.wiring)
    (hrow : ∀ n ∈ row, n ∈ b.nodes) (hd : b.wiring.nodes.length ≤ depth + s.entered.length) :
  Leads b s.entered (row ++ rest) ((row.map Node.id).foldl (b.wiring.visit depth) s).entered rest
  := by
  induction row generalizing s with
  | nil => apply Leads.refl
  | cons n row ih =>
    obtain ⟨hn, hrow⟩ := List.forall_mem_cons.1 hrow
    have hid : n.id ∈ b.wiring.nodes := List.mem_map_of_mem hn
    obtain ⟨hfirst, -⟩ := Graph.visit_extends b.closed_wiring depth s n.id hs hid hd
    have hlen := hfirst.entered.length_le
    have hids : ∀ id ∈ row.map Node.id, id ∈ b.wiring.nodes := by
      intro id hid
      obtain ⟨p, hp, rfl⟩ := List.mem_map.1 hid
      apply List.mem_map_of_mem (hrow p hp)
    obtain ⟨hrest, -⟩ := Graph.foldl_visit (Graph.visit_extends b.closed_wiring depth) (row.map Node.id) _
      hfirst.orderly hids (by omega)
    apply (visits s n (row ++ rest) hs hn hd).trans _ hrest.entered
    apply ih _ hfirst.orderly hrow
    omega

/-- A walk processes a node, and everything that it leads to, in the order in which a search enters them. -/
theorem leads_visit (depth : Nat) (s : Graph.Search) (n : Node) (rest : List Node)
    (hs : s.Orderly b.wiring) (hn : n ∈ b.nodes)
    (hd : b.wiring.nodes.length ≤ depth + s.entered.length) :
  Leads b s.entered (n :: rest) (b.wiring.visit depth s n.id).entered rest
  := by
  induction depth generalizing s n rest with
  | zero =>
    apply leads_of_mem
    by_contra hnew
    have := hs.length_lt (List.mem_map_of_mem hn) hnew
    omega
  | succ depth ih =>
    rw [Graph.visit]
    split
    · next hin => exact leads_of_mem hin rest
    · next hnew =>
      have hid : n.id ∈ b.wiring.nodes := List.mem_map_of_mem hn
      have henter := hs.enter hid hnew
      have hroom : b.wiring.nodes.length ≤ depth + (s.entered ++ [n.id]).length := by
        rw [List.length_append, List.length_singleton]
        omega
      obtain ⟨hrow, -⟩ := Graph.foldl_visit (Graph.visit_extends b.closed_wiring depth)
        (b.wiring.next n.id) _ henter (b.closed_wiring _ hid) hroom
      apply (leads_of_new hn hnew rest).trans _ hrow.entered
      rw [← map_id_held hn]
      apply leads_foldl_visit ih _ _ _ henter _ hroom
      intro p hp
      apply mem_nodes_of_mem_held hp

/-- From the return alone the walk leads to the end, with all that the return needs processed. -/
theorem leads_live (hr : r ∈ b.nodes) :
  Leads b [] [r] (b.live r.id) []
  := leads_visit b.wiring.nodes.length .start r [] (Graph.Search.orderly_start _) hr (Nat.le_add_right _ _)

/-- Where nothing dangles, the walk from a return comes to an end, and has processed what the return needs, in
the order in which this is found. -/
theorem runFrom_countReferences (hr : r ∈ b.nodes) (h : b.danglingWire? r.id = none) :
  (countReferences b r).runFrom .start = some (.ok (), through b (b.live r.id))
  := by
  have hend := leads_live hr rfl
  rw [show dangling? b ((b.live r.id).flatMap b.wiresInto) = none from h] at hend
  show b.walk.runFrom (onto (through b []) [r]) = _
  rw [hend, runFrom_walk_nil, onto_through_nil]

/-- Otherwise it is stopped by the first wire that dangles. -/
theorem stops_countReferences (hr : r ∈ b.nodes) {x : Wire} (h : b.danglingWire? r.id = some x) :
  Stops x ((countReferences b r).runFrom .start)
  := by
  have hend := leads_live hr rfl
  rw [show dangling? b ((b.live r.id).flatMap b.wiresInto) = some x from h] at hend
  exact hend

end Walking

end Patchboard
