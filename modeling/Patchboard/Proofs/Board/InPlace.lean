import Mathlib.Data.List.ReduceOption
import Patchboard.Board.InPlace
import Patchboard.Proofs.Board.Removal
import Patchboard.Proofs.Board.Slots
import Patchboard.Proofs.Steps

/-!
# Edits in place are whole

An edit in place comes to the edit that makes a new board: it has the same answer, and leaves the same
board behind. It is stopped by its first look-ups only, when nothing has been changed: whatever is
looked up afterwards is found, and the slot that is written is there. Hence an edit is done as a whole
or leaves the board as it was.
-/

namespace Patchboard

namespace InPlace

variable {α β : Type} {b b' : Board} {id consumer producer : NodeId} {n : Node} {f : Kind → Kind}

/-! ## Steps -/

/-- Steps follow steps that come to an end. -/
theorem runOn_bind_ok {steps : InPlace α} {next : α → InPlace β} {a : α}
    (h : runOn steps b = some (.ok a, b')) :
  runOn (steps >>= next) b = runOn (next a) b'
  := run_bind_of_ok h

/-- Steps do not follow steps that are stopped. -/
theorem runOn_bind_error {steps : InPlace α} {next : α → InPlace β} {h : Halt}
    (hstop : runOn steps b = some (.error h, b')) :
  runOn (steps >>= next) b = some (.error h, b')
  := run_bind_of_error hstop

/-- The board is as the steps before have left it. -/
theorem runOn_get (b : Board) :
  runOn get b = some (.ok b, b)
  := rfl

/-- What is on the board is found. -/
theorem runOn_lookUp (hn : b.get? id = some n) :
  runOn (lookUp id) b = some (.ok n, b)
  := by
  rw [lookUp, runOn_bind_ok (runOn_get b), hn]
  rfl

/-- What is not on the board stops the edit. -/
theorem runOn_lookUp_none (hn : b.get? id = none) :
  runOn (lookUp id) b = some (.error (.error (.notFound id)), b)
  := by
  rw [lookUp, runOn_bind_ok (runOn_get b), hn]
  rfl

/-- The payload of a node on the board is changed. -/
theorem runOn_change (h : b.contains id = true) (f : Kind → Kind) :
  runOn (change id f) b = some (.ok (), b.update id f)
  := by
  obtain ⟨n, hn⟩ := Board.exists_get? h
  rw [change, runOn_bind_ok (runOn_lookUp hn)]
  rfl

/-- The payload of a node is changed if the node is there, and otherwise there is nothing to change. -/
theorem runOn_adjust (b : Board) (id : NodeId) (f : Kind → Kind) :
  runOn (adjust id f) b = some (.ok (), b.update id f)
  := by
  rw [adjust, runOn_bind_ok (runOn_get b)]
  cases h : b.contains id with
  | true => rfl
  | false =>
    rw [Board.update_of_not_contains h]
    rfl

/-- A slot that is there is written. -/
theorem runOn_writeSlot (hn : b.get? id = some n) {slot : Nat} (hslot : slot < n.kind.inputs.length)
    (content : Slot) :
  runOn (writeSlot id slot content) b = some (.ok (), b.update id (Kind.setInput slot content))
  := by
  rw [writeSlot, runOn_bind_ok (runOn_lookUp hn), if_pos hslot]
  rfl

/-- A node on the board is taken off. -/
theorem runOn_takeOff (hn : b.get? id = some n) :
  runOn (takeOff id) b = some (.ok n, b.erase id)
  := by
  rw [takeOff, runOn_bind_ok (runOn_lookUp hn)]
  rfl

/-! ## Placing, moving and emptying slots -/

/-- What an edit comes to when it is done as a whole or leaves the board as it was. -/
def whole (b : Board) : Except BoardError (α × Board) → Except Halt α × Board
  | .error e => (.error (.error e), b)
  | .ok (a, b') => (.ok a, b')

/-- Placing a node in place is placing it. -/
theorem runOn_insert (b : Board) (n : Node) :
  runOn (insert n) b = some (whole b ((b.insert n).map fun b' => (n.id, b')))
  := by
  rw [insert, runOn_bind_ok (runOn_get b)]
  split
  · next m hm =>
    rw [Board.insert_of_some hm]
    rfl
  · next hnone =>
    rw [Board.insert_of_none hnone]
    rfl

/-- Moving a node in place is moving it. -/
theorem runOn_move (b : Board) (id : NodeId) (x y : Binary64) :
  runOn (move id x y) b = some (whole b ((b.move id x y).map fun b' => ((), b')))
  := by
  rw [move, Board.move, Board.require]
  cases hn : b.get? id with
  | none =>
    rw [runOn_bind_error (runOn_lookUp_none hn)]
    rfl
  | some n =>
    rw [runOn_bind_ok (runOn_lookUp hn)]
    rfl

/-- A producer forgets a wire if it is there. -/
theorem runOn_forget (b : Board) (consumer producer : NodeId) (stillFed : Bool) :
  runOn (forget consumer producer stillFed) b
    = some (.ok (), b.update producer (Board.releaseWire consumer stillFed))
  := by
  rw [forget, runOn_bind_ok (runOn_get b)]
  cases hp : b.get? producer with
  | none =>
    have habsent : b.contains producer = false := by rw [Board.contains, hp, Option.isSome_none]
    rw [Board.update_of_not_contains habsent]
    rfl
  | some p =>
    dsimp only
    cases hfan : p.kind.isFanOut with
    | true =>
      have hsame : b.update producer (Kind.releaseOnce consumer)
          = b.update producer (Board.releaseWire consumer stillFed) := by
        apply Board.update_congr hp
        rw [Board.releaseWire, if_pos hfan]
      rw [if_pos rfl, runOn_adjust, hsame]
    | false =>
      cases stillFed with
      | true =>
        have hsame : b.update producer (Board.releaseWire consumer true) = b := by
          apply Board.update_eq_self hp
          rw [Board.releaseWire, hfan]
          rfl
        rw [hsame]
        rfl
      | false =>
        have hsame : b.update producer (Kind.release consumer)
            = b.update producer (Board.releaseWire consumer false) := by
          apply Board.update_congr hp
          rw [Board.releaseWire, hfan]
          rfl
        rw [← hsame]
        apply runOn_adjust

/-- Emptying a slot in place is emptying it: once the slot is empty, nothing can fail. -/
theorem runOn_disconnect (b : Board) (consumer : NodeId) (slot : Nat) :
  runOn (disconnect consumer slot) b = some (whole b (b.disconnect consumer slot))
  := by
  rw [disconnect, Board.disconnect, Board.require]
  cases hc : b.get? consumer with
  | none =>
    rw [runOn_bind_error (runOn_lookUp_none hc)]
    rfl
  | some c =>
    rw [runOn_bind_ok (runOn_lookUp hc)]
    cases hslot : c.kind.input slot with
    | none =>
      simp only [hslot, bind, Except.bind]
      rfl
    | some producer =>
      dsimp only
      rw [runOn_bind_ok (runOn_change (Board.contains_of_get? hc) _),
        runOn_bind_ok (runOn_forget _ _ _ _)]
      simp only [hslot, bind, Except.bind]
      rfl

/-! ## Wiring -/

/-- What feeds the slot of a consumer on the board is unlinked. -/
theorem runOn_unlink {c : Node} (hc : b.get? consumer = some c) (target : Option Nat) :
  runOn (unlink consumer target) b = some (.ok (), b.unlinked consumer target)
  := by
  cases target with
  | none => rfl
  | some slot =>
    obtain ⟨b', hd, -⟩ := Board.exists_disconnect hc slot
    have hrun := runOn_disconnect b consumer slot
    rw [hd] at hrun
    rw [unlink, runOn_bind_ok hrun, Board.unlinked, hd]
    rfl

/-- A producer on the board is cut off from the node that it fed before. -/
theorem runOn_retarget (hp : b.contains producer = true) (consumer : NodeId) :
  runOn (retarget consumer producer) b = some (.ok (), b.retarget consumer producer)
  := by
  obtain ⟨p, hp⟩ := Board.exists_get? hp
  rw [retarget, Board.retarget, runOn_bind_ok (runOn_lookUp hp), hp, Option.bind_some]
  cases p.kind.output with
  | none => rfl
  | some previous =>
    dsimp only
    split
    · rfl
    · apply runOn_adjust

/-- A wire is written when both nodes are on the board and the slot, if it is not to be gained, is
there. -/
theorem runOn_writeWire (hc : b.get? consumer = some n) (hp : b.contains producer = true)
    {target : Option Nat} (htarget : ∀ slot, target = some slot → slot < n.kind.inputs.length) :
  runOn (writeWire consumer target producer) b
    = some (.ok (), b.writeWire consumer target producer)
  := by
  cases target with
  | none =>
    rw [writeWire, runOn_bind_ok (runOn_change (Board.contains_of_get? hc) _), runOn_change]
    · rfl
    · rwa [Board.contains_update]
  | some slot =>
    rw [writeWire, runOn_bind_ok (runOn_writeSlot hc (htarget slot rfl) _), runOn_change]
    · rfl
    · rwa [Board.contains_update]

/-- Wiring in place is wiring: after the first two look-ups nothing can fail. -/
theorem runOn_connect (b : Board) (consumer : NodeId) (slot : Nat) (producer : NodeId) :
  runOn (connect consumer slot producer) b
    = some (whole b ((b.connect consumer slot producer).map fun r => (r.isSome, r.getD b)))
  := by
  rw [connect]
  cases hc : b.get? consumer with
  | none =>
    rw [runOn_bind_error (runOn_lookUp_none hc), Board.connect, Board.require, hc]
    rfl
  | some c =>
    rw [runOn_bind_ok (runOn_lookUp hc)]
    cases hp : b.get? producer with
    | none =>
      rw [runOn_bind_error (runOn_lookUp_none hp), Board.connect, Board.require, hc, Board.require, hp]
      rfl
    | some p =>
      rw [runOn_bind_ok (runOn_lookUp hp), Board.connect_eq hc hp]
      simp only [Board.canConnect_iff hc hp]
      by_cases hunfit : consumer = producer ∨ ¬ c.kind.accepts slot p.kind = true
      · rw [if_pos hunfit, if_neg (not_not.2 hunfit)]
        rfl
      · have haccepts := not_not.1 (not_or.1 hunfit).2
        have hunlinked := Board.SameSlots.unlinked hc (Board.targetSlot c.kind slot)
        have hcut := hunlinked.trans (.retarget _ consumer producer)
        have hp₁ := (hunlinked.contains producer).trans (Board.contains_of_get? hp)
        have hp₂ := (hcut.contains producer).trans (Board.contains_of_get? hp)
        obtain ⟨c₂, hc₂, hlength⟩ := hcut.exists_get? hc
        have htarget : ∀ index, Board.targetSlot c.kind slot = some index →
            index < c₂.kind.inputs.length := by
          intro index hindex
          obtain ⟨rfl, hlt⟩ := Board.targetSlot_eq_some haccepts hindex
          rwa [hlength]
        rw [if_neg hunfit, if_pos hunfit, runOn_bind_ok (runOn_unlink hc _),
          runOn_bind_ok (runOn_retarget hp₁ consumer),
          runOn_bind_ok (runOn_writeWire hc₂ hp₂ htarget)]
        rfl

/-! ## Removing -/

/-- Changing the payloads of some nodes one after the other is changing them at once, when a second
change of one payload does nothing more. -/
theorem runOn_forM_adjust (hf : ∀ k, f (f k) = f k) (ids : List NodeId) (b : Board) :
  runOn (ids.forM fun id => adjust id f) b
    = some (.ok (), b.mapKinds fun id k => if id ∈ ids then f k else k)
  := by
  induction ids generalizing b with
  | nil =>
    simp only [List.not_mem_nil, if_false, Board.mapKinds_id]
    rfl
  | cons id ids ih =>
    show runOn (adjust id f >>= fun _ => ids.forM fun id => adjust id f) b = _
    rw [runOn_bind_ok (runOn_adjust b id f), ih, Board.update, Board.mapKinds_mapKinds]
    congr 2
    apply Board.mapKinds_congr
    intro id' k
    by_cases hid : id' = id
    · simp [hid, hf]
    · simp [hid]

/-- A node on the board is taken away in place as it is taken away. -/
theorem runOn_detach (hn : b.get? id = some n) :
  runOn (detach id) b = some (.ok n, b.detach n)
  := by
  have hrelease : ∀ k : Kind, (k.release id).release id = k.release id := by
    intro k
    cases k <;> simp [Kind.release, Kind.mapConsumers]
  have hclear : ∀ k : Kind, (k.clearInputsFrom id).clearInputsFrom id = k.clearInputsFrom id := by
    intro k
    cases k <;> simp [Kind.clearInputsFrom, Kind.mapInputs, Function.comp_def]
  obtain ⟨-, rfl⟩ := Board.get?_eq_some_iff.1 hn
  rw [detach, runOn_bind_ok (runOn_takeOff hn), runOn_bind_ok (runOn_forM_adjust hrelease _ _),
    runOn_bind_ok (runOn_forM_adjust hclear _ _), Board.mapKinds_mapKinds, Board.detach]
  cases hfunction : n.kind.isFunction with
  | true =>
    show some (Except.ok n, Board.mapKinds _ fun _ => Kind.clearInputsFrom n.id) = _
    rw [Board.mapKinds_mapKinds]
    congr 2
    apply Board.mapKinds_congr
    intro id k
    simp only [List.reduceOption_mem_iff, Bool.true_or, if_true]
    split
    · apply hclear
    · rfl
  | false =>
    show some (Except.ok n, Board.mapKinds _ _) = _
    congr 2
    apply Board.mapKinds_congr
    intro id k
    simp only [List.reduceOption_mem_iff, Bool.false_or, decide_eq_true_eq]

/-- A node that is no function is removed alone. -/
theorem runOn_remove_of_not_isFunction (hn : b.get? id = some n) (h : n.kind.isFunction = false) :
  runOn id.remove b = some (.ok [n], b.detach n)
  := by
  rw [NodeId.remove, runOn_bind_ok (runOn_lookUp hn), runOn_bind_ok (runOn_get b),
    Board.scope_of_not_isFunction h]
  show runOn (pure [] >>= fun removed => detach id >>= fun n => pure (removed ++ [n])) b = _
  rw [pure_bind, runOn_bind_ok (runOn_detach hn)]
  rfl

/-- No function appears when a node is taken away. -/
theorem not_isFunction_of_get?_detach {m : Node} (h : (b.detach n).get? id = some m)
    (hb : ∀ m, b.get? id = some m → m.kind.isFunction = false) :
  m.kind.isFunction = false
  := by
  obtain ⟨hm, rfl⟩ := Board.get?_eq_some_iff.1 h
  rw [Board.detach_eq, Board.mem_nodes_mapKinds] at hm
  obtain ⟨m', hm', rfl⟩ := hm
  rw [Kind.isFunction_congr Board.tag_cut]
  apply hb
  exact Board.get?_of_mem (Board.mem_nodes_erase.1 hm').1

/-- Nodes that are no functions are removed one after the other, as far as they are there. -/
theorem runOn_members (ids : List NodeId) (removed : List Node) (b : Board)
    (h : ∀ id ∈ ids, ∀ n, b.get? id = some n → n.kind.isFunction = false) :
  runOn (ids.foldlM (fun removed member => do
      if (← get).contains member then return removed ++ (← member.remove)
      else return removed) removed) b
    = some (.ok (ids.foldl Board.detachNoting (removed, b)).1,
        (ids.foldl Board.detachNoting (removed, b)).2)
  := by
  induction ids generalizing removed b with
  | nil => rfl
  | cons id ids ih =>
    obtain ⟨hid, hids⟩ := List.forall_mem_cons.1 h
    have hstep : runOn (do
          if (← get).contains id then return removed ++ (← id.remove)
          else return removed) b
        = some (.ok (Board.detachNoting (removed, b) id).1, (Board.detachNoting (removed, b) id).2) := by
      rw [runOn_bind_ok (runOn_get b), Board.detachNoting, Board.contains]
      cases hn : b.get? id with
      | none => rfl
      | some n =>
        show runOn (id.remove >>= fun ns => pure (removed ++ ns)) b = _
        rw [runOn_bind_ok (runOn_remove_of_not_isFunction hn (hid n hn))]
        rfl
    rw [List.foldlM_cons, List.foldl_cons, runOn_bind_ok hstep]
    apply ih
    intro id' hid' m hm
    rw [Board.detachNoting] at hm
    dsimp only at hm
    split at hm
    · apply hids id' hid' m hm
    · apply not_isFunction_of_get?_detach hm (hids id' hid')

/-- A node is still there when others have been taken away. -/
theorem contains_foldl_detachNoting (ids : List NodeId) (hid : id ∉ ids) (removed : List Node)
    (b : Board) :
  (ids.foldl Board.detachNoting (removed, b)).2.contains id = b.contains id
  := by
  induction ids generalizing removed b with
  | nil => rfl
  | cons id' ids ih =>
    rw [List.mem_cons, not_or] at hid
    obtain ⟨hne, hid⟩ := hid
    rw [List.foldl_cons, ih hid, Board.detachNoting]
    dsimp only
    split
    · rfl
    · next n hn =>
      rw [Board.detach_eq, Board.contains_mapKinds, Board.id_of_get? hn, Bool.eq_iff_iff,
        Board.contains_iff, Board.contains_iff, Board.mem_ids_erase]
      exact and_iff_left hne

/-- Removing in place is removing: whatever the nodes that belong to a function leave behind, the
function is still there when its turn comes. -/
theorem runOn_remove (b : Board) (id : NodeId) :
  runOn id.remove b = some (whole b (b.remove id))
  := by
  rw [Board.remove, Board.require]
  cases hf : b.get? id with
  | none =>
    rw [NodeId.remove, runOn_bind_error (runOn_lookUp_none hf)]
    rfl
  | some f =>
    have hmembers : ∀ m ∈ (b.scope f).map Node.id, ∀ n, b.get? m = some n →
        n.kind.isFunction = false := by
      intro m hm n hn
      obtain ⟨n', hn', rfl⟩ := List.mem_map.1 hm
      rw [Board.get?_of_mem (Board.mem_of_mem_scope hn')] at hn
      obtain rfl := Option.some.inj hn
      apply Node.not_isFunction_of_belongsTo (List.mem_filter.1 hn').2
    have hthere := contains_foldl_detachNoting _ (Board.not_mem_ids_scope hf) [] b
    rw [Board.contains_of_get? hf] at hthere
    obtain ⟨n, hn⟩ := Board.exists_get? hthere
    rw [NodeId.remove, runOn_bind_ok (runOn_lookUp hf), runOn_bind_ok (runOn_get b),
      runOn_bind_ok (runOn_members _ [] b hmembers)]
    show runOn (detach id >>= fun n => pure (_ ++ [n])) _ = _
    rw [runOn_bind_ok (runOn_detach hn)]
    simp only [bind, Except.bind, List.foldl_append, List.foldl_cons, List.foldl_nil]
    rw [Board.detachNoting, hn]
    rfl

/-! ## All or nothing -/

/-- The steps come to an end with an outcome. When they succeed they are done; when they fail the board is as it
was. -/
def Settles (steps : InPlace α) (b : Board) (outcome : Except Halt α) (done : α → Board → Prop) :
    Prop :=
  ∃ b', runOn steps b = some (outcome, b') ∧
    match outcome with
    | .ok a => done a b'
    | .error _ => b' = b

/-- Steps that come to an edit that succeeds are done. -/
theorem settles_of_ok {steps : InPlace α} {edit : Except BoardError (α × Board)} {a : α}
    {done : α → Board → Prop} (h : runOn steps b = some (whole b edit)) (hedit : edit = .ok (a, b'))
    (hdone : done a b') :
  Settles steps b (.ok a) done
  := by
  subst hedit
  exact ⟨b', h, hdone⟩

/-- Steps that come to an edit that fails leave the board as it was. -/
theorem settles_of_error {steps : InPlace α} {edit : Except BoardError (α × Board)} {e : BoardError}
    {done : α → Board → Prop} (h : runOn steps b = some (whole b edit)) (hedit : edit = .error e) :
  Settles steps b (.error (.error e)) done
  := by
  subst hedit
  exact ⟨b, h, rfl⟩

/-- Wiring fails for a node that is missing, first the consumer and then the producer. Otherwise it
answers whether the nodes may be wired, and wires them if they may. -/
theorem settles_connect (b : Board) (consumer : NodeId) (slot : Nat) (producer : NodeId) :
  Settles (connect consumer slot producer) b
    (if b.contains consumer = false then .error (.error (.notFound consumer))
      else if b.contains producer = false then .error (.error (.notFound producer))
      else .ok (b.canConnect consumer slot producer))
    fun fits b' =>
      if fits = true then b.connect consumer slot producer = .ok (some b')
      else b' = b ∧ b.connect consumer slot producer = .ok none
  := by
  have hrun := runOn_connect b consumer slot producer
  cases hc : b.contains consumer with
  | false =>
    apply settles_of_error hrun
    rw [Board.connect, Board.require, Board.get?_of_not_contains hc]
    rfl
  | true =>
    obtain ⟨c, hget⟩ := Board.exists_get? hc
    cases hp : b.contains producer with
    | false =>
      apply settles_of_error hrun
      rw [Board.connect, Board.require, Board.require, hget, Board.get?_of_not_contains hp]
      rfl
    | true =>
      obtain ⟨p, hget'⟩ := Board.exists_get? hp
      have heq := Board.connect_eq hget hget' slot
      simp only [Bool.true_eq_false, if_false]
      cases hfit : b.canConnect consumer slot producer with
      | false =>
        rw [hfit] at heq
        apply settles_of_ok hrun _ ⟨rfl, heq⟩
        rw [heq]
        rfl
      | true =>
        rw [hfit, if_pos rfl] at heq
        apply settles_of_ok hrun _ heq
        rw [heq]
        rfl

/-- Emptying a slot fails when the node is missing. Otherwise it answers what fed the slot, and empties
the slot if something did. -/
theorem settles_disconnect (b : Board) (consumer : NodeId) (slot : Nat) :
  Settles (disconnect consumer slot) b
    (match b.get? consumer with
      | none => .error (.error (.notFound consumer))
      | some c => .ok (c.kind.input slot))
    fun former b' => b.disconnect consumer slot = .ok (former, b') ∧ (former = none → b' = b)
  := by
  have hrun := runOn_disconnect b consumer slot
  cases hc : b.get? consumer with
  | none =>
    apply settles_of_error hrun
    rw [Board.disconnect, Board.require, hc]
    rfl
  | some c =>
    obtain ⟨b', hd, hempty, -⟩ := Board.exists_disconnect hc slot
    exact settles_of_ok hrun hd ⟨hd, hempty⟩

/-- Moving fails when the node is missing. -/
theorem settles_move (b : Board) (id : NodeId) (x y : Binary64) :
  Settles (move id x y) b
    (if b.contains id = true then .ok () else .error (.error (.notFound id)))
    fun _ b' => b.move id x y = .ok b'
  := by
  have hrun := runOn_move b id x y
  cases hid : b.contains id with
  | true =>
    obtain ⟨n, hn⟩ := Board.exists_get? hid
    have hmove : b.move id x y = .ok (b.place id x y) := by
      rw [Board.move, Board.require, hn]
      rfl
    apply settles_of_ok hrun _ hmove
    rw [hmove]
    rfl
  | false =>
    apply settles_of_error hrun
    rw [Board.move, Board.require, Board.get?_of_not_contains hid]
    rfl

/-- Removing fails when the node is missing. -/
theorem settles_remove (b : Board) (id : NodeId) :
  ∃ removed, Settles id.remove b
    (if b.contains id = true then .ok removed else .error (.error (.notFound id)))
    fun _ b' => b.remove id = .ok (removed, b')
  := by
  have hrun := runOn_remove b id
  cases hid : b.contains id with
  | true =>
    obtain ⟨n, hn⟩ := Board.exists_get? hid
    obtain ⟨removed, b', hremove⟩ : ∃ removed b', b.remove id = .ok (removed, b') := by
      rw [Board.remove, Board.require, hn]
      exact ⟨_, _, rfl⟩
    use removed
    exact settles_of_ok hrun hremove hremove
  | false =>
    use []
    apply settles_of_error hrun
    rw [Board.remove, Board.require, Board.get?_of_not_contains hid]
    rfl

/-- Placing fails when the id is taken. -/
theorem settles_insert (b : Board) (n : Node) :
  Settles (insert n) b
    (if b.contains n.id = true then .error (.error (.duplicate n.id)) else .ok n.id)
    fun _ b' => b.insert n = .ok b'
  := by
  have hrun := runOn_insert b n
  cases hid : b.contains n.id with
  | true =>
    obtain ⟨m, hm⟩ := Board.exists_get? hid
    apply settles_of_error hrun
    rw [Board.insert_of_some hm]
    rfl
  | false =>
    have hinsert := Board.insert_of_none (Board.get?_of_not_contains hid)
    apply settles_of_ok hrun _ hinsert
    rw [hinsert]
    rfl

/-- An edit is done as a whole or leaves the board as it was. Wiring does what it is predicted to do; an
edit fails only for a node that is missing, or that is there already when it is placed; and what an
edit does is what the edit that makes a new board does. -/
theorem settles_edits (b : Board) :
  (∀ consumer slot producer, Settles (connect consumer slot producer) b
    (if b.contains consumer = false then .error (.error (.notFound consumer))
      else if b.contains producer = false then .error (.error (.notFound producer))
      else .ok (b.canConnect consumer slot producer))
    fun fits b' =>
      if fits = true then b.connect consumer slot producer = .ok (some b')
      else b' = b ∧ b.connect consumer slot producer = .ok none) ∧
  (∀ consumer slot, ∀ steps ∈ [disconnect consumer slot, removeConnection consumer slot],
    Settles steps b
      (match b.get? consumer with
        | none => .error (.error (.notFound consumer))
        | some c => .ok (c.kind.input slot))
      fun former b' => b.disconnect consumer slot = .ok (former, b') ∧ (former = none → b' = b)) ∧
  (∀ id x y, Settles (move id x y) b
    (if b.contains id = true then .ok () else .error (.error (.notFound id)))
    fun _ b' => b.move id x y = .ok b') ∧
  (∀ id, ∃ removed, Settles id.remove b
    (if b.contains id = true then .ok removed else .error (.error (.notFound id)))
    fun _ b' => b.remove id = .ok (removed, b')) ∧
  (∀ n, Settles (insert n) b
    (if b.contains n.id = true then .error (.error (.duplicate n.id)) else .ok n.id)
    fun _ b' => b.insert n = .ok b')
  := by
  refine ⟨settles_connect b, ?_, settles_move b, settles_remove b, settles_insert b⟩
  intro consumer slot steps hsteps
  have hsame : steps = disconnect consumer slot := by
    rcases List.mem_pair.1 hsteps with rfl | rfl <;> rfl
  rw [hsame]
  apply settles_disconnect

end InPlace

end Patchboard
