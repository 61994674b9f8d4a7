import Patchboard.Proofs.Compile.Precedence
import Patchboard.Proofs.Compile.Recorded

/-!
# Counters stay exact

What is on record while a function is written are uses of live slots, one by one, and declarations of bindings
whose count is zero. At every moment the count of a binding is the number of live slots that hold it and have
not been consumed.
-/

namespace Patchboard

variable {α β : Type} {b : Board} {function : NodeId} {n r : Node} {m : Moment} {x x' : Record} {w : Wire}

namespace Moment

/-! ## Moments -/

/-- The slots that have been written. -/
def slots (m : Moment) : List (NodeId × Nat) :=
  m.written.map fun w => (w.consumer, w.slot)

/-- What holds at every moment while a function that ends in a return is written. -/
structure Exact (b : Board) (r : Node) (m : Moment) : Prop where
  /-- Consumed are slots of live nodes, which hold bindings. -/
  consumed : ∀ s ∈ m.uses.consumed, ∃ id, b.isBinding id = true ∧ s ∈ b.readers r id
  /-- Every binding still to be declared has one count, -/
  nodup : m.uses.undeclared.Nodup
  /-- which is the number of the live slots that hold it and have not been consumed. -/
  count : ∀ id k, (id, k) ∈ m.uses.outstanding → k = {s ∈ b.readers r id | s ∉ m.uses.consumed}.ncard
  /-- It is zero when all these slots have been written, and no sooner. -/
  zero : ∀ id k, (id, k) ∈ m.uses.outstanding → (k = 0 ↔ ∀ s ∈ b.readers r id, s ∈ m.slots)

/-- How a moment is followed by the next. -/
inductive Follows : Moment → Moment → Prop
  /-- A slot is written for the first time. There is a count for what it holds, and it is not zero; one is
  taken from it. -/
  | first {m : Moment} {w : Wire} {k : Nat} (new : (w.consumer, w.slot) ∉ m.uses.consumed)
      (count : (w.producer, k + 1) ∈ m.uses.outstanding)
      (left : (w.producer, k) ∈ (m.use w).uses.outstanding) :
      Follows m (m.use w)
  /-- A slot is written again, and no counter changes. -/
  | again {m : Moment} {w : Wire} (old : (w.consumer, w.slot) ∈ m.uses.consumed)
      (same : (m.use w).uses = m.uses) :
      Follows m (m.use w)
  /-- A binding is declared. Its count is zero. -/
  | declared {m : Moment} {id : NodeId} (count : (id, 0) ∈ m.uses.outstanding) :
      Follows m (m.declare id)

/-- What is kept from each moment to the next. -/
structure Sound (b : Board) (r : Node) (m : Moment) : Prop where
  nodup : m.uses.undeclared.Nodup
  counts : m.uses.Counts (b.liveWires r.id)
  consumed : ∀ s ∈ m.uses.consumed,
    ∃ w ∈ b.liveWires r.id, b.isBinding w.producer = true ∧ (w.consumer, w.slot) = s
  /-- A binding that is no longer to be declared has no slot left to be written. -/
  declared : ∀ w ∈ b.liveWires r.id, b.isBinding w.producer = true →
    w.producer ∉ m.uses.undeclared → (w.consumer, w.slot) ∈ m.uses.consumed
  /-- What is to be declared is live. -/
  live : ∀ id ∈ m.uses.undeclared, ∃ n, b.Live r n ∧ n.id = id
  written : ∀ s, s ∈ m.uses.consumed ↔ s ∈ m.slots

/-- The moment when the uses have been counted. -/
theorem sound_start (hr : r ∈ b.nodes) :
  Sound b r (Record.start (b.uses r.id)).now
  := by
  have hundeclared : Uses.undeclared ⟨b.uses r.id, []⟩ = (b.uses r.id).map Prod.fst := rfl
  constructor
  · show (Uses.undeclared ⟨b.uses r.id, []⟩).Nodup
    rw [hundeclared, Board.map_fst_uses]
    apply Board.nodup_eraseDups
  · intro id count h
    simpa [Record.start] using ((Board.mem_uses_iff b r.id id count).1 h).2
  · intro s hs
    cases hs
  · intro w hw hbinding hnew
    apply (hnew _).elim
    show w.producer ∈ Uses.undeclared ⟨b.uses r.id, []⟩
    rw [hundeclared, Board.map_fst_uses, List.mem_eraseDups, List.mem_filter]
    exact ⟨List.mem_map_of_mem hw, hbinding⟩
  · intro id hid
    obtain ⟨n, slot, p, hn, hp, -, hpid⟩ := (Board.mem_map_fst_uses_iff hr id).1 hid
    exact ⟨p, hn.step hp, hpid⟩
  · intro s
    rfl

/-- A live slot is written. -/
theorem Sound.use (h : m.Sound b r) (hr : r ∈ b.nodes) (hw : w ∈ b.liveWires r.id)
    (hbinding : b.isBinding w.producer = true) :
  (m.use w).Sound b r
  := by
  have hconsumed := Uses.mem_consumed_consume m.uses w.consumer w.slot w.producer
  constructor
  · rw [Moment.use, Uses.undeclared_consume]
    exact h.nodup
  · apply h.counts.consume (Board.nodup_liveWires hr) _ hw
    intro v hv v' hv'
    exact Board.eq_of_mem_liveWires hr hv hv'
  · intro s hs
    rcases (hconsumed s).1 hs with rfl | hs
    · exact ⟨w, hw, hbinding, rfl⟩
    · exact h.consumed s hs
  · intro v hv hvbinding hdeclared
    rw [Moment.use, Uses.undeclared_consume] at hdeclared
    exact (hconsumed _).2 (.inr (h.declared v hv hvbinding hdeclared))
  · rw [Moment.use, Uses.undeclared_consume]
    exact h.live
  · intro s
    rw [Moment.use, hconsumed, h.written, slots, slots, List.map_cons, List.mem_cons]

/-- Either the slot is written for the first time or it is written again. -/
theorem Sound.follows_use (h : m.Sound b r) (hw : w ∈ b.liveWires r.id)
    (hbinding : b.isBinding w.producer = true) :
  m.Follows (m.use w)
  := by
  by_cases hold : (w.consumer, w.slot) ∈ m.uses.consumed
  · exact .again hold (if_pos hold)
  · have hundeclared : w.producer ∈ m.uses.undeclared := by
      by_contra hdeclared
      exact hold (h.declared w hw hbinding hdeclared)
    obtain ⟨⟨id, k⟩, hk, hid⟩ := List.mem_map.1 hundeclared
    obtain rfl : id = w.producer := hid
    -- The slot itself is one of those that are counted.
    have hpos : 0 < k := by
      rw [h.counts _ k hk]
      apply List.countP_pos_iff.2 ⟨w, hw, _⟩
      simpa using hold
    obtain ⟨k, rfl⟩ := Nat.exists_eq_add_one.2 hpos
    apply Follows.first hold hk
    rw [Moment.use, Uses.consume, if_neg hold]
    apply List.mem_map.2 ⟨_, hk, _⟩
    simp

/-- A binding that has no use left is declared. -/
theorem Sound.declare (h : m.Sound b r) {id : NodeId} (hid : m.uses.ready? = some id) :
  (m.declare id).Sound b r
  := by
  constructor
  · exact Uses.nodup_undeclared_declare h.nodup id
  · exact h.counts.declare id
  · exact h.consumed
  · intro w hw hbinding hdeclared
    rw [Moment.declare, Uses.mem_undeclared_declare, not_and_not_right] at hdeclared
    by_cases hw' : w.producer ∈ m.uses.undeclared
    · exact (h.counts.ready?_eq_some hid).2 w hw (hdeclared hw')
    · exact h.declared w hw hbinding hw'
  · intro i hi
    exact h.live i ((Uses.mem_undeclared_declare _ _ _).1 hi).1
  · exact h.written

/-- The count of a binding that has no use left is zero. -/
theorem follows_declare {id : NodeId} (hid : m.uses.ready? = some id) :
  m.Follows (m.declare id)
  := .declared (Uses.mem_outstanding_of_ready? hid)

/-- What has been consumed stays consumed. -/
theorem Follows.consumed {m m' : Moment} (h : m.Follows m') :
  m.uses.consumed ⊆ m'.uses.consumed
  := by
  intro s hs
  cases h with
  | first | again => exact (Uses.mem_consumed_consume _ _ _ _ _).2 (.inr hs)
  | declared => exact hs

/-- What is kept makes the counts exact. -/
theorem Sound.exact (h : m.Sound b r) (hr : r ∈ b.nodes) :
  m.Exact b r
  := by
  constructor
  · intro s hs
    obtain ⟨w, hw, hbinding, rfl⟩ := h.consumed s hs
    exact ⟨w.producer, hbinding, (Board.mem_readers_iff hr _ _).2 ⟨w, hw, rfl, rfl⟩⟩
  · exact h.nodup
  · intro id k hk
    rw [h.counts id k hk, Board.ncard_readers hr id (· ∉ m.uses.consumed)]
  · intro id k hk
    rw [h.counts id k hk, List.countP_eq_zero]
    simp only [Board.mem_readers_iff hr, ← h.written, decide_eq_true_eq, not_and, not_not]
    constructor
    · rintro hall _ ⟨w, hw, hid, rfl⟩
      exact hall w hw hid
    · intro hall w hw hid
      exact hall _ ⟨w, hw, hid, rfl⟩

end Moment

namespace Record

/-! ## Records -/

/-- What is kept on record while a function that ends in a return is written, from the moment when its uses
have been counted. -/
structure Sound (b : Board) (r : Node) (x : Record) : Prop where
  moments : ∀ m ∈ x.moments, m.Sound b r
  chain : x.moments.IsChain fun later earlier => earlier.Follows later
  first : x.moments.getLast? = some (start (b.uses r.id)).now

theorem sound_start (hr : r ∈ b.nodes) :
  Sound b r (start (b.uses r.id))
  := by
  constructor
  · intro m hm
    rw [List.mem_singleton.1 hm]
    exact Moment.sound_start hr
  · apply List.isChain_singleton
  · rfl

/-- Another moment comes. -/
theorem Sound.next (h : x.Sound b r) (hm : m.Sound b r) (hfollows : x.now.Follows m) :
  (x.next m).Sound b r
  := by
  constructor
  · exact List.forall_mem_cons.2 ⟨hm, h.moments⟩
  · exact List.isChain_cons_cons.2 ⟨hfollows, h.chain⟩
  · rw [← h.first]
    exact List.getLast?_cons_cons

/-- What has been consumed at some moment is consumed ever after. -/
theorem Sound.pairwise_consumed (h : x.Sound b r) :
  x.moments.Pairwise fun later earlier => earlier.uses.consumed ⊆ later.uses.consumed
  := by
  apply List.IsChain.pairwise
  apply h.chain.imp
  intro later earlier hfollows
  exact hfollows.consumed

/-- Live slots are written. -/
theorem Sound.useAll (h : x.Sound b r) (hr : r ∈ b.nodes) {ws : List Wire}
    (hws : ∀ w ∈ ws, w ∈ b.liveWires r.id ∧ b.isBinding w.producer = true) :
  (x.useAll ws).Sound b r
  := by
  induction ws generalizing x with
  | nil => exact h
  | cons w ws ih =>
    obtain ⟨⟨hw, hbinding⟩, hws⟩ := List.forall_mem_cons.1 hws
    have hnow := h.moments x.now List.mem_cons_self
    exact ih (h.next (hnow.use hr hw hbinding) (hnow.follows_use hw hbinding)) hws

/-- A binding that has no use left is declared. -/
theorem Sound.declare (h : x.Sound b r) {id : NodeId} (hid : x.now.uses.ready? = some id) :
  (x.next (x.now.declare id)).Sound b r
  := h.next ((h.moments x.now List.mem_cons_self).declare hid) (Moment.follows_declare hid)

/-- Writing slots does not change the uses but by consuming them. -/
theorem uses_now_useAll (x : Record) (ws : List Wire) :
  (x.useAll ws).now.uses = x.now.uses.consumeAll ws
  := by
  induction ws generalizing x with
  | nil => rfl
  | cons w ws ih => exact ih (x.next (x.now.use w))

end Record

namespace Recorded

/-! ## Runs -/

/-- From a sound record the steps come to the same result, and leave the uses in the same state, as a part of
a function; and what they put on record is sound. -/
def Keeps (b : Board) (r : Node) (steps : Recorded α) (part : Lowering α) : Prop :=
  ∀ x, x.Sound b r → ∃ outcome x', steps.runFrom x = (outcome, x') ∧ x'.Sound b r ∧
    part.run x.now.uses = outcome.map fun a => (a, x'.now.uses)

theorem Keeps.bind {steps : Recorded α} {next : α → Recorded β} {part : Lowering α}
    {nextPart : α → Lowering β} (h : Keeps b r steps part) (hnext : ∀ a, Keeps b r (next a) (nextPart a)) :
  Keeps b r (steps >>= next) (part >>= nextPart)
  := by
  intro x hx
  obtain ⟨outcome, x', hrun, hsound, hpart⟩ := h x hx
  cases outcome with
  | error d =>
    refine ⟨.error d, x', runFrom_bind_error hrun, hsound, ?_⟩
    rw [StateT.run_bind, hpart]
    rfl
  | ok a =>
    obtain ⟨outcome, x'', hrun', hsound', hpart'⟩ := hnext a x' hsound
    refine ⟨outcome, x'', (runFrom_bind_ok hrun).trans hrun', hsound', ?_⟩
    rw [StateT.run_bind, hpart, ← hpart']
    rfl

theorem keeps_throw (d : Diagnostic) :
  Keeps b r (throw d : Recorded α) (throw d)
  := fun x hx => ⟨.error d, x, rfl, hx, rfl⟩

/-- Steps that keep the record sound go on in lockstep. -/
theorem lockstep_keeps (b : Board) (r : Node) :
  Lockstep fun α (steps : Recorded α) (part : Lowering α) => Keeps b r steps part
  where
  pure a := fun x hx => ⟨.ok a, x, rfl, hx, rfl⟩
  throw d := keeps_throw d
  bind h hnext := h.bind hnext
  lift_bind {_ _ result _ _} hnext := by
    cases result with
    | error d => exact keeps_throw d
    | ok a => exact hnext a rfl

/-- What writes live slots keeps the record sound. -/
theorem Traces.keeps {allowed : Wire → Prop} {steps : Recorded α} {part : Lowering α}
    (h : Traces allowed steps part) (hr : r ∈ b.nodes)
    (hallowed : ∀ w, allowed w → w ∈ b.liveWires r.id ∧ b.isBinding w.producer = true) :
  Keeps b r steps part
  := by
  obtain ⟨outcome, ws, hws, hsteps, hpart⟩ := h
  intro x hx
  refine ⟨outcome, x.useAll ws, hsteps x, hx.useAll hr fun w hw => hallowed w (hws w hw), ?_⟩
  rw [hpart, Record.uses_now_useAll]

/-- What is used in a slot of a live node is a live slot that holds a binding. -/
theorem allowed_of_usesAt (hr : r ∈ b.nodes) (hn : b.Live r n) {slot : Nat} (h : b.UsesAt n slot w) :
  w ∈ b.liveWires r.id ∧ b.isBinding w.producer = true
  := by
  refine ⟨Board.mem_liveWires_of_usesAt hr hn h, ?_⟩
  induction h with
  | direct feed binding => rw [Board.isBinding_id (Board.producer_eq_ok_iff.1 feed).1.2, binding]
  | inner feed _ _ ih => exact ih (hn.step (Board.producer_eq_ok_iff.1 feed).1)

/-- A slot of a live node is written. -/
theorem keeps_input (hr : r ∈ b.nodes) (hn : b.Live r n) (slot : Nat) :
  Keeps b r (b.input function n slot) (b.input function n slot)
  := by
  apply (traces_inputWith (traces_expr b function maxNesting) n slot).keeps hr
  intro w hw
  exact allowed_of_usesAt hr hn hw

/-- The declaration of a live binding is written. -/
theorem keeps_declaration (hr : r ∈ b.nodes) (hn : b.Live r n) :
  Keeps b r (b.declaration function n.id) (b.declaration function n.id)
  := by
  apply (lockstep_keeps b r).declarationWith
  intro n' hn'
  obtain rfl := Option.some.inj (hn'.symm.trans (Board.get?_of_mem (hn.mem hr)))
  exact keeps_input hr hn 0

/-- The next binding is live. It is declared when it has no use left, and its declaration is written. -/
theorem keeps_next (hr : r ∈ b.nodes) :
  Keeps b r (Board.nextWith function (b.declaration function))
    (Board.nextWith function (b.declaration function))
  := by
  intro x hx
  have huses : (MonadUses.uses : Recorded Uses).runFrom x = (.ok x.now.uses, x) := rfl
  rw [Board.run_nextWith, Board.nextWith, runFrom_bind_ok huses]
  cases hready : x.now.uses.ready? with
  | none => exact keeps_throw _ x hx
  | some id =>
    have hnow := hx.moments x.now List.mem_cons_self
    obtain ⟨n, hn, rfl⟩ := hnow.live id (Uses.mem_undeclared_of_ready? hready)
    exact keeps_declaration hr hn _ (hx.declare hready)

/-- The declarations of live bindings are written. -/
theorem keeps_declarations (hr : r ∈ b.nodes) (count : Nat) :
  Keeps b r (b.declarations function count) (b.declarations function count)
  := by
  induction count with
  | zero => exact (lockstep_keeps b r).pure []
  | succ count ih =>
    rw [Board.declarations, Board.declarations]
    apply (keeps_next hr).bind
    intro last
    apply ih.bind
    intro rest
    apply (lockstep_keeps b r).pure

/-- The statements of a function are put on record as they are written. -/
theorem keeps_statements (hr : r ∈ b.nodes) :
  Keeps b r (b.statements function r) (b.statements function r)
  := by
  rw [Board.statements, Board.statements]
  apply Keeps.bind fun x hx => ⟨.ok x.now.uses, x, rfl, hx, rfl⟩
  intro uses
  rw [Board.statementsWith, Board.statementsWith]
  cases (b.dependencies r.id).firstCycle? with
  | some ids => exact keeps_throw _
  | none =>
    apply (keeps_input hr .refl 0).bind
    intro value
    apply (keeps_declarations hr _).bind
    intro ds
    apply (lockstep_keeps b r).pure

/-- The statements of a function, from the uses that have been counted, are what is put on record. -/
theorem body_eq_of_run_statements (hdangling : b.danglingWire? r.id = none) {uses : Uses}
    {outcome : Except Diagnostic (List Stmt)}
    (h : (b.statements function r : Lowering (List Stmt)).run ⟨b.uses r.id, []⟩
      = outcome.map fun ss => (ss, uses)) :
  b.body function r = outcome
  := by
  rw [Board.body, hdangling]
  show Prod.fst <$> (b.statements function r : Lowering (List Stmt)).run _ = outcome
  rw [h]
  cases outcome <;> rfl

/-! ## Results -/

/-- Writing an expression again changes no counter, with however many levels, when all that was consumed the
first time is still consumed. -/
theorem uses_of_run_expr_again {levels : Nat} {e : Expr}
    (h : (b.expr function levels n : Recorded Expr).runFrom x = (.ok e, x')) (levels' : Nat) {later : Record}
    (hsub : x'.now.uses.consumed ⊆ later.now.uses.consumed) :
  ((b.expr function levels' n : Recorded Expr).runFrom later).2.now.uses = later.now.uses
  := by
  obtain ⟨outcome, ws, -, hsteps, hpart⟩ := traces_expr b function levels n
  obtain ⟨rfl, rfl⟩ := Prod.mk.inj ((hsteps x).symm.trans h)
  have hspends := Board.spends_of_run_expr (hpart x.now.uses)
  obtain ⟨outcome', ws', hws', hsteps', -⟩ := traces_expr b function levels' n
  rw [hsteps']
  apply Record.uses_useAll
  intro w hw
  apply hsub
  rw [Record.uses_now_useAll]
  exact (hspends.mem_consumed_iff _).2 (.inr ⟨w, hws' w hw, rfl⟩)

/-- Writing an expression on the record leaves the uses in the same state as writing it. -/
theorem run_expr_of_runFrom_expr (b : Board) (function : NodeId) (n : Node) (levels : Nat) (x : Record) :
  ∃ outcome x', (b.expr function levels n : Recorded Expr).runFrom x = (outcome, x') ∧
    (b.expr function levels n : Lowering Expr).run x.now.uses = outcome.map fun e => (e, x'.now.uses)
  := by
  obtain ⟨outcome, ws, -, hsteps, hpart⟩ := traces_expr b function levels n
  refine ⟨outcome, x.useAll ws, hsteps x, ?_⟩
  rw [hpart, Record.uses_now_useAll]

/-- While a function is written from the uses that have been counted, up to its end or to what stops it, the
counters are exact at every moment, and each moment is followed by the next as it should be. What has been
consumed stays consumed; and writing an expression again changes no counter after that, with however many
levels. On the record the same is written as without it, and it leaves the same uses. -/
theorem counters_exact :
  (∀ (b : Board) (function : NodeId) (r : Node) (w : Walk), r ∈ b.nodes →
    (Walking.countReferences b r).runFrom .start = some (.ok (), w) →
    ∃ x, (b.statements function r : Recorded (List Stmt)).runFrom (.start w.references)
        = (b.body function r, x) ∧
      (b.statements function r : Lowering (List Stmt)).run ⟨w.references, []⟩
        = (b.body function r).map (fun ss => (ss, x.now.uses)) ∧
      x.moments.getLast? = some (Record.start w.references).now ∧
      x.moments.IsChain (fun later earlier => earlier.Follows later) ∧
      x.moments.Pairwise (fun later earlier => earlier.uses.consumed ⊆ later.uses.consumed) ∧
      ∀ m ∈ x.moments, m.Exact b r) ∧
  (∀ (b : Board) (function : NodeId) (n : Node) (levels : Nat) (x : Record),
    ∃ outcome x', (b.expr function levels n : Recorded Expr).runFrom x = (outcome, x') ∧
      (b.expr function levels n : Lowering Expr).run x.now.uses
        = outcome.map fun e => (e, x'.now.uses)) ∧
  ∀ (b : Board) (function : NodeId) (n : Node) (levels : Nat) (x x' : Record) (e : Expr),
    (b.expr function levels n : Recorded Expr).runFrom x = (.ok e, x') →
    ∀ (levels' : Nat) (later : Record), x'.now.uses.consumed ⊆ later.now.uses.consumed →
      ((b.expr function levels' n : Recorded Expr).runFrom later).2.now.uses = later.now.uses
  := by
  refine ⟨?_, run_expr_of_runFrom_expr, ?_⟩
  · intro b function r w hr hcount
    obtain ⟨hdangling, hreferences⟩ := Walking.references_of_countReferences hr hcount
    obtain ⟨outcome, x, hrun, hsound, hpart⟩ := keeps_statements hr _ (Record.sound_start hr)
    obtain rfl := body_eq_of_run_statements hdangling hpart
    rw [hreferences]
    refine ⟨x, hrun, hpart, hsound.first, hsound.chain, hsound.pairwise_consumed, ?_⟩
    intro m hm
    exact (hsound.moments m hm).exact hr
  · intro b function n levels x x' e h levels' later hsub
    exact uses_of_run_expr_again h levels' hsub

/-- The return of a board where a sum is written twice. -/
def sharedReturn : Node :=
  ⟨⟨7⟩, .ofNat 0, .ofNat 0, .returnStatement "infer" false (some ⟨6⟩)⟩

/-- The sum. -/
def sharedNode : Node :=
  ⟨⟨3⟩, .ofNat 0, .ofNat 0, .binaryExpression "+" (some ⟨2⟩) (some ⟨2⟩) (some ⟨4⟩)⟩

/-- The counters are exact on the board where a sum of a variable with itself is written twice. Writing it for
the second time changes no counter. -/
theorem counters_exact_sharedSum :
  (∃ w, (Walking.countReferences Board.sharedSum sharedReturn).runFrom .start = some (.ok (), w) ∧
    ∃ x, (Board.sharedSum.statements ⟨0⟩ sharedReturn : Recorded (List Stmt)).runFrom (.start w.references)
        = (Board.sharedSum.body ⟨0⟩ sharedReturn, x) ∧
      ∀ m ∈ x.moments, m.Exact Board.sharedSum sharedReturn) ∧
  ∃ e x, (Board.sharedSum.expr ⟨0⟩ 2 sharedNode : Recorded Expr).runFrom (.start [(⟨2⟩, 2)]) = (.ok e, x) ∧
    x.now.uses.outstanding = [(⟨2⟩, 0)] ∧
    ((Board.sharedSum.expr ⟨0⟩ 2 sharedNode : Recorded Expr).runFrom x).2.now.uses = x.now.uses
  := by
  constructor
  · have hr : sharedReturn ∈ Board.sharedSum.nodes := by decide
    have hdangling : Board.sharedSum.danglingWire? sharedReturn.id = none := by decide
    have hend := Walking.runFrom_countReferences hr hdangling
    obtain ⟨x, hrun, -, -, -, -, hexact⟩ := counters_exact.1 Board.sharedSum ⟨0⟩ sharedReturn _ hr hend
    exact ⟨_, hend, x, hrun, hexact⟩
  · have hok : ((Board.sharedSum.expr ⟨0⟩ 2 sharedNode : Recorded Expr).runFrom
        (.start [(⟨2⟩, 2)])).1.isOk = true := by
      decide +kernel
    have hleft : ((Board.sharedSum.expr ⟨0⟩ 2 sharedNode : Recorded Expr).runFrom
        (.start [(⟨2⟩, 2)])).2.now.uses.outstanding = [(⟨2⟩, 0)] := by
      decide +kernel
    rcases hrun : (Board.sharedSum.expr ⟨0⟩ 2 sharedNode : Recorded Expr).runFrom (.start [(⟨2⟩, 2)])
      with ⟨outcome, x⟩
    rw [hrun] at hok hleft
    cases outcome with
    | error d => cases hok
    | ok e =>
      refine ⟨e, x, rfl, hleft, ?_⟩
      exact counters_exact.2.2 Board.sharedSum ⟨0⟩ sharedNode 2 _ _ _ hrun 2 _ (List.Subset.refl _)

end Recorded

end Patchboard
