import Patchboard.Compile.Function
import Patchboard.Proofs.Compile.Hoisting

/-!
# What a function compiles to

A function compiles from four things, in this order: the types of its parameters, its only return,
the type of the return and the statements that the return needs.
-/

namespace Patchboard

variable {α ε : Type}

/-- Two results in a row fail when the first fails, or the second after it. -/
theorem bind_eq_error_iff {β : Type} {x : Except ε α} {f : α → Except ε β} {d : ε} :
  (x >>= f) = .error d ↔ x = .error d ∨ ∃ a, x = .ok a ∧ f a = .error d
  := by
  cases x <;> simp [bind, Except.bind]

/-- Two results in a row succeed when both do. -/
theorem bind_eq_ok_iff {β : Type} {x : Except ε α} {f : α → Except ε β} {y : β} :
  (x >>= f) = .ok y ↔ ∃ a, x = .ok a ∧ f a = .ok y
  := by
  cases x <;> simp [bind, Except.bind]

/-- A changed result succeeds when the result does. -/
theorem map_eq_ok_iff {β : Type} {x : Except ε α} {f : α → β} {y : β} :
  x.map f = .ok y ↔ ∃ a, x = .ok a ∧ f a = y
  := by
  cases x <;> simp [Except.map]

/-- A list of results succeeds exactly when all of them do. -/
theorem isOk_mapM_id_iff (xs : List (Except ε α)) :
  (∃ ys, xs.mapM id = .ok ys) ↔ ∀ x ∈ xs, ∃ y, x = .ok y
  := by
  induction xs with
  | nil => simp [pure, Except.pure]
  | cons x xs ih =>
    rw [List.forall_mem_cons, ← ih, List.mapM_cons]
    cases x with
    | error d => simp [bind, Except.bind]
    | ok y => cases xs.mapM id <;> simp [bind, Except.bind, pure, Except.pure]

/-- A list of results succeeds with the list of their values. -/
theorem mapM_id_eq_ok_iff {xs : List (Except ε α)} {ys : List α} :
  xs.mapM id = .ok ys ↔ xs = ys.map .ok
  := by
  induction xs generalizing ys with
  | nil => cases ys <;> simp [pure, Except.pure]
  | cons x xs ih =>
    rw [List.mapM_cons]
    cases x with
    | error d => cases ys <;> simp [bind, Except.bind]
    | ok y =>
      cases hrest : xs.mapM id with
      | error d =>
        have hnone : ∀ ys, xs ≠ List.map .ok ys := by
          intro ys hys
          rw [ih.2 hys] at hrest
          cases hrest
        cases ys <;> simp [bind, Except.bind, hnone]
      | ok rest =>
        obtain rfl := ih.1 hrest
        cases ys <;> simp [bind, Except.bind, pure, Except.pure, List.map_inj_right]

/-- A list of results fails as one of them does. -/
theorem mem_of_mapM_id_eq_error {xs : List (Except ε α)} {d : ε} (h : xs.mapM id = .error d) :
  .error d ∈ xs
  := by
  induction xs with
  | nil => cases h
  | cons x xs ih =>
    rw [List.mapM_cons] at h
    rcases bind_eq_error_iff.1 h with hfirst | ⟨y, -, h⟩
    · rw [← hfirst]
      exact List.mem_cons_self
    rcases bind_eq_error_iff.1 h with hrest | ⟨ys, -, h⟩
    · exact List.mem_cons_of_mem x (ih hrest)
    · cases h

/-- A function has a sole return when there is one and no other. -/
theorem soleReturn_eq_ok_iff (function : NodeId) (ns : List Node) (r : Node) :
  soleReturn function ns = .ok r ↔ ns = [r]
  := by
  match ns with
  | [] => simp [soleReturn]
  | [n] => simp [soleReturn]
  | n :: n' :: ns => simp [soleReturn]

namespace Board

variable {b : Board} {f r : Node}

/-- The returns that belong to a function. -/
def returnsOf (b : Board) (f : Node) : List Node :=
  (b.scope f).filter fun n => n.kind.isReturn

/-- What the parameters of a function compile to. -/
def paramsOf (b : Board) (f : Node) : Except Diagnostic (List Param) :=
  ((parametersOf (b.scope f)).filterMap Node.param?).mapM id

/-- The only return of a function is a return on the board. -/
theorem returnsOf_spec (h : b.returnsOf f = [r]) :
  r ∈ b.nodes ∧ r.kind.isReturn = true
  := by
  have hr : r ∈ b.returnsOf f := by rw [h]; exact List.mem_singleton_self r
  obtain ⟨hscope, hret⟩ := List.mem_filter.1 hr
  exact ⟨mem_of_mem_scope hscope, hret⟩

/-- A function compiles from its parameters, its only return, the type of the return and the statements
that it needs. -/
theorem compileFunction_eq {name : String} {width height : Binary64}
    (hk : f.kind = .functionDeclaration name width height) :
  b.compileFunction f = do
    let params ← b.paramsOf f
    let ret ← soleReturn f.id (b.returnsOf f)
    let returnType ← ret.returnType
    let body ← b.body f.id ret
    return ⟨name, params, returnType, body⟩
  := by
  rw [compileFunction, hk]
  rfl

/-- A function compiles exactly when its parameters, its return and its statements do. -/
theorem compileFunction_eq_ok_iff {decl : Function} :
  b.compileFunction f = .ok decl
    ↔ ∃ name width height r, f.kind = .functionDeclaration name width height ∧
        b.paramsOf f = .ok decl.params ∧ b.returnsOf f = [r] ∧
        r.returnType = .ok decl.returnType ∧ b.body f.id r = .ok decl.body ∧ decl.name = name
  := by
  obtain ⟨name, params, returnType, body⟩ := decl
  simp only [← soleReturn_eq_ok_iff f.id]
  rw [compileFunction, paramsOf, returnsOf]
  cases f.kind with
  | functionDeclaration name' width height =>
    dsimp only
    cases hparams : ((parametersOf (b.scope f)).filterMap Node.param?).mapM id with
    | error d => simp [bind, Except.bind]
    | ok params' =>
      cases hret : soleReturn f.id ((b.scope f).filter fun n => n.kind.isReturn) with
      | error d => simp [bind, Except.bind]
      | ok r =>
        cases htype : r.returnType with
        | error d => simp [bind, Except.bind, htype]
        | ok type =>
          cases hbody : b.body f.id r with
          | error d => simp [bind, Except.bind, htype, hbody]
          | ok ss =>
            simp only [bind, Except.bind, htype, hbody, pure, Except.pure, Except.ok.injEq,
              Function.mk.injEq, Kind.functionDeclaration.injEq]
            constructor
            · rintro ⟨rfl, rfl, rfl, rfl⟩
              exact ⟨_, _, _, r, ⟨rfl, rfl, rfl⟩, rfl, rfl, htype, hbody, rfl⟩
            · rintro ⟨_, _, _, _, ⟨rfl, rfl, rfl⟩, rfl, rfl, ht, hb, rfl⟩
              rw [htype] at ht
              rw [hbody] at hb
              exact ⟨rfl, rfl, Except.ok.inj ht, Except.ok.inj hb⟩
  | _ => simp

/-- What a function that compiles consists of: a return, parameters, the declarations that the return
needs and the value of the return. -/
theorem compileFunction_ok {decl : Function} (h : b.compileFunction f = .ok decl) :
  ∃ r ns ds value, b.returnsOf f = [r] ∧ r ∈ b.nodes ∧ r.kind.isReturn = true ∧
    b.paramsOf f = .ok decl.params ∧ decl.body = ds ++ [.ret value] ∧ b.SlotWrittenAs r 0 value ∧
    b.Declared r (fun n => n = r) ns ds
  := by
  obtain ⟨_, _, _, r, -, hparams, hret, -, hbody, -⟩ := compileFunction_eq_ok_iff.1 h
  obtain ⟨hr, hreturn⟩ := returnsOf_spec hret
  obtain ⟨-, ns, ds, value, hss, hvalue, hdeclared⟩ := body_ok hr hreturn hbody
  exact ⟨r, ns, ds, value, hret, hr, hreturn, hparams, hss, hvalue, hdeclared⟩

/-- A function that does not compile is no function, or has a parameter, a number of returns, a type of
its return or statements that do not compile. -/
theorem compileFunction_eq_error {d : Diagnostic} (h : b.compileFunction f = .error d) :
  (f.kind.isFunction = false ∧ d = .notAFunction f.id) ∨ b.paramsOf f = .error d ∨
    soleReturn f.id (b.returnsOf f) = .error d ∨
    ∃ r, b.returnsOf f = [r] ∧ (r.returnType = .error d ∨ b.body f.id r = .error d)
  := by
  rw [compileFunction] at h
  cases hk : f.kind with
  | functionDeclaration name width height =>
    rw [hk] at h
    have h : (do
        let params ← b.paramsOf f
        let ret ← soleReturn f.id (b.returnsOf f)
        let returnType ← ret.returnType
        let body ← b.body f.id ret
        return ⟨name, params, returnType, body⟩ : Except Diagnostic Function) = .error d := h
    right
    rcases bind_eq_error_iff.1 h with hparams | ⟨params, -, h⟩
    · exact .inl hparams
    right
    rcases bind_eq_error_iff.1 h with hsole | ⟨r, hsole, h⟩
    · exact .inl hsole
    refine .inr ⟨r, (soleReturn_eq_ok_iff f.id _ r).1 hsole, ?_⟩
    rcases bind_eq_error_iff.1 h with htype | ⟨type, -, h⟩
    · exact .inl htype
    rcases bind_eq_error_iff.1 h with hbody | ⟨ss, -, h⟩
    · exact .inr hbody
    · cases h
  | _ =>
    rw [hk] at h
    exact .inl ⟨rfl, (Except.error.inj h).symm⟩

end Board

end Patchboard
