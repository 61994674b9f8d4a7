import Patchboard.CommandLine.Report
import Patchboard.Proofs.Source.Scribe

/-!
# Compiling a board and its functions

A board compiles function by function. Its text is the texts of its functions, as each of them is written
alone, in the order of the board; or it has the diagnostics of the functions that do not compile, in the same
order. A command that names a function answers with what the first function of this name compiles to,
whatever the others do.
-/

namespace Patchboard

open CommandLine (Failure FileFault load output programOf)

variable {b : Board} {f : Node} {name : String} {options : SourceOptions}

/-- A node is a function of a name. -/
def Node.IsNamed (f : Node) (name : String) : Prop :=
  ∃ width height, f.kind = .functionDeclaration name width height

namespace Board

/-! ## Functions -/

/-- The functions that do not compile, in order. -/
def failing (b : Board) : List Node :=
  b.functions.filter fun f => !(b.compileFunction f).isOk

/-- The diagnostics among the results of some functions are those of the functions that do not compile. -/
theorem forall₂_diagnosticsOf (b : Board) (fs : List Node) :
  List.Forall₂ (fun f d => b.compileFunction f = .error d)
    (fs.filter fun f => !(b.compileFunction f).isOk) (diagnosticsOf (fs.map b.compileFunction))
  := by
  induction fs with
  | nil => exact .nil
  | cons f fs ih =>
    rw [List.filter_cons, List.map_cons, diagnosticsOf]
    cases h : b.compileFunction f with
    | error d => exact .cons h ih
    | ok decl => exact ih

/-- A board with a function that does not compile has the diagnostics of all these functions. -/
theorem compile_eq_error (h : ∃ f ∈ b.functions, ∃ d, b.compileFunction f = .error d) :
  ∃ ds, b.compile = .error ds ∧ List.Forall₂ (fun f d => b.compileFunction f = .error d) b.failing ds
  := by
  have hdiagnostics := b.forall₂_diagnosticsOf b.functions
  refine ⟨_, ?_, hdiagnostics⟩
  obtain ⟨f, hf, d, hd⟩ := h
  have hfailing : f ∈ b.functions.filter fun f => !(b.compileFunction f).isOk := by
    rw [List.mem_filter, hd]
    exact ⟨hf, rfl⟩
  rw [compile, compiledFunctions]
  cases hds : diagnosticsOf (b.functions.map b.compileFunction) with
  | nil =>
    rw [hds, List.forall₂_nil_right_iff] at hdiagnostics
    rw [hdiagnostics] at hfailing
    cases hfailing
  | cons d ds => rfl

/-- A board compiles to what its functions compile to. -/
theorem compile_eq_ok {decl : Node → Function}
    (h : ∀ f ∈ b.functions, b.compileFunction f = .ok (decl f)) :
  b.compile = .ok ⟨b.functions.map decl⟩
  := by
  rw [compile_eq_ok_iff, List.map_map]
  exact List.map_congr_left h

/-- How a function is looked up by its name. -/
theorem isNamed_iff (f : Node) (name : String) :
  (match f.kind with
    | .functionDeclaration n _ _ => n == name
    | _ => false) = true
    ↔ f.IsNamed name
  := by
  rw [Node.IsNamed]
  cases f.kind <;> simp

/-- The first function of a name is found. -/
theorem functionNamed?_eq_some {front back : List Node} (h : b.functions = front ++ f :: back)
    (hf : f.IsNamed name) (hfront : ∀ g ∈ front, ¬ g.IsNamed name) :
  b.functionNamed? name = some f
  := by
  rw [functionNamed?, List.find?_eq_some_iff_append]
  refine ⟨(isNamed_iff f name).2 hf, front, back, h, ?_⟩
  intro g hg
  rw [Bool.not_eq_true', Bool.eq_false_iff]
  exact mt (isNamed_iff g name).1 (hfront g hg)

/-- No function is found exactly when none has the name. -/
theorem functionNamed?_eq_none_iff :
  b.functionNamed? name = none ↔ ∀ f ∈ b.functions, ¬ f.IsNamed name
  := by
  rw [functionNamed?, List.find?_eq_none]
  exact forall₂_congr fun f _ => not_congr (isNamed_iff f name)

end Board

namespace CommandLine

/-! ## Commands -/

/-- What a command for source text answers for a board. -/
def answer (b : Board) (function : Option String) (options : SourceOptions) : Except Failure String :=
  (programOf b function).map fun p => Format.render options p .source

/-- A command for source text answers for the board that its file holds. -/
theorem output_compile {content : Except FileFault String} (h : load content = .ok b) (path : String)
    (function : Option String) (options : SourceOptions) :
  output (.compile path function "ts" options) content = answer b function options
  := by
  have hform : Format.ofName? "ts" = some .source := by decide
  rw [output, h, hform, answer]
  show (programOf b function >>= fun p => pure (Format.render options p .source)) = _
  cases programOf b function <;> rfl

/-- The text of a program of one function is the text of the function as it is written alone. -/
theorem render_singleton (options : SourceOptions) (decl : Function) :
  Format.render options ⟨[decl]⟩ .source = decl.emit options
  := by
  rw [Format.render, Scribing.emit_function_eq, Program.source_eq, List.map_singleton,
    String.intercalate_singleton]

/-- A command for source text that names a function answers with what the first one of the name compiles
to. -/
theorem answer_function (b : Board) (name : String) (options : SourceOptions) :
  answer b (some name) options
    = match b.functionNamed? name with
      | none => .error (.noFunction name)
      | some f =>
        match b.compileFunction f with
        | .error d => .error (.diagnostics [d])
        | .ok decl => .ok (decl.emit options)
  := by
  rw [answer, programOf]
  cases b.functionNamed? name with
  | none => rfl
  | some f =>
    dsimp only
    cases b.compileFunction f with
    | error d => rfl
    | ok decl => exact congrArg Except.ok (render_singleton options decl)

/-- A command that names a function finds none when none has the name, and otherwise does not answer so. -/
theorem answer_eq_noFunction_iff (b : Board) (name : String) (options : SourceOptions) :
  answer b (some name) options = .error (.noFunction name) ↔ ∀ f ∈ b.functions, ¬ f.IsNamed name
  := by
  rw [answer_function, ← Board.functionNamed?_eq_none_iff]
  cases b.functionNamed? name with
  | none => simp
  | some f =>
    dsimp only
    cases b.compileFunction f <;> simp

/-- A command that names no function answers with the text of the board. -/
theorem answer_none (b : Board) (options : SourceOptions) :
  answer b none options = (b.source options).mapError .diagnostics
  := by
  rw [answer, programOf, Board.source]
  cases b.compile <;> rfl

/-- The text of a board is what a scribe writes for its program. -/
theorem source_eq_emit (b : Board) (options : SourceOptions) :
  b.source options = b.compile.map (Program.emit options)
  := by
  rw [Board.source]
  congr 1
  funext p
  exact (Scribing.emit_program_eq options p).symm

/-- A board compiles as its functions do. When all of them compile, its text is their texts, each as it is
written alone, in the order of the board with line ends between them; otherwise it has the diagnostics of the
functions that do not, one of each and in this order. A command for the whole board answers with the one or
the other. A command that names a function finds none exactly when none has the name; otherwise the first one
of the name decides, whatever the others do: the answer is its text as it is written alone, or its
diagnostic. -/
theorem compile_of_functions (b : Board) (options : SourceOptions) :
  (∀ decl : Node → Function, (∀ f ∈ b.functions, b.compileFunction f = .ok (decl f)) →
    b.compile = .ok ⟨b.functions.map decl⟩ ∧
      b.source options
        = .ok (String.intercalate "\n" (b.functions.map fun f => (decl f).emit options))) ∧
  ((∃ f ∈ b.functions, ∃ d, b.compileFunction f = .error d) →
    ∃ ds, b.compile = .error ds ∧ b.source options = .error ds ∧
      List.Forall₂ (fun f d => b.compileFunction f = .error d) b.failing ds) ∧
  b.source options = b.compile.map (Program.emit options) ∧
  (∀ content path function, load content = .ok b →
    output (.compile path function "ts" options) content = answer b function options) ∧
  answer b none options = (b.source options).mapError .diagnostics ∧
  ∀ name,
    (answer b (some name) options = .error (.noFunction name) ↔ ∀ f ∈ b.functions, ¬ f.IsNamed name) ∧
    ∀ front f back, b.functions = front ++ f :: back → f.IsNamed name →
      (∀ g ∈ front, ¬ g.IsNamed name) →
      (∀ decl, b.compileFunction f = .ok decl → answer b (some name) options = .ok (decl.emit options)) ∧
      ∀ d, b.compileFunction f = .error d → answer b (some name) options = .error (.diagnostics [d])
  := by
  refine ⟨?_, ?_, source_eq_emit b options, ?_, answer_none b options, ?_⟩
  · intro decl h
    have hcompile := Board.compile_eq_ok h
    refine ⟨hcompile, ?_⟩
    rw [Board.source, hcompile, Except.map, Program.source_eq, List.map_map]
    simp only [Scribing.emit_function_eq]
    rfl
  · intro h
    obtain ⟨ds, hcompile, hdiagnostics⟩ := Board.compile_eq_error h
    refine ⟨ds, hcompile, ?_, hdiagnostics⟩
    rw [Board.source, hcompile]
    rfl
  · intro content path function hload
    exact output_compile hload path function options
  · intro name
    refine ⟨answer_eq_noFunction_iff b name options, ?_⟩
    intro front f back hfunctions hf hfront
    rw [answer_function, Board.functionNamed?_eq_some hfunctions hf hfront]
    dsimp only
    constructor
    · intro decl h
      rw [h]
    · intro d h
      rw [h]

/-- A function that has no return. -/
def bareFunction : Node :=
  ⟨⟨0⟩, .zero, .zero, .functionDeclaration "f" (.ofNat 1) (.ofNat 1)⟩

/-- The board with this function alone. -/
def bare : Board where
  nodes := [bareFunction]
  nextId := 1
  distinct := by decide

/-- The text of the board. -/
def bareText : String :=
  "[\x7b\"id\":0,\"x\":0,\"y\":0,\"kind\":\"FunctionDeclaration\",\"name\":\"f\",\"width\":1,\"height\":1\x7d]"

/-- A board with a function that returns a number. -/
def single : Board where
  nodes := [
    ⟨⟨0⟩, .zero, .zero, .functionDeclaration "g" (.ofNat 1) (.ofNat 1)⟩,
    ⟨⟨1⟩, .zero, .zero, .numericLiteral (.ofNat 1) none⟩,
    ⟨⟨2⟩, .zero, .zero, .returnStatement "infer" false (some ⟨1⟩)⟩]
  nextId := 3
  distinct := by decide

/-- The text of the board. -/
def singleText : String :=
  "[\x7b\"id\":0,\"x\":0,\"y\":0,\"kind\":\"FunctionDeclaration\",\"name\":\"g\",\"width\":1,\"height\":1\x7d,"
    ++ "\x7b\"id\":1,\"x\":0,\"y\":0,\"kind\":\"NumericLiteral\",\"value\":1\x7d,"
    ++ "\x7b\"id\":2,\"x\":0,\"y\":0,\"kind\":\"ReturnStatement\",\"inputs\":[1]\x7d]"

/-- Its function. -/
def singleFunction : Node :=
  ⟨⟨0⟩, .zero, .zero, .functionDeclaration "g" (.ofNat 1) (.ofNat 1)⟩

/-- What the function compiles to. -/
def singleCompiled : Function :=
  ⟨"g", [], none, [.ret (.literal (.number (.ofNat 1)))]⟩

/-- The function compiles. -/
theorem compileFunction_single :
  single.compileFunction singleFunction = .ok singleCompiled
  := by
  apply Board.compileFunction_eq_ok_iff.2
  refine ⟨"g", .ofNat 1, .ofNat 1,
    ⟨⟨2⟩, .zero, .zero, .returnStatement "infer" false (some ⟨1⟩)⟩, rfl, ?_, ?_, rfl, ?_, rfl⟩
  · rw [Board.paramsOf, parametersOf, List.mergeSort_of_pairwise (by decide +kernel)]
    rfl
  · decide +kernel
  · rfl

/-- A command for a function that is there answers with its text, one for a function that does not compile
with its diagnostic, and one for a function that is not there finds none. -/
theorem compile_of_functions_single_bare :
  load (.ok singleText) = .ok single ∧ load (.ok bareText) = .ok bare ∧
    single.source ⟨2, true⟩ = .ok "function g() \x7b\n  return 1;\n\x7d\n" ∧
    output (.compile "board.json" (some "g") "ts" ⟨2, true⟩) (.ok singleText)
      = .ok "function g() \x7b\n  return 1;\n\x7d\n" ∧
    output (.compile "board.json" (some "f") "ts" ⟨2, true⟩) (.ok singleText) = .error (.noFunction "f") ∧
    bare.source ⟨2, true⟩ = .error [.missingReturn ⟨0⟩] ∧
    output (.compile "board.json" (some "f") "ts" ⟨2, true⟩) (.ok bareText)
      = .error (.diagnostics [.missingReturn ⟨0⟩])
  := by
  have hsingle : load (.ok singleText) = .ok single := by decide +kernel
  have hbare : load (.ok bareText) = .ok bare := by decide +kernel
  have hfunctions : single.functions = [] ++ singleFunction :: [] := by decide +kernel
  have hcompiles : ∀ f ∈ single.functions, single.compileFunction f = .ok singleCompiled := by
    rw [hfunctions]
    intro f hf
    rw [List.mem_singleton.1 hf, compileFunction_single]
  have hfails : bare.compileFunction bareFunction = .error (.missingReturn ⟨0⟩) := by
    show (((List.mergeSort [] _).filterMap _).mapM id >>= _) = _
    rw [List.mergeSort_nil]
    rfl
  have hbareFunctions : bare.functions = [] ++ bareFunction :: [] := by decide +kernel
  have hemit : singleCompiled.emit ⟨2, true⟩ = "function g() \x7b\n  return 1;\n\x7d\n" := by decide +kernel
  obtain ⟨hall, -, -, hanswer, -, hnamed⟩ := compile_of_functions single ⟨2, true⟩
  obtain ⟨-, hsource⟩ := hall (fun _ => singleCompiled) hcompiles
  obtain ⟨-, hfailing, -, hbareAnswer, -, hbareNamed⟩ := compile_of_functions bare ⟨2, true⟩
  refine ⟨hsingle, hbare, ?_, ?_, ?_, ?_, ?_⟩
  · rw [hsource, hfunctions, ← hemit]
    rfl
  · rw [hanswer _ _ _ hsingle, ← hemit]
    exact ((hnamed "g").2 [] singleFunction [] hfunctions ⟨_, _, rfl⟩ (by simp)).1 _ compileFunction_single
  · rw [hanswer _ _ _ hsingle]
    apply (hnamed "f").1.2
    rw [hfunctions]
    intro f hf
    rw [List.mem_singleton.1 hf]
    rintro ⟨width, height, hname⟩
    simp [singleFunction] at hname
  · obtain ⟨ds, -, hds, hforall⟩ := hfailing ⟨bareFunction, by decide +kernel, _, hfails⟩
    have hone : bare.failing = [bareFunction] := by
      rw [Board.failing, hbareFunctions, List.nil_append, List.filter_cons, hfails]
      rfl
    rw [hone, List.forall₂_cons_left_iff] at hforall
    obtain ⟨d, rest, hd, hrest, rfl⟩ := hforall
    rw [List.forall₂_nil_left_iff.1 hrest] at hds
    rw [hds, Except.error.inj (hfails.symm.trans hd)]
  · rw [hbareAnswer _ _ _ hbare]
    exact ((hbareNamed "f").2 [] bareFunction [] hbareFunctions ⟨_, _, rfl⟩ (by simp)).2 _ hfails

end CommandLine

end Patchboard
