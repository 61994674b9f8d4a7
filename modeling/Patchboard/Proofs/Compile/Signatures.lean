import Patchboard.Board.Signature
import Patchboard.Proofs.Compile.Composition
import Patchboard.Proofs.Compile.Positions

/-!
# Signatures of compiled functions

The signatures of a board are spelled from its nodes, whatever their types are; source text is spelled
from what the nodes compile to. A type compiles only if its token is the word of a type, so the two
spellings of a parameter agree. Hence the signatures of a board that compiles are the beginnings of its
functions in source text, up to the end of their parameters, one by one and in order.
-/

namespace Patchboard

open Lexeme (source_append)

/-! ## Source text of parts -/

/-- The source text of lists of lexemes with lexemes between them. -/
theorem Lexeme.source_intercalate (between : List Lexeme) (lists : List (List Lexeme)) :
  source (List.intercalate between lists)
    = String.intercalate (source between) (lists.map source)
  := by
  induction lists with
  | nil => rfl
  | cons ls lists ih =>
    cases lists with
    | nil => rw [List.intercalate_singleton, List.map_singleton, String.intercalate_singleton]
    | cons ms lists =>
      rw [List.intercalate_cons_cons, source_append, source_append, ih]
      simp only [List.map_cons, String.intercalate_cons_cons]

/-- A parameter as it is spelled: its name, and its type behind a colon. -/
def Param.spelled (p : Param) : String :=
  p.name ++ ": " ++ p.type.keyword.word ++ if p.type.array then "[]" else ""

/-- The signature of a function: its name, and its parameters between parentheses. -/
def Function.signature (f : Function) : String :=
  f.name ++ "(" ++ String.intercalate ", " (f.params.map Param.spelled) ++ ")"

theorem Lexeme.source_word (s : String) :
  source [word s] = s
  := by
  simp [source, chars]

/-- The source text of a parameter is the parameter as it is spelled. -/
theorem Param.source_lexemes (p : Param) :
  Lexeme.source p.lexemes = p.spelled
  := by
  obtain ⟨name, keyword, array⟩ := p
  have hcolon : Lexeme.source [.sign ":", .blank] = ": " := by decide
  have harray : Lexeme.source (if array then [.sign "[", .sign "]"] else [])
      = if array then "[]" else "" := by
    cases array <;> decide
  show Lexeme.source ([.word name] ++ ([.sign ":", .blank] ++ ([.word keyword.word]
    ++ if array then [.sign "[", .sign "]"] else []))) = _
  rw [source_append, source_append, source_append, hcolon, harray, Lexeme.source_word,
    Lexeme.source_word, spelled]
  simp only [String.append_assoc]

/-- The source text of a function's name and parameters is its signature. -/
theorem Function.source_signatureLexemes (f : Function) :
  Lexeme.source f.signatureLexemes = f.signature
  := by
  have hcomma : Lexeme.source [.sign ",", .blank] = ", " := by decide
  have hopen : Lexeme.source [.sign "("] = "(" := by decide
  have hclose : Lexeme.source [.sign ")"] = ")" := by decide
  have hparams : Lexeme.source (Lexeme.commaSeparated (f.params.map Param.lexemes))
      = String.intercalate ", " (f.params.map Param.spelled) := by
    rw [Lexeme.commaSeparated, Lexeme.source_intercalate, hcomma, List.map_map]
    congr 2
    funext p
    apply p.source_lexemes
  show Lexeme.source ([.word f.name] ++ ([.sign "("]
    ++ (Lexeme.commaSeparated (f.params.map Param.lexemes) ++ [.sign ")"]))) = _
  rw [source_append, source_append, source_append, hparams, hopen, hclose, Lexeme.source_word,
    signature]
  simp only [String.append_assoc]

/-- In source text a function begins with its signature, behind a word. The type that is returned
follows, if it is written, and then the statements between braces. -/
theorem Function.source_eq (options : SourceOptions) (f : Function) :
  f.source options = "function " ++ f.signature
    ++ Lexeme.source (if options.returnTypes then ValueType.behindColon f.returnType else [])
    ++ " \x7b\n" ++ Lexeme.source (f.body.flatMap (Stmt.lexemes options)) ++ "\x7d\n"
  := by
  have hfunction : Lexeme.source [.word "function", .blank] = "function " := by decide
  have hopen : Lexeme.source [.blank, .sign "\x7b", .newline] = " \x7b\n" := by decide
  have hclose : Lexeme.source [.sign "\x7d", .newline] = "\x7d\n" := by decide
  simp only [source, lexemes, source_append, hfunction, hopen, hclose, source_signatureLexemes]

/-- In source text the functions of a program are separated by empty lines. -/
theorem Program.source_eq (options : SourceOptions) (p : Program) :
  p.source options = String.intercalate "\n" (p.functions.map (Function.source options))
  := by
  rw [source, lexemes, Lexeme.source_intercalate, List.map_map]
  rfl

namespace Board

variable {b : Board} {f p : Node}

/-! ## Parameters -/

/-- A parameter that compiles is spelled as its node spells it. -/
theorem parameterText?_of_param? {param : Param} (h : p.param? = some (.ok param)) :
  p.parameterText? = some param.spelled
  := by
  obtain ⟨token, array, outputs, hk, rfl, rfl⟩ := Node.declaresParam_of_param? h
  rw [Node.parameterText?, hk]
  rfl

/-- The parameters of a function are spelled one by one. -/
theorem filterMap_parameterText? {ps : List Node} {params : List Param}
    (h : List.Forall₂ (fun p param => p.param? = some (.ok param)) ps params) :
  ps.filterMap Node.parameterText? = params.map Param.spelled
  := by
  induction h with
  | nil => rfl
  | cons hp _ ih => rw [List.filterMap_cons_some (parameterText?_of_param? hp), ih, List.map_cons]

/-! ## Functions -/

/-- A function that compiles has the signature of what it compiles to. -/
theorem signature?_of_compileFunction {decl : Function} (h : b.compileFunction f = .ok decl) :
  b.signature? f = some decl.signature
  := by
  obtain ⟨name, width, height, r, hk, hparams, -, -, -, hname⟩ := compileFunction_eq_ok_iff.1 h
  have hspelled := forall₂_of_mapM_param? (fun p hp => (mem_parametersOf_scope.1 hp).2) hparams
  rw [signature?, hk, Function.signature, hname]
  simp only [filterMap_parameterText? hspelled]

/-- Results have no diagnostics among them, and are some functions, exactly when all of them succeed
with these functions. -/
theorem eq_map_ok_iff {results : List (Except Diagnostic Function)} {decls : List Function} :
  diagnosticsOf results = [] ∧ functionsOf results = decls ↔ results = decls.map .ok
  := by
  induction results generalizing decls with
  | nil => simp [diagnosticsOf, functionsOf, eq_comm]
  | cons result results ih =>
    simp only [diagnosticsOf, functionsOf] at ih
    cases result with
    | error d => cases decls <;> simp [diagnosticsOf]
    | ok decl => cases decls <;> simp [diagnosticsOf, functionsOf, ← ih, and_left_comm]

/-- A board compiles when all its functions do, to what they compile to, in order. -/
theorem compile_eq_ok_iff {program : Program} :
  b.compile = .ok program ↔ b.functions.map b.compileFunction = program.functions.map .ok
  := by
  obtain ⟨decls⟩ := program
  rw [← eq_map_ok_iff, compile, compiledFunctions]
  cases diagnosticsOf (b.functions.map b.compileFunction) <;> simp

/-- A board that compiles has the signatures of the functions that it compiles to. -/
theorem signatures_eq_map {program : Program} (h : b.compile = .ok program) :
  b.signatures = program.functions.map Function.signature
  := by
  have hdecls := compile_eq_ok_iff.1 h
  rw [← List.forall₂_eq_eq_eq, List.forall₂_map_left_iff, List.forall₂_map_right_iff] at hdecls
  rw [signatures]
  generalize b.functions = fs at hdecls ⊢
  generalize program.functions = decls at hdecls ⊢
  induction hdecls with
  | nil => rfl
  | cons hdecl _ ih =>
    rw [List.filterMap_cons_some (signature?_of_compileFunction hdecl), ih, List.map_cons]

/-- The signatures of a board that compiles are those of the functions that it compiles to, in order.
In source text each function begins with its signature, behind a word: its name, its parameters between
parentheses, and then nothing but the type that is returned, if it is written, and the statements. -/
theorem signatures_of_compile {program : Program} (h : b.compile = .ok program)
    (options : SourceOptions) :
  b.signatures = program.functions.map Function.signature ∧
    program.source options
      = String.intercalate "\n" (program.functions.map (Function.source options)) ∧
    ∀ f ∈ program.functions, f.source options = "function " ++ f.signature
      ++ Lexeme.source (if options.returnTypes then ValueType.behindColon f.returnType else [])
      ++ " \x7b\n" ++ Lexeme.source (f.body.flatMap (Stmt.lexemes options)) ++ "\x7d\n"
  := ⟨signatures_eq_map h, program.source_eq options, fun f _ => f.source_eq options⟩

/-- A function that has two parameters, the right one of which was placed first, and a function without
parameters. -/
def joinAndOne : Board where
  nodes := [
    ⟨⟨0⟩, .zero, .zero, .functionDeclaration "join" (.ofNat 16) (.ofNat 8)⟩,
    ⟨⟨1⟩, .ofNat 3, .zero, .parameter "mark" "string" false []⟩,
    ⟨⟨2⟩, .zero, .zero, .parameter "parts" "string" true [⟨3⟩]⟩,
    ⟨⟨3⟩, .zero, .zero, .returnStatement "string" true (some ⟨2⟩)⟩,
    ⟨⟨4⟩, .ofNat 64, .zero, .functionDeclaration "one" (.ofNat 16) (.ofNat 8)⟩,
    ⟨⟨5⟩, .ofNat 64, .zero, .numericLiteral (.ofNat 1) (some ⟨6⟩)⟩,
    ⟨⟨6⟩, .ofNat 64, .zero, .returnStatement "infer" false (some ⟨5⟩)⟩]
  nextId := 7
  distinct := by decide

/-- What the board compiles to. -/
def joinAndOneCompiled : Program :=
  ⟨[⟨"join", [⟨"parts", ⟨.string, true⟩⟩, ⟨"mark", ⟨.string, false⟩⟩], some ⟨.string, true⟩,
      [.ret (.ident "parts")]⟩,
    ⟨"one", [], none, [.ret (.literal (.number (.ofNat 1)))]⟩]⟩

/-- The board compiles. -/
theorem compile_joinAndOne :
  joinAndOne.compile = .ok joinAndOneCompiled
  := by
  have hfunctions : joinAndOne.functions = [
      ⟨⟨0⟩, .zero, .zero, .functionDeclaration "join" (.ofNat 16) (.ofNat 8)⟩,
      ⟨⟨4⟩, .ofNat 64, .zero, .functionDeclaration "one" (.ofNat 16) (.ofNat 8)⟩] := rfl
  have hscope : joinAndOne.scope
      ⟨⟨0⟩, .zero, .zero, .functionDeclaration "join" (.ofNat 16) (.ofNat 8)⟩ = [
        ⟨⟨1⟩, .ofNat 3, .zero, .parameter "mark" "string" false []⟩,
        ⟨⟨2⟩, .zero, .zero, .parameter "parts" "string" true [⟨3⟩]⟩,
        ⟨⟨3⟩, .zero, .zero, .returnStatement "string" true (some ⟨2⟩)⟩] := by
    decide +kernel
  rw [compile_eq_ok_iff, hfunctions]
  show [_, _] = [_, _]
  congr 1
  · apply compileFunction_eq_ok_iff.2
    refine ⟨"join", .ofNat 16, .ofNat 8,
      ⟨⟨3⟩, .zero, .zero, .returnStatement "string" true (some ⟨2⟩)⟩, rfl, ?_, ?_, rfl, ?_, rfl⟩
    · rw [paramsOf, hscope, ← parametersOf_eq_of_perm (List.Perm.swap _ _ _) (by decide +kernel),
        parametersOf, List.mergeSort_of_pairwise (by decide +kernel)]
      rfl
    · decide +kernel
    · rfl
  · congr 1
    apply compileFunction_eq_ok_iff.2
    refine ⟨"one", .ofNat 16, .ofNat 8,
      ⟨⟨6⟩, .ofNat 64, .zero, .returnStatement "infer" false (some ⟨5⟩)⟩, rfl, ?_, ?_, rfl, ?_, rfl⟩
    · rw [paramsOf, parametersOf, List.mergeSort_of_pairwise (by decide +kernel)]
      rfl
    · decide +kernel
    · rfl

/-- Its two signatures begin its two functions. -/
theorem signatures_of_compile_joinAndOne :
  joinAndOne.compile = .ok joinAndOneCompiled ∧
    joinAndOne.signatures = ["join(parts: string[], mark: string)", "one()"] ∧
    joinAndOneCompiled.source ⟨2, true⟩ = String.intercalate "\n" [
      "function join(parts: string[], mark: string): string[] \x7b\n  return parts;\n\x7d\n",
      "function one() \x7b\n  return 1;\n\x7d\n"]
  := by
  obtain ⟨hsignatures, hsource, hfunctions⟩ := signatures_of_compile compile_joinAndOne ⟨2, true⟩
  refine ⟨compile_joinAndOne, hsignatures, ?_⟩
  rw [hsource]
  decide +kernel

end Board

end Patchboard
