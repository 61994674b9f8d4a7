import Patchboard.Proofs.Compile.Signatures
import Patchboard.Proofs.Source.Spacing
import Patchboard.Source.Scribe

/-!
# What a scribe writes

At every level a scribe writes the lexemes of an expression behind what has been written before, and is at the
same level afterwards. So the statements of a function are written at one level, and every function at none;
and the text of a program is the texts of its functions, each as it is written alone, with line ends between
them.
-/

namespace Patchboard

open Lexeme (word sign blank blanks newline commaSeparated source_append)

namespace Scribing

variable {level : Nat} {steps next : Scribing Unit} {ls ms : List Lexeme}

/-! ## Steps -/

/-- At a level the steps write some lexemes behind what has been written, and come back to the level. -/
def Writes (level : Nat) (steps : Scribing Unit) (ls : List Lexeme) : Prop :=
  ∀ output, steps.runFrom ⟨output, level⟩ = ⟨output ++ Lexeme.source ls, level⟩

/-- Steps in a row write lexemes in a row. -/
theorem Writes.bind (h : Writes level steps ls) (hnext : Writes level next ms) :
  Writes level (steps >>= fun _ => next) (ls ++ ms)
  := by
  intro output
  show next.runFrom (steps.runFrom ⟨output, level⟩) = _
  rw [h, hnext, source_append, String.append_assoc]

theorem writes_pure (level : Nat) :
  Writes level (pure ()) []
  := by
  intro output
  show (⟨output, level⟩ : Scribe) = ⟨output ++ "", level⟩
  rw [String.append_empty]

/-- Lexemes with the same text are written by the same steps. -/
theorem Writes.congr (h : Writes level steps ls) (hsource : Lexeme.source ls = Lexeme.source ms) :
  Writes level steps ms
  := by
  intro output
  rw [h, hsource]

/-- A piece of text is the text of some lexemes. -/
theorem writes_put (level : Nat) {text : String} (h : Lexeme.source ls = text) :
  Writes level (put text) ls
  := by
  intro output
  rw [h]
  rfl

/-- A word is written as it is. -/
theorem writes_word (level : Nat) (text : String) :
  Writes level (put text) [word text]
  := writes_put level (Lexeme.source_word text)

/-- A sign is written as it is. -/
theorem writes_sign (level : Nat) (text : String) :
  Writes level (put text) [sign text]
  := writes_put level (Lexeme.source_word text)

/-- The blanks before a line. -/
theorem writes_indent (level : Nat) (options : SourceOptions) :
  Writes level (indent options) [blanks (level * options.indentWidth)]
  := by
  intro output
  show (⟨output ++ String.ofList (List.replicate (level * options.indentWidth) ' '), level⟩ : Scribe) = _
  rw [Lexeme.source, List.flatMap_singleton, Lexeme.chars]

/-- What is written one level further in leaves the level again. -/
theorem Writes.indented (h : Writes (level + 1) steps ls) :
  Writes level (Scribing.indented steps) ls
  := by
  intro output
  show (fun s : Scribe => { s with level := s.level - 1 }) (steps.runFrom ⟨output, level + 1⟩) = _
  rw [h]
  rfl

/-- Something is written between parentheses where there is need. -/
theorem Writes.wrapped (h : Writes level steps ls) (need : Bool) :
  Writes level (Scribing.wrapped need steps) (Lexeme.wrapped need ls)
  := by
  cases need with
  | true => exact (writes_sign level "(").bind (h.bind (writes_sign level ")"))
  | false =>
    have hend := h.bind (writes_pure level)
    rw [List.append_nil] at hend
    exact hend

/-- Lists with the same between each two of them, from the first on. -/
theorem intercalate_cons (between ls : List Lexeme) (lists : List (List Lexeme)) :
  List.intercalate between (ls :: lists) = ls ++ lists.flatMap (between ++ ·)
  := by
  induction lists generalizing ls with
  | nil => rw [List.intercalate_singleton, List.flatMap_nil, List.append_nil]
  | cons ms lists ih =>
    rw [List.intercalate_cons_cons, ih, List.flatMap_cons, List.append_assoc, List.append_assoc]

section

variable {α : Type} {step : α → Scribing Unit} {lexemes : α → List Lexeme} {text : String}
    {between : List Lexeme}

/-- Things are written one after the other, with the same before each of them, when they are not the first. -/
theorem writes_later (hbetween : Lexeme.source between = text) {xs : List α}
    (h : ∀ x ∈ xs, Writes level (step x) (lexemes x)) (index : Nat) :
  Writes level
    ((xs.zipIdx (index + 1)).forM fun (x, index) => do
      if index > 0 then put text
      step x)
    ((xs.map lexemes).flatMap (between ++ ·))
  := by
  induction xs generalizing index with
  | nil => exact writes_pure level
  | cons x xs ih =>
    obtain ⟨hx, hxs⟩ := List.forall_mem_cons.1 h
    exact ((writes_put level hbetween).bind hx).bind (ih hxs (index + 1))

/-- Things are written one after the other, with the same between each two of them. -/
theorem writes_separated (hbetween : Lexeme.source between = text) {xs : List α}
    (h : ∀ x ∈ xs, Writes level (step x) (lexemes x)) :
  Writes level (separated text step xs) (List.intercalate between (xs.map lexemes))
  := by
  cases xs with
  | nil => exact writes_pure level
  | cons x xs =>
    obtain ⟨hx, hxs⟩ := List.forall_mem_cons.1 h
    rw [List.map_cons, intercalate_cons]
    exact hx.bind (writes_later hbetween hxs 0)

/-- Things are written one after the other. -/
theorem writes_forM {xs : List α} (h : ∀ x ∈ xs, Writes level (step x) (lexemes x)) :
  Writes level (xs.forM step) (xs.flatMap lexemes)
  := by
  induction xs with
  | nil => exact writes_pure level
  | cons x xs ih =>
    obtain ⟨hx, hxs⟩ := List.forall_mem_cons.1 h
    exact hx.bind (ih hxs)

end

/-! ## Expressions -/

/-- The arguments of a call are written one after the other, with commas between them. -/
theorem arguments_eq_separated (es : List Expr) :
  arguments 0 es = separated ", " expression es
  := by
  suffices h : ∀ index, arguments index es
      = ((es.zipIdx index).forM fun (e, index) => do
        if index > 0 then put ", "
        expression e) by exact h 0
  induction es with
  | nil => exact fun _ => rfl
  | cons e es ih =>
    intro index
    rw [arguments, ih]
    cases index <;> rfl

theorem writes_literal (level : Nat) (l : Literal) :
  Writes level (literal l) [l.lexeme]
  := by
  cases l with
  | number b => exact writes_put level (by simp [Lexeme.source, Literal.lexeme, Lexeme.chars])
  | string s =>
    intro output
    show (⟨output ++ "\"" ++ String.ofList (Lexeme.escape s.toList) ++ "\"", level⟩ : Scribe) = _
    simp [Lexeme.source, Literal.lexeme, Lexeme.chars, String.append_assoc, String.ofList_append]

/-- An expression is written as its lexemes, whatever the level is. -/
theorem writes_expression (level : Nat) (e : Expr) :
  Writes level (expression e) e.lexemes
  := by
  induction e using Expr.induction with
  | literal l => exact writes_literal level l
  | ident name => exact writes_word level name
  | binary left op right hleft hright =>
    have hblank : Writes level (put " ") [blank] := writes_put level rfl
    have hright := hblank.bind (hright.wrapped (right.needsParensIn op .right))
    rw [expression, Expr.lexemes, List.append_assoc]
    exact (hleft.wrapped _).bind (hblank.bind ((writes_sign level op.token).bind hright))
  | conditional test consequent alternate htest hyes hno =>
    have hquestion : Writes level (put " ? ") [blank, sign "?", blank] := writes_put level rfl
    have hcolon : Writes level (put " : ") [blank, sign ":", blank] := writes_put level rfl
    rw [expression, Expr.lexemes]
    simp only [List.append_assoc]
    exact (htest.wrapped _).bind (hquestion.bind (hyes.bind (hcolon.bind hno)))
  | call callee args hcallee hargs =>
    have hcomma : Lexeme.source [sign ",", blank] = ", " := rfl
    have hargs := (writes_separated hcomma hargs).bind (writes_sign level ")")
    rw [expression, Expr.lexemes, arguments_eq_separated, Expr.listLexemes_eq_map, List.append_assoc]
    exact (hcallee.wrapped _).bind ((writes_sign level "(").bind hargs)
  | member object property hobject =>
    rw [expression, Expr.lexemes]
    exact (hobject.wrapped _).bind ((writes_sign level ".").bind (writes_word level property))
  | index object key hobject hkey =>
    rw [expression, Expr.lexemes, List.append_assoc]
    exact (hobject.wrapped _).bind ((writes_sign level "[").bind (hkey.bind (writes_sign level "]")))

/-! ## Statements and functions -/

theorem writes_type (level : Nat) (a : ValueType) :
  Writes level (type a) a.lexemes
  := by
  obtain ⟨keyword, array⟩ := a
  have hword := writes_word level keyword.word
  cases array with
  | true =>
    have hbrackets : Writes level (put "[]") [sign "[", sign "]"] := writes_put level rfl
    exact hword.bind hbrackets
  | false => exact hword.bind (writes_pure level)

theorem writes_typeBehindColon (level : Nat) (a : Option ValueType) :
  Writes level (typeBehindColon a) (ValueType.behindColon a)
  := by
  cases a with
  | none => exact writes_pure level
  | some a =>
    have hcolon : Writes level (put ": ") [sign ":", blank] := writes_put level rfl
    exact hcolon.bind (writes_type level a)

/-- A statement is written on a line of its level. -/
theorem writes_statement (options : SourceOptions) (s : Stmt) :
  Writes 1 (statement options s) (s.lexemes options)
  := by
  have hindent : Writes 1 (indent options) [blanks options.indentWidth] := by
    simpa using writes_indent 1 options
  have hend : Writes 1 (put ";\n") [sign ";", newline] := writes_put 1 rfl
  cases s with
  | const name annotation init =>
    have hlexemes : (Stmt.const name annotation init).lexemes options
        = [blanks options.indentWidth] ++ ([word "const", blank] ++ ([word name]
          ++ (ValueType.behindColon annotation ++ ([blank, sign "=", blank]
          ++ (init.lexemes ++ [sign ";", newline]))))) := by
      simp [Stmt.lexemes]
    have hconst : Writes 1 (put "const ") [word "const", blank] := writes_put 1 rfl
    have hequals : Writes 1 (put " = ") [blank, sign "=", blank] := writes_put 1 rfl
    have hinit := hequals.bind ((writes_expression 1 init).bind hend)
    have hname := (writes_word 1 name).bind ((writes_typeBehindColon 1 annotation).bind hinit)
    rw [hlexemes]
    exact hindent.bind (hconst.bind hname)
  | ret value =>
    have hlexemes : (Stmt.ret value).lexemes options
        = [blanks options.indentWidth] ++ ([word "return", blank]
          ++ (value.lexemes ++ [sign ";", newline])) := by
      simp [Stmt.lexemes]
    have hreturn : Writes 1 (put "return ") [word "return", blank] := writes_put 1 rfl
    rw [hlexemes]
    exact hindent.bind (hreturn.bind ((writes_expression 1 value).bind hend))

theorem writes_parameter (level : Nat) (p : Param) :
  Writes level (parameter p) p.lexemes
  := by
  have hcolon : Writes level (put ": ") [sign ":", blank] := writes_put level rfl
  exact (writes_word level p.name).bind (hcolon.bind (writes_type level p.type))

/-- A function is written from the beginning of a line on. -/
theorem writes_function (options : SourceOptions) (f : Function) :
  Writes 0 (function options f) (f.lexemes options)
  := by
  have htype : (if options.returnTypes then ValueType.behindColon f.returnType else [])
      = ValueType.behindColon (f.returnType.filter fun _ => options.returnTypes) := by
    cases f.returnType <;> cases options.returnTypes <;> rfl
  have hfunction : Writes 0 (put "function ") [word "function", blank] := writes_put 0 rfl
  have hcomma : Lexeme.source [sign ",", blank] = ", " := rfl
  have hparams : Writes 0 (separated ", " parameter f.params) (commaSeparated (f.params.map Param.lexemes)) :=
    writes_separated hcomma fun p _ => writes_parameter 0 p
  have hopen : Writes 0 (put " \x7b\n") [blank, sign "\x7b", newline] := writes_put 0 rfl
  have hbody : Writes 0 (indented (f.body.forM (statement options))) (f.body.flatMap (Stmt.lexemes options)) :=
    (writes_forM fun s _ => writes_statement options s).indented
  have hclose : Writes 0 (put "\x7d\n") [sign "\x7d", newline] := writes_put 0 rfl
  have hend := hopen.bind (hbody.bind ((writes_indent 0 options).bind hclose))
  have hreturn := (writes_sign 0 ")").bind
    ((writes_typeBehindColon 0 (f.returnType.filter fun _ => options.returnTypes)).bind hend)
  have hsignature := (writes_word 0 f.name).bind ((writes_sign 0 "(").bind (hparams.bind hreturn))
  apply ((writes_indent 0 options).bind (hfunction.bind hsignature)).congr
  -- At level 0 there are no blanks before a line.
  rw [Function.lexemes, Function.signatureLexemes, htype]
  simp [Lexeme.source, Lexeme.chars]

/-! ## Results -/

/-- The text of a function that a scribe writes alone is its source text. -/
theorem emit_function_eq (options : SourceOptions) (f : Function) :
  f.emit options = f.source options
  := by
  rw [Function.emit, Scribe.start, writes_function]
  apply String.empty_append

/-- The text of a program that a scribe writes is its source text. -/
theorem emit_program_eq (options : SourceOptions) (p : Program) :
  p.emit options = p.source options
  := by
  have hnewline : Lexeme.source [newline] = "\n" := rfl
  have hprogram : Writes 0 (program options p) (p.lexemes options) :=
    writes_separated hnewline fun f _ => writes_function options f
  rw [Program.emit, Scribe.start, hprogram]
  apply String.empty_append

end Scribing

end Patchboard
