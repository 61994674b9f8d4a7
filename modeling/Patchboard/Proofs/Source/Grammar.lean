import Patchboard.Program.Basic
import Patchboard.Proofs.Source.Scanning

/-!
# The grammar of programs

Tokens are read as programs by a grammar. Its expressions have levels. A conditional has the least;
its branches are any expressions, and its test is not a conditional. Then follow the levels of the
operators by their precedence, each grouping to its side, then numbers with a sign, which no power is
taken of, then numbers without one, of which no part can be taken, and last what can be called, or
whose part can be taken.
-/

namespace Patchboard.Grammar

/-- What tokens may be read as while an expression is read. -/
inductive Phrase where
  /-- An expression of a level or a higher one. -/
  | expr (level : Nat) (e : Expr)
  /-- The arguments of a call. -/
  | args (es : List Expr)
  /-- Arguments with a comma before each. -/
  | moreArgs (es : List Expr)

/-- The level of the operands on the right of an operator: those of an operator that groups to the
right may be of its own level. -/
def rightLevel (op : Operator) : Nat :=
  if op.isRightAssociative then op.precedence else op.precedence + 1

/-- The level of the operands on the left of an operator. Of an operator that groups to the right they
are beyond numbers with a sign. -/
def leftLevel (op : Operator) : Nat :=
  if op.isRightAssociative then 9 else op.precedence

/-- Tokens that are read as a phrase. -/
inductive Derives : Phrase → List Token → Prop where
  | ident {name} (hname : Text.isName name = true) : Derives (.expr 10 (.ident name)) [.word name]
  | text {s} : Derives (.expr 10 (.literal (.string s))) [.text s]
  | parens {e ts} (h : Derives (.expr 0 e) ts) :
    Derives (.expr 10 e) (.sign .openParen :: ts ++ [.sign .closeParen])
  | call {callee args ts us} (hcallee : Derives (.expr 10 callee) ts)
      (hargs : Derives (.args args) us) :
    Derives (.expr 10 (.call callee args)) (ts ++ .sign .openParen :: us ++ [.sign .closeParen])
  | member {object property ts} (hobject : Derives (.expr 10 object) ts)
      (hproperty : Text.isName property = true) :
    Derives (.expr 10 (.member object property)) (ts ++ [.sign .dot, .word property])
  | index {object key ts us} (hobject : Derives (.expr 10 object) ts)
      (hkey : Derives (.expr 0 key) us) :
    Derives (.expr 10 (.index object key)) (ts ++ .sign .openBracket :: us ++ [.sign .closeBracket])
  /-- Digits are read as the number that they round to. -/
  | number {d b} (h : d.RoundsTo b) : Derives (.expr 9 (.literal (.number b))) [.numeral d]
  | negative {d b} (h : d.RoundsTo b) :
    Derives (.expr 8 (.literal (.number b.negate))) [.sign (.operator .sub), .numeral d]
  | binary {left op right ts us} (hleft : Derives (.expr (leftLevel op) left) ts)
      (hright : Derives (.expr (rightLevel op) right) us) :
    Derives (.expr op.precedence (.binary left op right)) (ts ++ .sign (.operator op) :: us)
  | conditional {test consequent alternate ts us vs} (htest : Derives (.expr 1 test) ts)
      (hconsequent : Derives (.expr 0 consequent) us)
      (halternate : Derives (.expr 0 alternate) vs) :
    Derives (.expr 0 (.conditional test consequent alternate))
      (ts ++ .sign .question :: us ++ .sign .colon :: vs)
  /-- What is of a level is of every lower one. -/
  | weaken {level e ts} (hlevel : level < 10) (h : Derives (.expr (level + 1) e) ts) :
    Derives (.expr level e) ts
  | noArgs : Derives (.args []) []
  | someArgs {e es ts us} (h : Derives (.expr 0 e) ts) (hs : Derives (.moreArgs es) us) :
    Derives (.args (e :: es)) (ts ++ us)
  | noMoreArgs : Derives (.moreArgs []) []
  | someMoreArgs {e es ts us} (h : Derives (.expr 0 e) ts) (hs : Derives (.moreArgs es) us) :
    Derives (.moreArgs (e :: es)) (.sign .comma :: ts ++ us)

/-! ## Statements and functions -/

/-- Tokens that are read as a type. -/
inductive DerivesType : ValueType → List Token → Prop where
  | one (k : Keyword) : DerivesType ⟨k, false⟩ [.word k.word]
  | list (k : Keyword) :
    DerivesType ⟨k, true⟩ [.word k.word, .sign .openBracket, .sign .closeBracket]

/-- Tokens that are read as a type behind a colon, which may be missing. -/
inductive DerivesBehindColon : Option ValueType → List Token → Prop where
  | none : DerivesBehindColon none []
  | some {a ts} (h : DerivesType a ts) : DerivesBehindColon (some a) (.sign .colon :: ts)

/-- Tokens that are read as a statement. -/
inductive DerivesStmt : Stmt → List Token → Prop where
  | const {name type init ts us} (hname : Text.isName name = true)
      (htype : DerivesBehindColon type ts) (hinit : Derives (.expr 0 init) us) :
    DerivesStmt (.const name type init)
      (.word "const" :: .word name :: ts ++ .sign .equals :: us ++ [.sign .semicolon])
  | ret {value ts} (h : Derives (.expr 0 value) ts) :
    DerivesStmt (.ret value) (.word "return" :: ts ++ [.sign .semicolon])

/-- Tokens that are read as a parameter. -/
inductive DerivesParam : Param → List Token → Prop where
  | mk {name a ts} (hname : Text.isName name = true) (h : DerivesType a ts) :
    DerivesParam ⟨name, a⟩ (.word name :: .sign .colon :: ts)

section

variable {α : Type} (D : α → List Token → Prop)

/-- Tokens that are read as some things in a row. -/
inductive DerivesAll : List α → List Token → Prop where
  | nil : DerivesAll [] []
  | cons {a as ts us} (h : D a ts) (hs : DerivesAll as us) : DerivesAll (a :: as) (ts ++ us)

/-- Tokens that are read as something behind a comma. -/
inductive BehindComma : α → List Token → Prop where
  | mk {a ts} (h : D a ts) : BehindComma a (.sign .comma :: ts)

/-- Tokens that are read as some things with commas between them. -/
inductive DerivesSeparated : List α → List Token → Prop where
  | nil : DerivesSeparated [] []
  | cons {a as ts us} (h : D a ts) (hs : DerivesAll (BehindComma D) as us) :
    DerivesSeparated (a :: as) (ts ++ us)

end

/-- Tokens that are read as a function. -/
inductive DerivesFunction : Function → List Token → Prop where
  | mk {name params returnType body ts us vs} (hname : Text.isName name = true)
      (hparams : DerivesSeparated DerivesParam params ts)
      (hreturn : DerivesBehindColon returnType us) (hbody : DerivesAll DerivesStmt body vs) :
    DerivesFunction ⟨name, params, returnType, body⟩
      (.word "function" :: .word name :: .sign .openParen :: ts ++ .sign .closeParen :: us
        ++ .sign .openBrace :: vs ++ [.sign .closeBrace])

/-- The text is read as the program. -/
def Reads (text : String) (p : Program) : Prop :=
  ∃ ts, Scans text.toList ts ∧ DerivesAll DerivesFunction p.functions ts

end Patchboard.Grammar
