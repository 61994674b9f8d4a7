import Patchboard.Diagnostic.Basic
import Patchboard.Program.Basic

/-!
# Declared types

A node declares its type by a token and an array flag. The token `infer` stands for no type, and a
parameter may not have it.
-/

namespace Patchboard

/-- The token of a type that is left open. -/
def inferToken : String :=
  "infer"

/-- The type of a token; none for the open one. -/
def Keyword.ofToken (node : NodeId) (token : String) : Except Diagnostic (Option Keyword) :=
  match [number, string, boolean].find? fun k => k.word == token with
  | some k => .ok (some k)
  | none => if token = inferToken then .ok none else .error (.unknownType node token)

/-- The type that a node declares; none if it is left open. -/
def ValueType.declared (node : NodeId) (token : String) (array : Bool) :
    Except Diagnostic (Option ValueType) :=
  (Keyword.ofToken node token).map fun k => k.map fun k => ⟨k, array⟩

/-- The type that a node declares, which must not be left open. -/
def ValueType.required (node : NodeId) (token : String) (array : Bool) :
    Except Diagnostic ValueType := do
  match ← declared node token array with
  | some a => return a
  | none => throw (.unknownType node token)

/-- The word of a type is its token. -/
theorem Keyword.ofToken_word (node : NodeId) (k : Keyword) :
  Keyword.ofToken node k.word = .ok (some k)
  := by
  cases k <;> rfl

/-- The token of a type is its word. -/
theorem Keyword.word_of_ofToken {node : NodeId} {token : String} {k : Keyword}
    (h : Keyword.ofToken node token = .ok (some k)) :
  k.word = token
  := by
  unfold ofToken at h
  split at h
  · next k' hk =>
    cases h
    simpa using List.find?_some hk
  · split at h <;> cases h

end Patchboard
