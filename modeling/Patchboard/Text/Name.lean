import Patchboard.Text.Alphabetic
import Patchboard.Text.Numeric

/-!
# Names

A name is what may follow the dot of a member access: a letter, an underscore or a dollar sign,
and then any number of these and of digits. Reserved words are names too.
-/

namespace Patchboard.Text

/-- The characters that may begin a name. -/
def startsName (c : Char) : Bool :=
  alphabetic.contains c || c == '_' || c == '$'

/-- The characters that may stand in a name after its first. -/
def continuesName (c : Char) : Bool :=
  alphabetic.contains c || numeric.contains c || c == '_' || c == '$'

/-- A text is a name when its first character may begin one and all others may continue it. -/
def isName (s : String) : Bool :=
  match s.toList with
  | [] => false
  | c :: rest => startsName c && rest.all continuesName

/-- What begins a name may also continue it. -/
theorem continuesName_of_startsName {c : Char} (h : startsName c = true) :
  continuesName c = true
  := by
  simp only [startsName, continuesName, Bool.or_eq_true] at h ⊢
  rcases h with (h | h) | h
  · exact .inl (.inl (.inl h))
  · exact .inl (.inr h)
  · exact .inr h

end Patchboard.Text
