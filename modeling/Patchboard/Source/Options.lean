import Patchboard.Json.Decode

/-!
# Choices in writing source text

How deep a level of indentation is, and whether return types are written. Types of parameters and of
declarations are always written.
-/

namespace Patchboard

open Json (Decoder Fields)

/-- The choices in writing source text. -/
structure SourceOptions where
  /-- The number of blanks a level of indentation has. -/
  indentWidth : Nat
  /-- Whether the return type of a function is written. -/
  returnTypes : Bool
deriving DecidableEq

namespace SourceOptions

/-- Four blanks a level, and return types. -/
def standard : SourceOptions :=
  ⟨4, true⟩

/-- Options given as JSON. What is left out is standard. -/
def decode : Decoder SourceOptions :=
  (SourceOptions.mk
    <$> Fields.withDefault "indent_width" Decoder.word64 standard.indentWidth
    <*> Fields.withDefault "return_types" Decoder.boolean standard.returnTypes).record
      "EmitOptions" true

end SourceOptions

end Patchboard
