import Patchboard.Proofs.Source.Printing
import Patchboard.Proofs.Source.Unambiguity

/-!
# Written programs are read back

The text of a program is read by the grammar as that program and as no other. Parentheses, blanks and
escapes leave no trace, and only return types that are not written are lost.
-/

namespace Patchboard

/-- The text of a legible program is read as the program that it shows, and as no other one. -/
theorem Program.reads_source_iff (options : SourceOptions) {p : Program} (h : p.Legible)
    (q : Program) :
  Grammar.Reads (p.source options) q ↔ q = p.shown options
  := by
  have hreads : Grammar.Reads (p.source options) (p.shown options) :=
    ⟨_, scans_source options h, Grammar.derives_functions options h⟩
  constructor
  · intro hq
    apply hq.unique hreads
  · rintro rfl
    exact hreads

/-- A program that raises a negative number to a power and compares the outcome. -/
def Program.signOfPower : Program :=
  ⟨[⟨"sign", [⟨"x", ⟨.number, false⟩⟩], some ⟨.string, false⟩,
    [.const "y" none
      (.binary (.literal (.number ⟨0xC000000000000000⟩)) .exp (.ident "x")),
     .ret (.conditional (.binary (.ident "y") .lt (.literal (.number ⟨0x3FB999999999999A⟩)))
      (.literal (.string "\"-\"\n")) (.member (.ident "y") "sign"))]⟩]⟩

/-- Its text is read as the program, unless its return type is not written. -/
theorem Program.reads_source_signOfPower :
  signOfPower.Legible
    ∧ Grammar.Reads (signOfPower.source SourceOptions.standard) signOfPower
    ∧ ¬ Grammar.Reads (signOfPower.source ⟨0, false⟩) signOfPower
  := by
  have hlegible : signOfPower.Legible := by
    intro f hf
    obtain rfl := List.mem_singleton.mp hf
    have hx : Text.isName "x" = true := by decide +kernel
    have hy : Text.isName "y" = true := by decide +kernel
    have hsign : Text.isName "sign" = true := by decide +kernel
    have htwo : (⟨0xC000000000000000⟩ : Binary64).isFinite = true := by decide
    have htenth : (⟨0x3FB999999999999A⟩ : Binary64).isFinite = true := by decide
    constructor
    · exact hsign
    · intro p hp
      obtain rfl := List.mem_singleton.mp hp
      exact hx
    · intro s hs
      simp only [List.mem_cons, List.not_mem_nil, or_false] at hs
      rcases hs with rfl | rfl
      · exact ⟨hy, htwo, hx⟩
      · exact ⟨⟨hy, htenth⟩, trivial, hy, hsign⟩
  refine ⟨hlegible, ?_, ?_⟩
  · apply (reads_source_iff SourceOptions.standard hlegible signOfPower).mpr rfl
  · intro hreads
    have hshown := (reads_source_iff ⟨0, false⟩ hlegible signOfPower).mp hreads
    have htypes := congrArg (fun p => p.functions.map Function.returnType) hshown
    exact absurd htypes (by decide)

end Patchboard
