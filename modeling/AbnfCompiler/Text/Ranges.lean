/-!
Sets of code points as lists of inclusive ranges.
-/
namespace AbnfCompiler.Text

/-- Inclusive ranges of code points. -/
abbrev Ranges := List (Nat × Nat)

def Ranges.covers (rs : Ranges) (n : Nat) : Bool := rs.any fun (low, high) ↦ low ≤ n && n ≤ high

end AbnfCompiler.Text
