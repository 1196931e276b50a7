/-!
Code points. A text made of numbers may hold surrogates, which no `Char` is.
-/
namespace AbnfCompiler

/-- A Unicode code point, surrogates included. -/
abbrev Codepoint := Fin 0x110000

namespace Codepoint

def ofChar (c : Char) : Codepoint :=
  ⟨c.toNat, by
    have h := c.valid
    simp only [UInt32.isValidChar, Nat.isValidChar] at h
    have : c.toNat = c.val.toNat := rfl
    omega⟩

def ofNat? (n : Nat) : Option Codepoint := if h : n < 0x110000 then some ⟨n, h⟩ else none

def isSurrogate (c : Codepoint) : Bool := 0xD800 ≤ c.val && c.val ≤ 0xDFFF

def toChar? (c : Codepoint) : Option Char :=
  if c.isSurrogate then none else some (Char.ofNat c.val)

def ofText (s : String) : List Codepoint := s.toList.map ofChar

def toText? (cs : List Codepoint) : Option String := (cs.mapM toChar?).map String.ofList

@[simp] theorem val_ofChar (c : Char) : (ofChar c).val = c.toNat := rfl

end Codepoint

end AbnfCompiler
