import Mathlib.Data.List.Basic
import AbnfCompiler.Text.Utf8

/-!
Decoding undoes encoding. The octets of a character are read as this character, whatever follows
them, so that no replacement character comes up.
-/
namespace AbnfCompiler.Text.Utf8

variable {b n : ℕ} {p : Partial}

section Octets

theorem lead_one (h : b ≤ 0x7F) : lead b = ([Char.ofNat b], none) := if_pos h

theorem lead_two (h : 0xC2 ≤ b ∧ b ≤ 0xDF) :
    lead b = ([], some ⟨b - 0xC0, 1, 0x80, 0xBF⟩) := by
  rw [lead, if_neg (by omega), if_pos h]

/-- Behind the first and the fourteenth of these leads the next octet has a smaller range. -/
theorem lead_three (h : 0xE0 ≤ b ∧ b ≤ 0xEF) :
    lead b = ([], some ⟨b - 0xE0, 2, if b = 0xE0 then 0xA0 else 0x80,
      if b = 0xED then 0x9F else 0xBF⟩) := by
  rw [lead, if_neg (by omega), if_neg (by omega)]
  by_cases hfirst : b = 0xE0
  · subst hfirst
    rfl
  · by_cases hsurrogate : b = 0xED
    · subst hsurrogate
      rfl
    · simp only [hfirst, hsurrogate, ↓reduceIte]
      rw [if_pos (by omega)]

theorem lead_four (h : 0xF0 ≤ b ∧ b ≤ 0xF4) :
    lead b = ([], some ⟨b - 0xF0, 3, if b = 0xF0 then 0x90 else 0x80,
      if b = 0xF4 then 0x8F else 0xBF⟩) := by
  rw [lead, if_neg (by omega), if_neg (by omega), if_neg (by omega), if_neg (by omega),
    if_neg (by omega)]
  by_cases hfirst : b = 0xF0
  · subst hfirst
    rfl
  · by_cases hlast : b = 0xF4
    · subst hlast
      rfl
    · simp only [hfirst, hlast, ↓reduceIte]
      rw [if_pos (by omega)]

theorem step_next (h : p.low ≤ b ∧ b ≤ p.high) (hp : 1 < p.owed) :
    step (some p) b = ([], some ⟨p.bits * 64 + (b - 0x80), p.owed - 1, 0x80, 0xBF⟩) := by
  rw [step, if_pos h]
  simp only
  rw [if_neg (by omega)]

theorem step_last (h : p.low ≤ b ∧ b ≤ p.high) (hp : p.owed = 1) :
    step (some p) b = ([Char.ofNat (p.bits * 64 + (b - 0x80))], none) := by
  rw [step, if_pos h]
  simp only
  rw [if_pos (by omega)]

theorem toNat_ofNat (h : n < 256) : (UInt8.ofNat n).toNat = n := UInt8.toNat_ofNat_of_lt' h

theorem decodeFrom_cons (p : Option Partial) (h : n < 256) (octets : List UInt8) :
    decodeFrom p (UInt8.ofNat n :: octets) = (step p n).1 ++ decodeFrom (step p n).2 octets := by
  cases p <;> rw [decodeFrom, toNat_ofNat h]

end Octets

section Characters

variable {octets : List UInt8}

theorem decodeFrom_one (h : n ≤ 0x7F) :
    decodeFrom none (UInt8.ofNat n :: octets) = Char.ofNat n :: decodeFrom none octets := by
  rw [decodeFrom_cons none (by omega), step, lead_one h]
  rfl

theorem decodeFrom_two (h : 0x7F < n ∧ n ≤ 0x7FF) :
    decodeFrom none (.ofNat (n / 64 % 32 + 192) :: .ofNat (n % 64 + 128) :: octets)
      = Char.ofNat n :: decodeFrom none octets := by
  have hbits : (n / 64 % 32 + 192 - 0xC0) * 64 + (n % 64 + 128 - 0x80) = n := by omega
  rw [decodeFrom_cons none (by omega), step, lead_two (by omega), List.nil_append,
    decodeFrom_cons _ (by omega), step_last (by simp only; omega) rfl]
  simp only [hbits]
  rfl

theorem decodeFrom_three (h : 0x7FF < n ∧ n ≤ 0xFFFF) (hvalid : n < 0xD800 ∨ 0xDFFF < n) :
    decodeFrom none (.ofNat (n / 4096 % 16 + 224) :: .ofNat (n / 64 % 64 + 128) ::
        .ofNat (n % 64 + 128) :: octets) = Char.ofNat n :: decodeFrom none octets := by
  have hbits : ((n / 4096 % 16 + 224 - 0xE0) * 64 + (n / 64 % 64 + 128 - 0x80)) * 64
      + (n % 64 + 128 - 0x80) = n := by omega
  have hsecond : (if n / 4096 % 16 + 224 = 0xE0 then 0xA0 else 0x80) ≤ n / 64 % 64 + 128 ∧
      n / 64 % 64 + 128 ≤ if n / 4096 % 16 + 224 = 0xED then 0x9F else 0xBF := by
    constructor
    · split <;> omega
    · split <;> omega
  rw [decodeFrom_cons none (by omega), step, lead_three (by omega), List.nil_append,
    decodeFrom_cons _ (by omega), step_next hsecond (by simp only; omega),
    List.nil_append, decodeFrom_cons _ (by omega), step_last (by simp only; omega) rfl]
  simp only [hbits]
  rfl

theorem decodeFrom_four (h : 0xFFFF < n ∧ n ≤ 0x10FFFF) :
    decodeFrom none (.ofNat (n / 262144 % 8 + 240) :: .ofNat (n / 4096 % 64 + 128) ::
        .ofNat (n / 64 % 64 + 128) :: .ofNat (n % 64 + 128) :: octets)
      = Char.ofNat n :: decodeFrom none octets := by
  have hbits : (((n / 262144 % 8 + 240 - 0xF0) * 64 + (n / 4096 % 64 + 128 - 0x80)) * 64
      + (n / 64 % 64 + 128 - 0x80)) * 64 + (n % 64 + 128 - 0x80) = n := by omega
  have hsecond : (if n / 262144 % 8 + 240 = 0xF0 then 0x90 else 0x80) ≤ n / 4096 % 64 + 128 ∧
      n / 4096 % 64 + 128 ≤ if n / 262144 % 8 + 240 = 0xF4 then 0x8F else 0xBF := by
    constructor
    · split <;> omega
    · split <;> omega
  rw [decodeFrom_cons none (by omega), step, lead_four (by omega), List.nil_append,
    decodeFrom_cons _ (by omega), step_next hsecond (by simp only; omega),
    List.nil_append, decodeFrom_cons _ (by omega),
    step_next (by simp only; omega) (by simp only; omega), List.nil_append,
    decodeFrom_cons _ (by omega), step_last (by simp only; omega) rfl]
  simp only [hbits]
  rfl

theorem decodeFrom_utf8EncodeChar (c : Char) (octets : List UInt8) :
    decodeFrom none (String.utf8EncodeChar c ++ octets) = c :: decodeFrom none octets := by
  have hvalid : c.val.toNat < 0xD800 ∨ 0xDFFF < c.val.toNat ∧ c.val.toNat < 0x110000 := c.valid
  have hchar : Char.ofNat c.val.toNat = c := Char.ofNat_toNat c
  unfold String.utf8EncodeChar
  generalize c.val.toNat = n at hvalid hchar
  subst hchar
  simp only
  split
  · next hone => exact decodeFrom_one hone
  · split
    · next htwo => exact decodeFrom_two (by omega)
    · split
      · next hthree => exact decodeFrom_three (by omega) (by omega)
      · next hfour => exact decodeFrom_four (by omega)

end Characters

theorem decodeFrom_flatMap (cs : List Char) (octets : List UInt8) :
    decodeFrom none (cs.flatMap String.utf8EncodeChar ++ octets)
      = cs ++ decodeFrom none octets := by
  induction cs with
  | nil => rfl
  | cons c cs ih =>
    rw [List.flatMap_cons, List.append_assoc, decodeFrom_utf8EncodeChar, ih, List.cons_append]

theorem decode_flatMap (cs : List Char) :
    decode (cs.flatMap String.utf8EncodeChar) = String.ofList cs := by
  have hcs := decodeFrom_flatMap cs []
  rw [List.append_nil] at hcs
  rw [decode, hcs, decodeFrom, List.append_nil]

end AbnfCompiler.Text.Utf8
