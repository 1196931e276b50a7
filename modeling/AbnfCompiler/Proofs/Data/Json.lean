import AbnfCompiler.Data.Json
import AbnfCompiler.Proofs.Text.Numeral

/-!
Strings of JSON are read as the code points that were written, unless these hold surrogates.
-/
namespace AbnfCompiler

theorem Codepoint.toNat_ofNat {c : Codepoint} (h : c.isSurrogate = false) :
    (Char.ofNat c.val).toNat = c.val := by
  have hlt := c.isLt
  simp only [isSurrogate, Bool.and_eq_false_iff, decide_eq_false_iff_not] at h
  have hvalid : c.val.isValidChar := by
    simp only [Nat.isValidChar]
    omega
  rw [Char.ofNat, dif_pos hvalid]
  rfl

theorem Codepoint.ofChar_ofNat {c : Codepoint} (h : c.isSurrogate = false) :
    ofChar (Char.ofNat c.val) = c := by
  apply Fin.ext
  rw [val_ofChar, toNat_ofNat h]

theorem Codepoint.isSurrogate_of_mem_ofText {s : String} {c : Codepoint} (h : c ∈ ofText s) :
    c.isSurrogate = false := by
  obtain ⟨x, -, rfl⟩ := List.mem_map.1 h
  have hvalid := x.valid
  simp only [UInt32.isValidChar, Nat.isValidChar] at hvalid
  have hval : x.toNat = x.val.toNat := rfl
  rw [isSurrogate, val_ofChar, Bool.and_eq_false_iff, decide_eq_false_iff_not,
    decide_eq_false_iff_not]
  omega

namespace Data.Json

open Text

def withFirst (c : Char) (x : Option (List Char × List Char)) : Option (List Char × List Char) :=
  x.map fun (body, rest) ↦ (c :: body, rest)

theorem unit?_eq_mapM (a b c d : Char) :
    unit? a b c d = ([a, b, c, d].mapM digit?).map (ofDigits 16) := by
  simp only [unit?, List.mapM_cons, List.mapM_nil]
  cases digit? a <;> cases digit? b <;> cases digit? c <;> cases digit? d <;> simp [ofDigits]

theorem exists_unit? {n : ℕ} (h : n < 0x10000) :
    ∃ a b c d, hexDigits 4 n = [a, b, c, d] ∧ unit? a b c d = some n := by
  have hlength : (hexDigits 4 n).length = 4 := length_hexDigits (by decide) h
  obtain ⟨a, b, c, d, hdigits⟩ : ∃ a b c d, hexDigits 4 n = [a, b, c, d] := by
    match hexDigits 4 n, hlength with
    | [a, b, c, d], _ => exact ⟨a, b, c, d, rfl⟩
  have hnumeral := numeralOf_hexDigits 4 n
  rw [hdigits] at hnumeral
  exact ⟨a, b, c, d, hdigits, by rw [unit?_eq_mapM]; exact hnumeral.mapM (by decide)⟩

theorem stringBody_simple {c e : Char} (hc : c ≠ 'u') (h : simpleEscape? c = some e)
    (cs : List Char) : stringBody ('\\' :: c :: cs) = withFirst e (stringBody cs) := by
  rw [stringBody.eq_5 c cs (fun _ _ _ _ _ _ _ _ _ hu ↦ absurd hu hc)
    fun _ _ _ _ _ hu ↦ absurd hu hc, h]
  cases stringBody cs <;> rfl

theorem stringBody_plain {c : Char} (hquote : c ≠ '"') (hslash : c ≠ '\\') (h : ¬ c < ' ')
    (cs : List Char) : stringBody (c :: cs) = withFirst c (stringBody cs) := by
  rw [stringBody.eq_6 c cs (fun hc ↦ absurd hc hquote)
    (fun _ _ _ _ _ _ _ _ _ hc ↦ absurd hc hslash) (fun _ _ _ _ _ hc ↦ absurd hc hslash)
    fun _ _ hc ↦ absurd hc hslash, if_neg h]
  cases stringBody cs <;> rfl

/-- An escape without a number is no part of a string, whatever follows. -/
theorem stringBody_of_unit?_eq_none {a b c d : Char} (h : unit? a b c d = none) (cs : List Char) :
    stringBody ('\\' :: 'u' :: a :: b :: c :: d :: cs) = none := by
  by_cases hnext : ∃ e f g k cs', cs = '\\' :: 'u' :: e :: f :: g :: k :: cs'
  · obtain ⟨e, f, g, k, cs', rfl⟩ := hnext
    rw [stringBody.eq_3, h]
    rfl
  · rw [stringBody.eq_4 a b c d cs fun e f g k cs' heq ↦ hnext ⟨e, f, g, k, cs', heq⟩, h]
    rfl

theorem stringBody_unit {a b c d : Char} {n : ℕ} (h : unit? a b c d = some n)
    (hhigh : isHigh n = false) (cs : List Char) :
    stringBody ('\\' :: 'u' :: a :: b :: c :: d :: cs)
      = withFirst (unitChar n) (stringBody cs) := by
  by_cases hnext : ∃ e f g k cs', cs = '\\' :: 'u' :: e :: f :: g :: k :: cs'
  · obtain ⟨e, f, g, k, cs', rfl⟩ := hnext
    rw [stringBody.eq_3, h]
    cases hunit : unit? e f g k with
    | none => rw [stringBody_of_unit?_eq_none hunit]; rfl
    | some m =>
      simp only [Option.bind_eq_bind, Option.bind_some, hhigh, Bool.false_eq_true, false_and,
        ↓reduceIte]
      cases stringBody ('\\' :: 'u' :: e :: f :: g :: k :: cs') <;> rfl
  · rw [stringBody.eq_4 a b c d cs fun e f g k cs' heq ↦ hnext ⟨e, f, g, k, cs', heq⟩, h]
    cases stringBody cs <;> rfl

theorem stringBody_pair {a b c d e f g k : Char} {m n : ℕ} (hm : unit? a b c d = some m)
    (hn : unit? e f g k = some n) (hhigh : isHigh m) (hlow : isLow n) (cs : List Char) :
    stringBody ('\\' :: 'u' :: a :: b :: c :: d :: '\\' :: 'u' :: e :: f :: g :: k :: cs)
      = withFirst (Char.ofNat (0x10000 + (m - 0xD800) * 0x400 + (n - 0xDC00)))
          (stringBody cs) := by
  rw [stringBody.eq_3, hm]
  simp only [Option.bind_eq_bind, Option.bind_some, hn, hhigh, hlow, and_self, ↓reduceIte]
  cases stringBody cs <;> rfl

theorem stringBody_unicodeEscape {n : ℕ} (hn : n < 0x10000) (h : ¬ (0xD800 ≤ n ∧ n ≤ 0xDFFF))
    (cs : List Char) :
    stringBody (unicodeEscape n ++ cs) = withFirst (Char.ofNat n) (stringBody cs) := by
  obtain ⟨a, b, c, d, hdigits, hunit⟩ := exists_unit? hn
  have hhigh : isHigh n = false := by simp [isHigh]; omega
  have hlow : isLow n = false := by simp [isLow]; omega
  have hchar : unitChar n = Char.ofNat n := by simp [unitChar, hhigh, hlow]
  rw [unicodeEscape, hdigits, ← hchar]
  exact stringBody_unit hunit hhigh cs

/-- A code point beyond four digits is written as two surrogates. -/
theorem stringBody_surrogates {n : ℕ} (hlarge : 0xFFFF < n) (hn : n < 0x110000) (cs : List Char) :
    stringBody (unicodeEscape (0xD800 + (n - 0x10000) / 0x400) ++
        unicodeEscape (0xDC00 + (n - 0x10000) % 0x400) ++ cs)
      = withFirst (Char.ofNat n) (stringBody cs) := by
  obtain ⟨a, b, c, d, hhighDigits, hhighUnit⟩ :=
    exists_unit? (show 0xD800 + (n - 0x10000) / 0x400 < 0x10000 by omega)
  obtain ⟨e, f, g, k, hlowDigits, hlowUnit⟩ :=
    exists_unit? (show 0xDC00 + (n - 0x10000) % 0x400 < 0x10000 by omega)
  have hhigh : isHigh (0xD800 + (n - 0x10000) / 0x400) := by simp [isHigh]; omega
  have hlow : isLow (0xDC00 + (n - 0x10000) % 0x400) := by simp [isLow]; omega
  have hvalue : 0x10000 + (0xD800 + (n - 0x10000) / 0x400 - 0xD800) * 0x400
      + (0xDC00 + (n - 0x10000) % 0x400 - 0xDC00) = n := by omega
  have hpair := stringBody_pair hhighUnit hlowUnit hhigh hlow cs
  rw [hvalue] at hpair
  rw [unicodeEscape, unicodeEscape, hhighDigits, hlowDigits]
  exact hpair

theorem stringBody_jsonEscaped {c : Codepoint} (hc : c.isSurrogate = false) (cs : List Char) :
    stringBody (jsonEscaped c ++ cs) = withFirst (Char.ofNat c.val) (stringBody cs) := by
  obtain ⟨n, hn⟩ := c
  have hsurrogate : ¬ (0xD800 ≤ n ∧ n ≤ 0xDFFF) := by
    simpa [Codepoint.isSurrogate] using hc
  unfold jsonEscaped
  simp only
  split_ifs with h₁ h₂ h₃ h₄ h₅ h₆ h₇ h₈ h₉
  · subst h₁; exact stringBody_simple (by decide) rfl cs
  · subst h₂; exact stringBody_simple (by decide) rfl cs
  · subst h₃; exact stringBody_simple (by decide) rfl cs
  · subst h₄; exact stringBody_simple (by decide) rfl cs
  · subst h₅; exact stringBody_simple (by decide) rfl cs
  · subst h₆; exact stringBody_simple (by decide) rfl cs
  · subst h₇; exact stringBody_simple (by decide) rfl cs
  · have hval : (Char.ofNat n).toNat = n := Codepoint.toNat_ofNat hc
    refine stringBody_plain (fun h ↦ h₁ ?_) (fun h ↦ h₂ ?_) (fun h ↦ ?_) cs
    · rw [← hval, h]; rfl
    · rw [← hval, h]; rfl
    · have hlt : (Char.ofNat n).toNat < ' '.toNat := h
      rw [hval] at hlt
      have hspace : ' '.toNat = 0x20 := rfl
      omega
  · exact stringBody_unicodeEscape (by omega) hsurrogate cs
  · exact stringBody_surrogates (by omega) hn cs

/-- A string that was written without surrogates is read back. -/
theorem stringBody_flatMap_jsonEscaped {value : List Codepoint}
    (h : ∀ c ∈ value, c.isSurrogate = false) :
    stringBody (value.flatMap jsonEscaped ++ ['"'])
      = some (value.map fun c ↦ Char.ofNat c.val, []) := by
  induction value with
  | nil => exact stringBody.eq_2 []
  | cons c cs ih =>
    rw [List.forall_mem_cons] at h
    rw [List.flatMap_cons, List.append_assoc, stringBody_jsonEscaped h.1, ih h.2]
    rfl

end Data.Json

end AbnfCompiler
