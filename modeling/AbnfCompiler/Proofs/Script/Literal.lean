import AbnfCompiler.Grammar.Rendering
import AbnfCompiler.Proofs.Data.Json
import AbnfCompiler.Proofs.Script.Token

/-!
Strings and classes as they are written are read as one token each.
-/
namespace AbnfCompiler.Script

open Text

section Strings

theorem scan_text {ws : List Char} (h : ∀ c ∈ ws, c ≠ '"' ∧ c ≠ '\\') (cs : List Char) :
    scan (.text cs) ws = some (.text (cs ++ ws), []) := by
  refine scan_taken .text ?_ h cs
  intro cs c hc
  rw [step, if_neg hc.1, if_neg hc.2]

/-- After a backslash any character belongs to the string. -/
theorem scan_escape {c : Char} {ws : List Char} (h : ∀ c ∈ ws, c ≠ '"' ∧ c ≠ '\\')
    (cs : List Char) :
    scan (.text cs) ('\\' :: c :: ws) = some (.text (cs ++ '\\' :: c :: ws), []) := by
  have hslash : step (.text cs) '\\' = some (.escape cs, []) := rfl
  have hnext : step (.escape cs) c = some (.text (cs ++ ['\\', c]), []) := rfl
  rw [scan_cons hslash, scan_cons hnext, scan_text h, List.append_assoc]
  rfl

theorem scan_unicodeEscape (n : ℕ) (cs : List Char) :
    scan (.text cs) (unicodeEscape n) = some (.text (cs ++ unicodeEscape n), []) :=
  scan_escape ((numeralOf_hexDigits 4 n).forall_mem (by decide)) cs

theorem scan_jsonEscaped {c : Codepoint} (hc : c.isSurrogate = false) (cs : List Char) :
    scan (.text cs) (jsonEscaped c) = some (.text (cs ++ jsonEscaped c), []) := by
  have hval := Codepoint.toNat_ofNat hc
  unfold jsonEscaped
  simp only
  split_ifs with h₁ h₂
  · exact scan_escape (List.forall_mem_nil _) cs
  · exact scan_escape (List.forall_mem_nil _) cs
  · exact scan_escape (List.forall_mem_nil _) cs
  · exact scan_escape (List.forall_mem_nil _) cs
  · exact scan_escape (List.forall_mem_nil _) cs
  · exact scan_escape (List.forall_mem_nil _) cs
  · exact scan_escape (List.forall_mem_nil _) cs
  · refine scan_text (fun x hx ↦ ?_) cs
    rw [List.mem_singleton.1 hx]
    refine ⟨fun h ↦ h₁ ?_, fun h ↦ h₂ ?_⟩
    · rw [← hval, h]; rfl
    · rw [← hval, h]; rfl
  · exact scan_unicodeEscape _ cs
  · rw [scan_append (scan_unicodeEscape _ cs), scan_unicodeEscape, List.append_assoc]
    rfl

theorem scan_flatMap_jsonEscaped {value : List Codepoint}
    (h : ∀ c ∈ value, c.isSurrogate = false) (cs : List Char) :
    scan (.text cs) (value.flatMap jsonEscaped)
      = some (.text (cs ++ value.flatMap jsonEscaped), []) := by
  induction value generalizing cs with
  | nil => rw [List.flatMap_nil, List.append_nil]; rfl
  | cons c value ih =>
    rw [List.forall_mem_cons] at h
    rw [List.flatMap_cons, scan_append (scan_jsonEscaped h.1 cs), ih h.2, List.append_assoc]
    rfl

theorem closed_jsonString {value : List Codepoint} (h : ∀ c ∈ value, c.isSurrogate = false) :
    Closed (jsonString value).toList [.text (value.map fun c ↦ Char.ofNat c.val)] := by
  have hquote : step .plain '"' = some (.text [], []) := rfl
  have hend : step (.text (value.flatMap jsonEscaped)) '"'
      = some (.plain, [.text (value.map fun c ↦ Char.ofNat c.val)]) := by
    rw [step, if_pos rfl, text?, Data.Json.stringBody_flatMap_jsonEscaped h]
    rfl
  rw [Closed, jsonString, String.toList_ofList, List.cons_append, scan_cons hquote, before_nil,
    scan_append (scan_flatMap_jsonEscaped h []), List.nil_append, before_nil, scan_cons hend]
  rfl

end Strings

section Classes

theorem number?_of_numeralOf {cs : List Char} {n : ℕ} (h : NumeralOf 16 cs n) :
    number? cs = some n := by
  rw [number?, if_neg h.1]
  exact h.mapM (by decide)

theorem exists_digits {n : ℕ} (h : n < 0x10000) :
    ∃ a b c d, capitalHexDigits 4 n = [a, b, c, d] := by
  have hlength : (capitalHexDigits 4 n).length = 4 := by
    rw [capitalHexDigits, List.length_map, length_hexDigits (by decide) h]
  match capitalHexDigits 4 n, hlength with
  | [a, b, c, d], _ => exact ⟨a, b, c, d, rfl⟩

theorem code?_braces {cs : List Char} {n : ℕ} (h : NumeralOf 16 cs n) (rest : List Char) :
    code? ('\\' :: 'u' :: '\x7b' :: (cs ++ '\x7d' :: rest)) = some (n, rest) := by
  have hdigits : ∀ c ∈ cs, (c != '\x7d') = true := h.forall_mem (by decide)
  rw [code?, List.dropWhile_append_of_pos hdigits, List.takeWhile_append_of_pos hdigits]
  simp [number?_of_numeralOf h]

theorem code?_digits {a b c d : Char} {n : ℕ} (h : NumeralOf 16 [a, b, c, d] n)
    (rest : List Char) : code? ('\\' :: 'u' :: a :: b :: c :: d :: rest) = some (n, rest) := by
  have hbrace : ∀ x ∈ [a, b, c, d], x ≠ '\x7b' := h.forall_mem (by decide)
  rw [code?.eq_2 a b c d rest fun ha ↦ hbrace a (by simp) ha, number?_of_numeralOf h]
  rfl

theorem code?_classMember (n : ℕ) (rest : List Char) :
    code? ((Grammar.classMember n).toList ++ rest) = some (n, rest) := by
  unfold Grammar.classMember
  split
  · have hcode := code?_braces (numeralOf_capitalHexDigits 0 n) rest
    simpa using hcode
  · obtain ⟨a, b, c, d, hdigits⟩ := exists_digits (show n < 0x10000 by omega)
    have hnumeral := numeralOf_capitalHexDigits 4 n
    rw [hdigits] at hnumeral
    have hcode := code?_digits hnumeral rest
    simpa [hdigits] using hcode

def classText (low high : ℕ) : String :=
  "/[" ++ Grammar.classMember low ++ "-" ++ Grammar.classMember high ++ "]/"

theorem forall_mem_classMember {p : Char → Prop} (n : ℕ)
    (hp : ∀ d < 16, p d.digitChar ∧ p d.digitChar.toUpper)
    (hmarks : p '\\' ∧ p 'u' ∧ p '\x7b' ∧ p '\x7d') :
    ∀ c ∈ (Grammar.classMember n).toList, p c := by
  obtain ⟨hslash, hu, hopen, hclose⟩ := hmarks
  unfold Grammar.classMember
  split
  · have hdigits := (numeralOf_capitalHexDigits 0 n).forall_mem hp
    simp only [String.toList_append, String.toList_ofList, List.forall_mem_append]
    refine ⟨⟨?_, hdigits⟩, ?_⟩
    · simp [hslash, hu, hopen]
    · simp [hclose]
  · have hdigits := (numeralOf_capitalHexDigits 4 n).forall_mem hp
    simp only [String.toList_append, String.toList_ofList, List.forall_mem_append]
    refine ⟨?_, hdigits⟩
    simp [hslash, hu]

theorem range?_classMember (low high : ℕ) :
    range? ('[' :: ((Grammar.classMember low).toList ++
      '-' :: ((Grammar.classMember high).toList ++ [']']))) = some (.range low high) := by
  rw [range?, code?_classMember]
  simp only [Option.bind_eq_bind, Option.bind_some]
  rw [code?_classMember]
  rfl

theorem scan_range {ws : List Char} (h : ∀ c ∈ ws, c ≠ '/') (cs : List Char) :
    scan (.range cs) ws = some (.range (cs ++ ws), []) := by
  refine scan_taken .range ?_ h cs
  intro cs c hc
  rw [step, if_neg hc]

theorem closed_classText (low high : ℕ) :
    Closed (classText low high).toList [.range low high] := by
  have hmember (n : ℕ) : ∀ c ∈ (Grammar.classMember n).toList, c ≠ '/' :=
    forall_mem_classMember n (by decide) (by decide)
  have hinner : ∀ c ∈ (Grammar.classMember low).toList ++
      '-' :: ((Grammar.classMember high).toList ++ [']']), c ≠ '/' := by
    refine List.forall_mem_append.2 ⟨hmember low, List.forall_mem_cons.2 ⟨by decide, ?_⟩⟩
    exact List.forall_mem_append.2 ⟨hmember high, by simp⟩
  have hslash : step .plain '/' = some (.slash, []) := rfl
  have hopen : step .slash '[' = some (.range ['['], []) := rfl
  have hchars : (classText low high).toList = '/' :: '[' :: (((Grammar.classMember low).toList ++
      '-' :: ((Grammar.classMember high).toList ++ [']'])) ++ ['/']) := by
    simp [classText]
  have hend : step (.range ('[' :: ((Grammar.classMember low).toList ++
      '-' :: ((Grammar.classMember high).toList ++ [']'])))) '/'
      = some (.plain, [.range low high]) := by
    rw [step, if_pos rfl, range?_classMember]
    rfl
  rw [Closed, hchars, scan_cons hslash, before_nil, scan_cons hopen, before_nil,
    scan_append (scan_range hinner _), before_nil, List.singleton_append, scan_cons hend]
  rfl

end Classes

end AbnfCompiler.Script
