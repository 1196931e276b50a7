import AbnfCompiler.Proofs.Compilation.Hexadecimal

/-!
Hexadecimal values stand for what they were written for. A code point in one to six digits, pairs
of digits between dots and the ends of a range are read back as these code points, in whichever
tokens a tree gives the value.
-/
namespace AbnfCompiler.Compilation

open Text HexToken

variable {cs ds ls hs : List Char} {m : Char} {n : ℕ} {groups : List (List Char)} {c : Codepoint}
  {value : List Codepoint} {range : CodeRange} {node t : SyntaxTree} {e : Expression}

/-- `cs` is the value that was written for the expression: a marker, and a code point in one to six
digits, code points in two digits each with dots between them, or the ends of a range. Digits may be
of either case. -/
inductive WrittenFor : List Char → Expression → Prop
  | single {m : Char} {ds : List Char} {c : Codepoint} : IsMarker m → NumeralOf 16 ds c.val →
      ds.length ≤ 6 → WrittenFor (m :: ds) (.literal [c])
  | pairs {m : Char} {groups : List (List Char)} {value : List Codepoint} : IsMarker m →
      groups ≠ [] → (∀ g ∈ groups, g.length = 2) →
      List.Forall₂ (NumeralOf 16) groups (value.map Fin.val) →
      WrittenFor (m :: ['.'].intercalate groups) (.literal value)
  | range {m : Char} {ls hs : List Char} {range : CodeRange} : IsMarker m →
      NumeralOf 16 ls range.low → NumeralOf 16 hs range.high →
      WrittenFor (m :: (ls ++ '-' :: hs)) (.charClass range)

/-- The node gives the value `cs`: as a leaf, in which blanks do not count, or in signs and runs of
one digit or more. -/
inductive Gives : SyntaxTree → List Char → Prop
  | leaf {t : SyntaxTree} : t.children = [] → Gives t (withoutBlanks t.text).toList
  | tokens {t : SyntaxTree} : t.children ≠ [] → (∀ c ∈ t.children, c.IsHexToken) →
      Gives t (t.children.flatMap fun c ↦ c.text.toList)

section Tokens

/-- Whether a character is a hexadecimal digit, in either case. -/
def isHexDigit (c : Char) : Bool :=
  (List.range 16).any fun d ↦ c == d.digitChar || c == d.digitChar.toUpper

theorem exists_numeralOf_iff : (∃ n, NumeralOf 16 cs n) ↔ cs ≠ [] ∧ cs.all isHexDigit := by
  have hdigit (c : Char) :
      isHexDigit c ↔ ∃ d < 16, c = d.digitChar ∨ c = d.digitChar.toUpper := by
    simp [isHexDigit]
  simp only [List.all_eq_true, hdigit]
  constructor
  · rintro ⟨n, hn⟩
    exact ⟨hn.1, hn.forall_mem fun d hd ↦ ⟨⟨d, hd, Or.inl rfl⟩, ⟨d, hd, Or.inr rfl⟩⟩⟩
  · exact fun h ↦ exists_numeralOf h.1 h.2

instance : DecidablePred SyntaxTree.IsHexToken := fun t ↦
  decidable_of_iff ((t.kind ∈ ["x", "X", "-", "."] ∧ t.text = t.kind) ∨
    (t.kind = "HEXDIG" ∧ t.text.toList ≠ [] ∧ t.text.toList.all isHexDigit))
    (or_congr Iff.rfl (and_congr Iff.rfl exists_numeralOf_iff.symm))

theorem ofTree_of_gives (h : Gives t cs) : HexToken.ofTree t = cs.map HexToken.ofChar := by
  cases h with
  | leaf hleaf =>
    rw [ofTree_eq_map_ofChar (by simp [hleaf]), SyntaxTree.tokenText, if_pos hleaf]
  | tokens hne htokens =>
    unfold HexToken.ofTree
    rw [if_neg (by simpa using hne), List.map_flatMap]
    exact List.flatMap_congr fun c hc ↦ tokens_child (htokens c hc)

theorem any_isDash_iff : (cs.map HexToken.ofChar).any HexToken.isDash ↔ '-' ∈ cs := by
  simp [isDash_ofChar_iff]

theorem hexValue_of_pairs (h : Gives t cs) (hne : cs ≠ []) (hdash : '-' ∉ cs)
    (hpairs : pairs? HexToken.isMarker (cs.map HexToken.ofChar) = some groups)
    (hvalue : groups.mapM pairValue = .ok value) : hexValue t = .ok (.literal value) := by
  unfold hexValue
  rw [ofTree_of_gives h]
  simp only
  rw [if_neg (by simpa using hne), if_neg fun hany ↦ hdash (any_isDash_iff.1 hany), hpairs]
  simp only
  rw [hvalue]
  rfl

theorem hexValue_of_single (h : Gives t cs) (hne : cs ≠ []) (hdash : '-' ∉ cs)
    (hpairs : pairs? HexToken.isMarker (cs.map HexToken.ofChar) = none)
    (hsingle : single? (cs.map HexToken.ofChar) = some ds)
    (hnumber : hexNumber t ds = .ok (c.val : ℤ)) : hexValue t = .ok (.literal [c]) := by
  unfold hexValue
  rw [ofTree_of_gives h]
  simp only
  rw [if_neg (by simpa using hne), if_neg fun hany ↦ hdash (any_isDash_iff.1 hany), hpairs,
    hsingle]
  simp only
  rw [hnumber, except_ok_bind, codepoint_of_le (by omega)]
  rfl

theorem hexValue_of_dash (h : Gives t cs) (hdash : '-' ∈ cs) :
    hexValue t = hexRange t (cs.map HexToken.ofChar) := by
  have hne : cs.map HexToken.ofChar ≠ [] := by simpa using List.ne_nil_of_mem hdash
  unfold hexValue
  rw [ofTree_of_gives h]
  simp only
  rw [if_neg hne, if_pos (any_isDash_iff.2 hdash)]

end Tokens

section Values

theorem hexNumber_of_le (h : NumeralOf 16 cs n) (hn : n ≤ 0x10FFFF) :
    hexNumber node cs = .ok (n : ℤ) := by
  rw [hexNumber_of_numeralOf h, if_neg (by omega)]

theorem mapM_pairValue_eq (hns : List.Forall₂ (NumeralOf 16) groups (value.map Fin.val))
    (hlength : ∀ g ∈ groups, g.length = 2) : groups.mapM pairValue = .ok value := by
  obtain ⟨value', hvalue, hval⟩ := mapM_pairValue hns hlength
  have hinj := List.map_injective_iff.2 (Fin.val_injective (n := 0x110000))
  rw [hvalue, hinj hval]

theorem codeRange?_ends (range : CodeRange) :
    Expression.codeRange? (range.low : ℤ) (range.high : ℤ) = some range := by
  have hordered := range.ordered
  have hinside := range.inside
  rw [Expression.codeRange?, dif_pos (by omega)]
  rfl

theorem hexRange_ends (node : SyntaxTree) (hm : IsMarker m) (hlow : NumeralOf 16 ls range.low)
    (hhigh : NumeralOf 16 hs range.high) :
    hexRange node ((m :: (ls ++ '-' :: hs)).map HexToken.ofChar) = .ok (.charClass range) := by
  have hordered := range.ordered
  have hinside := range.inside
  obtain ⟨hbefore, hafter⟩ := digits_cut (not_dash_mem_single hm hlow) hs
  rw [List.cons_append] at hbefore hafter
  unfold hexRange
  simp only [hbefore, hafter, withoutSigns_marker hm, withoutSigns_of_numeralOf hlow,
    withoutSigns_of_numeralOf hhigh]
  rw [if_neg (by simp [hlow.1, hhigh.1]), hexNumber_of_le hlow (by omega),
    hexNumber_of_le hhigh hinside]
  simp only [except_ok_bind, codeRange?_ends]
  rfl

/-- A value is read back as what it was written for, however the tree gives it. -/
theorem hexValue_of_writtenFor (h : WrittenFor cs e) (ht : Gives t cs) : hexValue t = .ok e := by
  cases h with
  | @single m ds c hm hds hlength =>
    have hdash := not_dash_mem_single hm hds
    cases hpairs : pairs? HexToken.isMarker ((m :: ds).map HexToken.ofChar) with
    | some groups =>
      -- Two digits are found as a pair, which has the same code point.
      have hrow : ['.'].intercalate [ds] = ds := List.intercalate_singleton
      have hseries : List.Forall₂ (NumeralOf 16) [ds] ([c].map Fin.val) := .cons hds .nil
      obtain ⟨rfl, htwo⟩ : groups = [ds] ∧ ∀ g ∈ [ds], g.length = 2 := by
        rw [List.map_cons, ← hrow] at hpairs
        exact pairs?_series (by simp) hseries hpairs
      exact hexValue_of_pairs ht (by simp) hdash hpairs (mapM_pairValue_eq hseries htwo)
    | none =>
      have hsingle := single?_eq_some_iff.2 ⟨hm, hlength, hds.1, not_mem_hexSigns hds, rfl⟩
      exact hexValue_of_single ht (by simp) hdash hpairs hsingle (hexNumber_of_le hds (by omega))
  | @pairs m groups value hm hne hlength hns =>
    have hnumerals : ∀ g ∈ groups, ∃ n, NumeralOf 16 g n :=
      ((List.forall₂_and_left _ _).1 (hns.imp fun _ n hn ↦ ⟨⟨n, hn⟩, hn⟩)).1
    have hdash := not_dash_mem_pairs hm hnumerals
    have hpairs := pairs?_of_isPair (isMarker_ofChar_iff.2 hm) hne fun g hg ↦ by
      obtain ⟨n, hn⟩ := hnumerals g hg
      exact ⟨hlength g hg, not_mem_hexSigns hn⟩
    exact hexValue_of_pairs ht (by simp) hdash hpairs (mapM_pairValue_eq hns hlength)
  | range hm hlow hhigh =>
    rw [hexValue_of_dash ht (by simp)]
    exact hexRange_ends t hm hlow hhigh

end Values

section Instances

def printable : CodeRange := ⟨0x20, 0x7E, Nat.le_of_ble_eq_true rfl, Nat.le_of_ble_eq_true rfl⟩

/-- The range of the printable characters as one leaf. -/
def blankedRange : SyntaxTree := .leaf "hex_val" " x00 20\t-\n7e"

def digitwiseRange : SyntaxTree :=
  .branch "hex_val" [.token "x" "x", .leaf "HEXDIG" "0", .leaf "HEXDIG" "0", .leaf "HEXDIG" "2",
    .leaf "HEXDIG" "0", .token "-" "-", .leaf "HEXDIG" "7", .leaf "HEXDIG" "e"]

def runwiseRange : SyntaxTree :=
  .branch "hex_val" [.token "x" "x", .leaf "HEXDIG" "002", .leaf "HEXDIG" "0", .token "-" "-",
    .leaf "HEXDIG" "7e"]

theorem hexValue_printable : WrittenFor "x0020-7e".toList (.charClass printable) ∧
    ∀ t ∈ [blankedRange, digitwiseRange, runwiseRange],
      Gives t "x0020-7e".toList ∧ hexValue t = .ok (.charClass printable) := by
  have hlow : NumeralOf 16 ['0', '0', '2', '0'] printable.low := numeralOf_hexDigits 4 0x20
  have hhigh : NumeralOf 16 ['7', 'e'] printable.high := numeralOf_hexDigits 2 0x7E
  have hwritten : WrittenFor "x0020-7e".toList (.charClass printable) :=
    .range (m := 'x') (Or.inl rfl) hlow hhigh
  have hgives : ∀ t ∈ [blankedRange, digitwiseRange, runwiseRange], Gives t "x0020-7e".toList := by
    simp only [List.forall_mem_cons]
    refine ⟨Gives.leaf rfl, Gives.tokens nofun ?_, Gives.tokens nofun ?_, nofun⟩
    · decide
    · decide
  exact ⟨hwritten, fun t ht ↦ ⟨hgives t ht, hexValue_of_writtenFor hwritten (hgives t ht)⟩⟩

end Instances

end AbnfCompiler.Compilation
