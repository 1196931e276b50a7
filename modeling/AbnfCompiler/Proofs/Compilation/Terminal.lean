import AbnfCompiler.Compilation.Terminal
import AbnfCompiler.Proofs.Expression.SpelledOut
import AbnfCompiler.Proofs.SyntaxTree.Meaning

/-!
Hexadecimal values in their spellings. A value is either compiled to an expression of its language
or refused with a record.
-/
namespace AbnfCompiler.Compilation

open Text HexToken

variable {cs : List Char} {n : ℕ} (ρ : String → Language Codepoint)

/-- The expression has the language `L`, or the construct is refused with a record. -/
def Accepts (x : Except Refusal Expression) (L : Language Codepoint) : Prop :=
  (∃ e, x = .ok e ∧ e.language ρ = L) ∨ ∃ u, x = .error (.unsupported u)

theorem accepts_refuse (node : SyntaxTree) (reason : Reason) (L : Language Codepoint) :
    Accepts ρ (refuse node reason) L := Or.inr ⟨_, rfl⟩

section Tokens

theorem ofChar_digits (h : NumeralOf 16 cs n) :
    ∀ c ∈ cs, HexToken.ofChar c = ⟨digitKind, c.toString⟩ :=
  h.forall_mem (by decide)

theorem digits_map_ofChar (cs : List Char) :
    digits (cs.map HexToken.ofChar) = cs.filter fun c ↦ (HexToken.ofChar c).isDigit := by
  have htext : ∀ c, (HexToken.ofChar c).text.toList = [c] := fun c ↦ by
    simp [HexToken.ofChar, Char.toString]
  rw [digits, List.filter_map, List.flatMap_map]
  simp only [htext, List.flatMap_singleton', Function.comp_def]

theorem isDigit_ofChar (h : NumeralOf 16 cs n) : ∀ c ∈ cs, (HexToken.ofChar c).isDigit := by
  intro c hc
  rw [ofChar_digits h c hc]
  rfl

theorem digits_of_numeralOf (h : NumeralOf 16 cs n) : digits (cs.map HexToken.ofChar) = cs := by
  rw [digits_map_ofChar, List.filter_eq_self.2 (isDigit_ofChar h)]

/-- A token gives the same tokens as its characters one by one. -/
theorem tokens_child {t : SyntaxTree} (h : t.IsHexToken) :
    (if t.kind = digitKind ∧ 1 < t.text.length then
      t.text.toList.map fun d ↦ (⟨digitKind, d.toString⟩ : HexToken)
      else [⟨t.kind, t.text⟩]) = t.text.toList.map HexToken.ofChar := by
  rcases h with ⟨hkind, htext⟩ | ⟨hkind, n, hn⟩
  · rw [htext]
    simp only [List.mem_cons, List.not_mem_nil, or_false] at hkind
    rcases hkind with hk | hk | hk | hk <;> rw [hk] <;> decide
  · have hchars : t.text.toList.map HexToken.ofChar
        = t.text.toList.map fun d ↦ ⟨digitKind, d.toString⟩ :=
      List.map_congr_left (ofChar_digits hn)
    rw [hchars]
    by_cases hlong : 1 < t.text.length
    · rw [if_pos ⟨hkind, hlong⟩]
    · have hone : t.text.toList.length = 1 := by
        have := List.length_pos_iff.2 hn.1
        rw [String.length_toList] at this ⊢
        omega
      obtain ⟨c, hc⟩ := List.length_eq_one_iff.1 hone
      have htext : t.text = c.toString := String.toList_inj.1 (by simpa [Char.toString] using hc)
      rw [if_neg fun hand ↦ hlong hand.2, hc, hkind, htext]
      rfl

theorem isBlank_of_isHexToken {t : SyntaxTree} (h : t.IsHexToken) :
    ∀ c ∈ t.text.toList, isBlank c = false := by
  rcases h with ⟨hkind, htext⟩ | ⟨-, n, hn⟩
  · have hsigns : isBlank 'x' = false ∧ isBlank 'X' = false ∧ isBlank '-' = false ∧
        isBlank '.' = false := by decide
    rw [htext]
    simp only [List.mem_cons, List.not_mem_nil, or_false] at hkind
    rcases hkind with hk | hk | hk | hk <;> simp [hk, hsigns]
  · exact hn.forall_mem (by decide)

theorem ofTree_eq_map_ofChar {t : SyntaxTree} (h : ∀ c ∈ t.children, c.IsHexToken) :
    HexToken.ofTree t = t.tokenText.map HexToken.ofChar := by
  unfold HexToken.ofTree SyntaxTree.tokenText
  by_cases hc : t.children = []
  · simp [hc]
  · rw [if_neg (by simpa using hc), if_neg hc, toList_withoutBlanks, String.toList_join,
      List.flatMap_map, List.filter_eq_self.2, List.map_flatMap]
    · exact List.flatMap_congr fun c hmem ↦ tokens_child (h c hmem)
    · intro x hx
      obtain ⟨c, hmem, hx⟩ := List.mem_flatMap.1 hx
      rw [isBlank_of_isHexToken (h c hmem) x hx]
      rfl

end Tokens

section Values

theorem hexNumber_of_numeralOf (h : NumeralOf 16 cs n) (node : SyntaxTree) :
    hexNumber node cs
      = (if (0x10FFFF : ℤ) < n then refuse node .outOfRange else .ok (n : ℤ) :
        Except Refusal ℤ) := by
  rw [hexNumber, padded, hexadecimal?_of_numeralOf (h.zeros _)]

theorem codepoint_of_le (h : n ≤ 0x10FFFF) : codepoint n = .ok ⟨n, by omega⟩ := by
  simp [codepoint, Codepoint.ofNat?, show n < 0x110000 by omega]

theorem pairValue_of_numeralOf (h : NumeralOf 16 cs n) (hn : n ≤ 0x10FFFF) :
    pairValue cs = .ok ⟨n, by omega⟩ := by
  rw [pairValue, hexadecimal?_of_numeralOf h]
  exact codepoint_of_le hn

theorem language_literal (value : List Codepoint) :
    (Expression.literal value).language ρ = {w | w.map Fin.val = value.map Fin.val} := by
  ext w
  have hinj := List.map_injective_iff.2 (Fin.val_injective (n := 0x110000))
  exact (hinj.eq_iff (a := w) (b := value)).symm

end Values

section Range

theorem isDash_ofChar (h : NumeralOf 16 cs n) : ∀ c ∈ cs, (HexToken.ofChar c).isDash = false :=
  h.forall_mem (by decide)

theorem digits_marker {m : Char} (hm : m = 'x' ∨ m = 'X') (ts : List HexToken) :
    digits (HexToken.ofChar m :: ts) = digits ts := by
  rcases hm with rfl | rfl <;> rfl

theorem accepts_hexRange {m : Char} {ls hs : List Char} {low high : ℕ} (node : SyntaxTree)
    (hm : m = 'x' ∨ m = 'X') (hl : NumeralOf 16 ls low) (hh : NumeralOf 16 hs high) :
    Accepts ρ (hexRange node ((m :: (ls ++ '-' :: hs)).map HexToken.ofChar))
      (codesBetween low high) := by
  have hfront : ∀ t ∈ HexToken.ofChar m :: ls.map HexToken.ofChar, (!t.isDash) = true := by
    rw [List.forall_mem_cons, List.forall_mem_map]
    refine ⟨?_, fun c hc ↦ by rw [isDash_ofChar hl c hc]; rfl⟩
    rcases hm with rfl | rfl <;> decide
  have hdash : (!(HexToken.ofChar '-').isDash) = false := by decide
  have hsplit : (m :: (ls ++ '-' :: hs)).map HexToken.ofChar
      = (HexToken.ofChar m :: ls.map HexToken.ofChar)
        ++ HexToken.ofChar '-' :: hs.map HexToken.ofChar := by simp
  have hlow : digits (((m :: (ls ++ '-' :: hs)).map HexToken.ofChar).takeWhile fun t ↦ !t.isDash)
      = ls := by
    rw [hsplit, List.takeWhile_append_of_pos hfront, List.takeWhile_cons, hdash]
    simp [digits_marker hm, digits_of_numeralOf hl]
  have hhigh : digits ((((m :: (ls ++ '-' :: hs)).map HexToken.ofChar).dropWhile
      fun t ↦ !t.isDash).drop 1) = hs := by
    rw [hsplit, List.dropWhile_append_of_pos hfront, List.dropWhile_cons, hdash]
    simp [digits_of_numeralOf hh]
  unfold hexRange
  rw [hlow, hhigh, if_neg (by simp [hl.1, hh.1]), hexNumber_of_numeralOf hl,
    hexNumber_of_numeralOf hh]
  split
  · exact accepts_refuse ..
  · split
    · exact accepts_refuse ..
    · simp only [except_ok_bind]
      unfold Expression.codeRange?
      split
      · next range hrange =>
        split at hrange
        · cases hrange
          exact Or.inl ⟨_, rfl, rfl⟩
        · cases hrange
      · exact accepts_refuse ..

end Range

section Series

theorem of_pairs?_cons {leads : HexToken → Bool} {lead : HexToken} {ts : List HexToken}
    {pairs : List (List Char)} (h : pairs? leads (lead :: ts) = some pairs) :
    leads lead ∧ ∃ a b rest tail, ts = a :: b :: rest ∧ a.isDigit ∧ b.isDigit ∧
      pairs? isDot rest = some tail ∧ pairs = (a.text.toList ++ b.text.toList) :: tail := by
  match ts, h with
  | a :: b :: rest, h =>
    unfold pairs? at h
    split at h
    · next hall =>
      rw [Bool.and_eq_true, Bool.and_eq_true] at hall
      obtain ⟨tail, htail, rfl⟩ := Option.map_eq_some_iff.1 h
      exact ⟨hall.1.1, a, b, rest, tail, rfl, hall.1.2, hall.2, htail, rfl⟩
    · cases h

/-- Pairs of digits are taken from a row of groups only if every group is a pair. -/
theorem pairs?_series {lead : HexToken} {leads : HexToken → Bool} {groups : List (List Char)}
    {ns : List ℕ} {pairs : List (List Char)} (hgroups : groups ≠ [])
    (hns : List.Forall₂ (NumeralOf 16) groups ns)
    (h : pairs? leads (lead :: (['.'].intercalate groups).map HexToken.ofChar) = some pairs) :
    pairs = groups ∧ ∀ g ∈ groups, g.length = 2 := by
  induction hns generalizing lead leads pairs with
  | nil => exact absurd rfl hgroups
  | @cons g n gs ns hg hgs ih =>
    obtain ⟨-, a, b, rest, tail, hrow, -, hb, htail, rfl⟩ := of_pairs?_cons h
    have hdot : (HexToken.ofChar '.').isDigit = false := by decide
    have hrest : (['.'].intercalate (g :: gs)).map HexToken.ofChar
        = g.map HexToken.ofChar ++ (if gs = [] then []
          else HexToken.ofChar '.' :: (['.'].intercalate gs).map HexToken.ofChar) := by
      cases gs <;> simp
    rw [hrest] at hrow
    match g, hg with
    | [], hg => exact absurd rfl hg.1
    | [x], hg =>
      -- A single digit is followed by the end or by a dot.
      split at hrow
      · cases hrow
      · injection hrow with _ hrow
        injection hrow with hrow _
        rw [← hrow, hdot] at hb
        cases hb
    | [x, y], hg =>
      obtain ⟨rfl, rfl, rfl⟩ := by simpa using hrow
      have hpair : (HexToken.ofChar x).text.toList ++ (HexToken.ofChar y).text.toList = [x, y] := by
        simp [HexToken.ofChar, Char.toString]
      rw [hpair]
      split at htail
      · next hgs =>
        subst hgs
        cases htail
        exact ⟨rfl, by simp⟩
      · next hgs =>
        obtain ⟨rfl, hlength⟩ := ih hgs htail
        exact ⟨rfl, List.forall_mem_cons.2 ⟨rfl, hlength⟩⟩
    | x :: y :: z :: g, hg =>
      -- A third digit stands where a dot would have to be.
      obtain ⟨rfl, rfl, rfl⟩ := by simpa using hrow
      obtain ⟨hz, -⟩ := of_pairs?_cons htail
      rw [ofChar_digits hg z (by simp)] at hz
      cases hz

theorem isDash_series {m : Char} {groups : List (List Char)} {ns : List ℕ} (hm : m = 'x' ∨ m = 'X')
    (hns : List.Forall₂ (NumeralOf 16) groups ns) :
    ∀ c ∈ m :: ['.'].intercalate groups, (HexToken.ofChar c).isDash = false := by
  rw [List.forall_mem_cons]
  refine ⟨by rcases hm with rfl | rfl <;> decide, ?_⟩
  induction hns with
  | nil => simp
  | @cons g n gs ns hg _ ih =>
    cases gs with
    | nil =>
      rw [List.intercalate_singleton]
      exact isDash_ofChar hg
    | cons g' gs =>
      rw [List.intercalate_cons_cons, List.append_assoc, List.forall_mem_append]
      exact ⟨isDash_ofChar hg, List.forall_mem_cons.2 ⟨by decide, ih⟩⟩

theorem mapM_pairValue {groups : List (List Char)} {ns : List ℕ}
    (hns : List.Forall₂ (NumeralOf 16) groups ns) (hlength : ∀ g ∈ groups, g.length = 2) :
    ∃ value, groups.mapM pairValue = .ok value ∧ value.map Fin.val = ns := by
  induction hns with
  | nil => exact ⟨[], rfl, rfl⟩
  | @cons g n gs ns hg hgs ih =>
    obtain ⟨hpair, hlength⟩ := List.forall_mem_cons.1 hlength
    obtain ⟨value, hvalue, hval⟩ := ih hlength
    have hlt : n < 16 ^ 2 := hpair ▸ hg.lt_pow_length (by decide)
    refine ⟨⟨n, by omega⟩ :: value, ?_, ?_⟩
    · rw [List.mapM_cons, pairValue_of_numeralOf hg (by omega), hvalue]
      rfl
    · rw [List.map_cons, hval]

theorem single?_series {marker : HexToken} {groups : List (List Char)} {ns : List ℕ}
    {ds : List Char} (hgroups : groups ≠ []) (hns : List.Forall₂ (NumeralOf 16) groups ns)
    (h : single? (marker :: (['.'].intercalate groups).map HexToken.ofChar) = some ds) :
    groups = [ds] := by
  unfold single? at h
  simp only at h
  split at h
  · next hall =>
    obtain ⟨-, -, hlength, -⟩ := hall
    cases h
    rw [digits_map_ofChar, List.length_map, List.length_filter_eq_length_iff] at hlength
    cases hns with
    | nil => exact absurd rfl hgroups
    | @cons g n gs ns hg hgs =>
      cases gs with
      | nil => rw [List.intercalate_singleton, digits_of_numeralOf hg]
      | cons g' gs =>
        have hdot := hlength '.' (by simp)
        exact absurd hdot (by decide)
  · cases h

theorem accepts_hexValue {t : SyntaxTree} {L : Language Codepoint}
    (htokens : ∀ c ∈ t.children, c.IsHexToken) (h : HexSpelling t.tokenText L) :
    Accepts ρ (hexValue t) L := by
  unfold hexValue
  rw [ofTree_eq_map_ofChar htokens]
  generalize t.tokenText = cs at h
  cases h with
  | range hm hl hh =>
    rw [if_neg (by simp), if_pos]
    · exact accepts_hexRange ρ t hm hl hh
    · refine List.any_eq_true.2 ⟨HexToken.ofChar '-', ?_, by decide⟩
      exact List.mem_map_of_mem (by simp)
  | @series m groups ns hm hgroups hns =>
    rw [if_neg (by simp), if_neg, List.map_cons]
    · split
      · next pairs hpairs =>
        obtain ⟨rfl, hlength⟩ := pairs?_series hgroups hns hpairs
        obtain ⟨value, hvalue, hval⟩ := mapM_pairValue hns hlength
        rw [hvalue]
        refine Or.inl ⟨_, rfl, ?_⟩
        rw [language_literal, hval]
      · split
        · next ds hds =>
          have hsingle := single?_series hgroups hns hds
          subst hsingle
          obtain ⟨n, rfl⟩ : ∃ n, ns = [n] := List.length_eq_one_iff.1 hns.length_eq.symm
          have hn : NumeralOf 16 ds n := (List.forall₂_cons.1 hns).1
          rw [hexNumber_of_numeralOf hn]
          split
          · exact accepts_refuse ..
          · simp only [except_ok_bind]
            rw [codepoint_of_le (by omega)]
            refine Or.inl ⟨_, rfl, ?_⟩
            rw [language_literal]
            rfl
        · exact accepts_refuse ..
    · rw [List.any_eq_true]
      rintro ⟨token, htoken, hdash⟩
      obtain ⟨c, hc, rfl⟩ := List.mem_map.1 htoken
      rw [isDash_series hm hns c hc] at hdash
      cases hdash

end Series

end AbnfCompiler.Compilation
