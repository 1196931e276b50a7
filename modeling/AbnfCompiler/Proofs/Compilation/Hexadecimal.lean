import AbnfCompiler.Proofs.Compilation.Terminal

/-!
The texts that are read as hexadecimal values. A marker and digits, or pairs of digits between dots,
are read exactly where they stand for code points. Before and behind the first dash only digits
count, so a range is also found among signs in wrong places.
-/
namespace AbnfCompiler.Compilation

open Text HexToken

/-- The marker before a hexadecimal value. -/
def IsMarker (m : Char) : Prop := m = 'x' ∨ m = 'X'

def hexSigns : List Char := ['x', 'X', '-', '.']

/-- A character of a hexadecimal value: a sign or a digit in either case. -/
def IsHexChar (c : Char) : Prop := c ∈ hexSigns ∨ ∃ d, DigitOf 16 c d

instance : DecidablePred IsHexChar := fun c ↦
  decidable_of_iff (c ∈ hexSigns ∨ ∃ d < 16, c = d.digitChar ∨ c = d.digitChar.toUpper) Iff.rfl

def withoutSigns (cs : List Char) : List Char := cs.filter fun c ↦ !hexSigns.contains c

/-- The texts of hexadecimal values: a code point in one to six digits, pairs of digits between
dots, and the first and the last code point of a range. -/
inductive HexText : List Char → Prop
  | single {m : Char} {ds : List Char} {n : ℕ} : IsMarker m → NumeralOf 16 ds n →
      ds.length ≤ 6 → n ≤ 0x10FFFF → HexText (m :: ds)
  | pairs {m : Char} {groups : List (List Char)} : IsMarker m → groups ≠ [] →
      (∀ g ∈ groups, g.length = 2 ∧ ∃ n, NumeralOf 16 g n) →
      HexText (m :: ['.'].intercalate groups)
  | range {m : Char} {ls hs : List Char} {low high : ℕ} : IsMarker m → NumeralOf 16 ls low →
      NumeralOf 16 hs high → low ≤ high → high ≤ 0x10FFFF → HexText (m :: (ls ++ '-' :: hs))

/-- The digits before the first dash and those behind it are the ends of a range, whatever signs
there are among them. -/
def HasRange (cs : List Char) : Prop :=
  ∃ before after low high, cs = before ++ '-' :: after ∧ '-' ∉ before ∧
    NumeralOf 16 (withoutSigns before) low ∧ NumeralOf 16 (withoutSigns after) high ∧
    low ≤ high ∧ high ≤ 0x10FFFF

/-- A range that is not written as one. -/
def IsStrayRange (cs : List Char) : Prop := HasRange cs ∧ ¬ HexText cs

variable {cs ds before after : List Char} {c m : Char} {node t : SyntaxTree}

section Characters

theorem forall_mem_hexSigns {P : Char → Prop} (hx : P 'x') (hX : P 'X') (hdash : P '-')
    (hdot : P '.') : ∀ c ∈ hexSigns, P c := by
  simp only [hexSigns, List.forall_mem_cons]
  exact ⟨hx, hX, hdash, hdot, nofun⟩

theorem isHexChar_of_all (h : cs.all fun c ↦ decide (IsHexChar c)) : ∀ c ∈ cs, IsHexChar c := by
  simpa using h

theorem isDigit_ofChar_eq (c : Char) : (HexToken.ofChar c).isDigit = !hexSigns.contains c := by
  have hsigns : "xX-.".toList = hexSigns := rfl
  unfold HexToken.ofChar
  rw [hsigns]
  by_cases hc : c ∈ hexSigns
  · have hall : ∀ c ∈ hexSigns, (⟨if hexSigns.contains c then c.toString else digitKind,
        c.toString⟩ : HexToken).isDigit = !hexSigns.contains c :=
      forall_mem_hexSigns rfl rfl rfl rfl
    exact hall c hc
  · rw [List.contains_eq_mem, decide_eq_false hc]
    rfl

/-- A sign has its own kind, and no other character has it. -/
theorem kind_ofChar_eq_iff {s : Char} (hs : s ∈ hexSigns) :
    (HexToken.ofChar c).kind = s.toString ↔ c = s := by
  have hsigns : "xX-.".toList = hexSigns := rfl
  have hkinds : ∀ s ∈ hexSigns, digitKind ≠ s.toString :=
    forall_mem_hexSigns (by decide) (by decide) (by decide) (by decide)
  unfold HexToken.ofChar
  rw [hsigns]
  split
  · rw [← String.toList_inj]
    simp [Char.toString]
  · next hc =>
    refine iff_of_false (hkinds s hs) ?_
    rintro rfl
    simp [hs] at hc

theorem isDash_ofChar_iff : (HexToken.ofChar c).isDash ↔ c = '-' := by
  rw [HexToken.isDash, beq_iff_eq]
  exact kind_ofChar_eq_iff (s := '-') (by decide)

theorem isDot_ofChar_iff : (HexToken.ofChar c).isDot ↔ c = '.' := by
  rw [HexToken.isDot, beq_iff_eq]
  exact kind_ofChar_eq_iff (s := '.') (by decide)

theorem isMarker_ofChar_iff : (HexToken.ofChar c).isMarker ↔ IsMarker c := by
  rw [HexToken.isMarker, Bool.or_eq_true, beq_iff_eq, beq_iff_eq]
  exact or_congr (kind_ofChar_eq_iff (s := 'x') (by decide))
    (kind_ofChar_eq_iff (s := 'X') (by decide))

theorem digits_map_ofChar_eq (cs : List Char) :
    digits (cs.map HexToken.ofChar) = withoutSigns cs := by
  rw [digits_map_ofChar]
  simp only [isDigit_ofChar_eq, withoutSigns]

theorem withoutSigns_of_numeralOf {n : ℕ} (h : NumeralOf 16 cs n) : withoutSigns cs = cs := by
  rw [← digits_map_ofChar_eq, digits_of_numeralOf h]

theorem exists_numeralOf (hne : cs ≠ []) (h : ∀ c ∈ cs, ∃ d, DigitOf 16 c d) :
    ∃ n, NumeralOf 16 cs n := by
  obtain ⟨ds, hds⟩ := exists_forall₂ h
  exact ⟨_, hne, ds, hds, rfl⟩

/-- What is left of a value without its signs is nothing or a number. -/
theorem exists_numeralOf_withoutSigns (h : ∀ c ∈ cs, IsHexChar c) (hne : withoutSigns cs ≠ []) :
    ∃ n, NumeralOf 16 (withoutSigns cs) n := by
  refine exists_numeralOf hne fun c hc ↦ ?_
  obtain ⟨hmem, hsign⟩ := List.mem_filter.1 hc
  exact (h c hmem).resolve_left (by simpa using hsign)

end Characters

/-- The value is accepted exactly if `p` holds, and else refused with a record. -/
def AcceptsIff (node : SyntaxTree) (x : Except Refusal Expression) (p : Prop) : Prop :=
  (p ∧ ∃ e, x = .ok e) ∨ (¬ p ∧ ∃ reason, x = refuse node reason)

theorem AcceptsIff.congr {x : Except Refusal Expression} {p q : Prop} (h : AcceptsIff node x p)
    (hpq : p ↔ q) : AcceptsIff node x q := by
  unfold AcceptsIff at h ⊢
  rwa [← hpq]

theorem acceptsIff_refuse {p : Prop} (hp : ¬ p) (reason : Reason) :
    AcceptsIff node (refuse node reason) p := Or.inr ⟨hp, reason, rfl⟩

theorem acceptsIff_ok {p : Prop} (hp : p) (e : Expression) : AcceptsIff node (.ok e) p :=
  Or.inl ⟨hp, e, rfl⟩

theorem numeralOf_unique {k n : ℕ} (hk : NumeralOf 16 cs k) (hn : NumeralOf 16 cs n) : k = n := by
  have h := (hexadecimal?_of_numeralOf hk).symm.trans (hexadecimal?_of_numeralOf hn)
  exact Int.ofNat_inj.1 (Option.some.inj h)

section Range

theorem takeWhile_cut (h : '-' ∉ before) (after : List Char) :
    (before ++ '-' :: after).takeWhile (fun c ↦ !(HexToken.ofChar c).isDash) = before := by
  rw [List.takeWhile_append_of_pos, List.takeWhile_cons_of_neg, List.append_nil]
  · simp [isDash_ofChar_iff]
  · intro c hc
    rw [Bool.not_eq_true', Bool.eq_false_iff, Ne, isDash_ofChar_iff]
    rintro rfl
    exact h hc

theorem dropWhile_cut (h : '-' ∉ before) (after : List Char) :
    (before ++ '-' :: after).dropWhile (fun c ↦ !(HexToken.ofChar c).isDash) = '-' :: after := by
  have hcut := List.takeWhile_append_dropWhile (l := before ++ '-' :: after)
    (p := fun c ↦ !(HexToken.ofChar c).isDash)
  rw [takeWhile_cut h] at hcut
  exact List.append_cancel_left hcut

/-- The ends of a range are looked for on both sides of the first dash. -/
theorem hasRange_iff (hdash : '-' ∉ before) :
    HasRange (before ++ '-' :: after) ↔ ∃ low high, NumeralOf 16 (withoutSigns before) low ∧
      NumeralOf 16 (withoutSigns after) high ∧ low ≤ high ∧ high ≤ 0x10FFFF := by
  constructor
  · rintro ⟨before', after', low, high, heq, hdash', h⟩
    obtain rfl : before = before' := by
      rw [← takeWhile_cut hdash after, heq, takeWhile_cut hdash']
    obtain rfl : after = after' := by simpa using heq
    exact ⟨low, high, h⟩
  · rintro ⟨low, high, h⟩
    exact ⟨before, after, low, high, rfl, hdash, h⟩

/-- The digits of both ends of a range, as they are looked for among the tokens. -/
theorem digits_cut (hdash : '-' ∉ before) (after : List Char) :
    digits (((before ++ '-' :: after).map HexToken.ofChar).takeWhile fun t ↦ !t.isDash)
      = withoutSigns before ∧
    digits ((((before ++ '-' :: after).map HexToken.ofChar).dropWhile fun t ↦ !t.isDash).drop 1)
      = withoutSigns after := by
  have hcut : (fun t : HexToken ↦ !t.isDash) ∘ HexToken.ofChar
      = fun c ↦ !(HexToken.ofChar c).isDash := rfl
  rw [List.takeWhile_map, List.dropWhile_map, hcut, takeWhile_cut hdash, dropWhile_cut hdash,
    List.map_cons, List.drop_one, List.tail_cons]
  exact ⟨digits_map_ofChar_eq before, digits_map_ofChar_eq after⟩

theorem acceptsIff_hexRange (node : SyntaxTree) (hcs : ∀ c ∈ cs, IsHexChar c) (h : '-' ∈ cs) :
    AcceptsIff node (hexRange node (cs.map HexToken.ofChar)) (HasRange cs) := by
  obtain ⟨before, after, rfl, hdash⟩ := List.eq_append_cons_of_mem h
  rw [List.forall_mem_append, List.forall_mem_cons] at hcs
  refine AcceptsIff.congr ?_ (hasRange_iff hdash).symm
  obtain ⟨hbefore, hafter⟩ := digits_cut hdash after
  unfold hexRange
  simp only [hbefore, hafter]
  split
  · next hnil =>
    refine acceptsIff_refuse ?_ _
    rintro ⟨low, high, hlow, hhigh, -⟩
    exact hnil.elim hlow.1 hhigh.1
  · next hne =>
    rw [not_or] at hne
    obtain ⟨low, hlow⟩ := exists_numeralOf_withoutSigns hcs.1 hne.1
    obtain ⟨high, hhigh⟩ := exists_numeralOf_withoutSigns hcs.2.2 hne.2
    have hends : (∃ low high, NumeralOf 16 (withoutSigns before) low ∧
        NumeralOf 16 (withoutSigns after) high ∧ low ≤ high ∧ high ≤ 0x10FFFF)
          ↔ low ≤ high ∧ high ≤ 0x10FFFF := by
      constructor
      · rintro ⟨low', high', hlow', hhigh', h⟩
        rwa [numeralOf_unique hlow hlow', numeralOf_unique hhigh hhigh']
      · exact fun h ↦ ⟨low, high, hlow, hhigh, h⟩
    refine AcceptsIff.congr ?_ hends.symm
    rw [hexNumber_of_numeralOf hlow, hexNumber_of_numeralOf hhigh]
    split
    · exact acceptsIff_refuse (by omega) _
    · split
      · exact acceptsIff_refuse (by omega) _
      · simp only [except_ok_bind]
        unfold Expression.codeRange?
        split
        · next range hrange =>
          split at hrange
          · next hordered => exact acceptsIff_ok (by omega) _
          · cases hrange
        · next hrange =>
          split at hrange
          · cases hrange
          · next hordered => exact acceptsIff_refuse (by omega) _

end Range

section Pairs

/-- Two digits, which are no signs. -/
def IsPair (g : List Char) : Prop := g.length = 2 ∧ ∀ c ∈ g, c ∉ hexSigns

theorem isDigit_ofChar_iff : (HexToken.ofChar c).isDigit ↔ c ∉ hexSigns := by
  rw [isDigit_ofChar_eq]
  simp

theorem isPair_iff (a b : Char) : IsPair [a, b] ↔ a ∉ hexSigns ∧ b ∉ hexSigns := by
  simp [IsPair]

theorem text_ofChar (c : Char) : (HexToken.ofChar c).text.toList = [c] := by
  simp [HexToken.ofChar, Char.toString]

theorem pairs?_nil {leads : HexToken → Bool} : pairs? leads [] = some [] := by
  rw [pairs?]

/-- Pairs are found in a text that is a lead and pairs between dots. -/
theorem pairs?_of_isPair {leads : HexToken → Bool} {groups : List (List Char)}
    (hlead : leads (HexToken.ofChar m)) (hne : groups ≠ []) (h : ∀ g ∈ groups, IsPair g) :
    pairs? leads ((m :: ['.'].intercalate groups).map HexToken.ofChar) = some groups := by
  induction groups generalizing leads m with
  | nil => exact absurd rfl hne
  | cons g gs ih =>
    obtain ⟨hg, hgs⟩ := List.forall_mem_cons.1 h
    obtain ⟨a, b, rfl⟩ := List.length_eq_two.1 hg.1
    obtain ⟨ha, hb⟩ := (isPair_iff a b).1 hg
    have hrest : pairs? isDot ((if gs = [] then [] else '.' :: ['.'].intercalate gs).map
        HexToken.ofChar) = some gs := by
      split
      · next hnil => rw [hnil, List.map_nil, pairs?_nil]
      · next hgs' => exact ih (isDot_ofChar_iff.2 rfl) hgs' hgs
    have hrow : ['.'].intercalate ([a, b] :: gs)
        = a :: b :: if gs = [] then [] else '.' :: ['.'].intercalate gs := by
      cases gs <;> simp
    rw [hrow, List.map_cons, List.map_cons, List.map_cons, pairs?, hlead,
      isDigit_ofChar_iff.2 ha, isDigit_ofChar_iff.2 hb, hrest]
    simp [text_ofChar]

theorem of_pairs? {leads : HexToken → Bool} {groups : List (List Char)}
    (h : pairs? leads (cs.map HexToken.ofChar) = some groups) (hne : cs ≠ []) :
    ∃ m, leads (HexToken.ofChar m) ∧ groups ≠ [] ∧ (∀ g ∈ groups, IsPair g) ∧
      cs = m :: ['.'].intercalate groups := by
  induction groups generalizing leads cs with
  | nil =>
    obtain ⟨c, cs, rfl⟩ := List.exists_cons_of_ne_nil hne
    obtain ⟨-, _, _, _, _, -, -, -, -, hpairs⟩ := of_pairs?_cons h
    cases hpairs
  | cons g gs ih =>
    obtain ⟨m, cs, rfl⟩ := List.exists_cons_of_ne_nil hne
    obtain ⟨hlead, ta, tb, rest, tail, hrow, ha, hb, htail, hpairs⟩ := of_pairs?_cons h
    obtain ⟨a, as, rfl, rfl, has⟩ := List.map_eq_cons_iff.1 hrow
    obtain ⟨b, cs, rfl, rfl, rfl⟩ := List.map_eq_cons_iff.1 has
    obtain ⟨rfl, rfl⟩ := List.cons.inj hpairs
    rw [text_ofChar, text_ofChar]
    have hpair : IsPair [a, b] :=
      (isPair_iff a b).2 ⟨isDigit_ofChar_iff.1 ha, isDigit_ofChar_iff.1 hb⟩
    by_cases hcs : cs = []
    · subst hcs
      rw [List.map_nil, pairs?_nil] at htail
      cases htail
      exact ⟨m, hlead, by simp, by simpa using hpair, rfl⟩
    · obtain ⟨dot, hdot, hgs, hall, rfl⟩ := ih htail hcs
      rw [isDot_ofChar_iff] at hdot
      subst hdot
      refine ⟨m, hlead, by simp, List.forall_mem_cons.2 ⟨hpair, hall⟩, ?_⟩
      obtain ⟨g', gs', rfl⟩ := List.exists_cons_of_ne_nil hgs
      simp

end Pairs

section Single

theorem length_withoutSigns_iff :
    (withoutSigns cs).length = cs.length ↔ ∀ c ∈ cs, c ∉ hexSigns := by
  rw [withoutSigns, List.length_filter_eq_length_iff]
  simp

theorem withoutSigns_eq_self (h : ∀ c ∈ cs, c ∉ hexSigns) : withoutSigns cs = cs :=
  List.filter_eq_self.2 (by simpa using h)

theorem single?_eq_some_iff :
    single? ((m :: cs).map HexToken.ofChar) = some ds ↔
      IsMarker m ∧ cs.length ≤ 6 ∧ cs ≠ [] ∧ (∀ c ∈ cs, c ∉ hexSigns) ∧ ds = cs := by
  have hcondition : ((m :: cs).map HexToken.ofChar).length ≤ singleLimit ∧
      (HexToken.ofChar m).isMarker ∧
      (digits (cs.map HexToken.ofChar)).length = (cs.map HexToken.ofChar).length ∧
      digits (cs.map HexToken.ofChar) ≠ [] ↔
        IsMarker m ∧ cs.length ≤ 6 ∧ cs ≠ [] ∧ ∀ c ∈ cs, c ∉ hexSigns := by
    rw [isMarker_ofChar_iff, digits_map_ofChar_eq, List.length_map, List.length_map,
      length_withoutSigns_iff, List.length_cons, singleLimit]
    constructor
    · rintro ⟨hlength, hmarker, hsigns, hne⟩
      rw [withoutSigns_eq_self hsigns] at hne
      exact ⟨hmarker, by omega, hne, hsigns⟩
    · rintro ⟨hmarker, hlength, hne, hsigns⟩
      rw [withoutSigns_eq_self hsigns]
      exact ⟨by omega, hmarker, hsigns, hne⟩
  rw [List.map_cons] at hcondition ⊢
  unfold single?
  simp only
  by_cases hsingle : IsMarker m ∧ cs.length ≤ 6 ∧ cs ≠ [] ∧ ∀ c ∈ cs, c ∉ hexSigns
  · rw [if_pos (hcondition.2 hsingle), digits_map_ofChar_eq]
    obtain ⟨hmarker, hlength, hne, hsigns⟩ := hsingle
    rw [withoutSigns_eq_self hsigns]
    constructor
    · intro h
      exact ⟨hmarker, hlength, hne, hsigns, (Option.some.inj h).symm⟩
    · rintro ⟨-, -, -, -, rfl⟩
      rfl
  · rw [if_neg fun h ↦ hsingle (hcondition.1 h)]
    refine iff_of_false nofun ?_
    rintro ⟨hmarker, hlength, hne, hsigns, -⟩
    exact hsingle ⟨hmarker, hlength, hne, hsigns⟩

end Single

section Texts

theorem not_mem_hexSigns {n : ℕ} (h : NumeralOf 16 cs n) : ∀ c ∈ cs, c ∉ hexSigns :=
  h.forall_mem (by decide)

theorem withoutSigns_marker (hm : IsMarker m) (cs : List Char) :
    withoutSigns (m :: cs) = withoutSigns cs := by
  rcases hm with rfl | rfl <;> rfl

theorem not_dash_mem_pairs {groups : List (List Char)} (hm : IsMarker m)
    (h : ∀ g ∈ groups, ∃ n, NumeralOf 16 g n) : '-' ∉ m :: ['.'].intercalate groups := by
  obtain ⟨ns, hns⟩ := exists_forall₂ h
  intro hdash
  have hnot := isDash_series hm hns '-' hdash
  cases hnot

theorem not_dash_mem_single {n : ℕ} (hm : IsMarker m) (h : NumeralOf 16 ds n) : '-' ∉ m :: ds := by
  rw [List.mem_cons, not_or]
  refine ⟨?_, fun hdash ↦ not_mem_hexSigns h '-' hdash (by decide)⟩
  rcases hm with rfl | rfl <;> decide

theorem HasRange.dash_mem (h : HasRange cs) : '-' ∈ cs := by
  obtain ⟨before, after, -, -, rfl, -⟩ := h
  simp

theorem HexText.hasRange (h : HexText cs) (hdash : '-' ∈ cs) : HasRange cs := by
  cases h with
  | single hm hds => exact absurd hdash (not_dash_mem_single hm hds)
  | pairs hm _ hgroups => exact absurd hdash (not_dash_mem_pairs hm fun g hg ↦ (hgroups g hg).2)
  | @range m ls hs low high hm hl hh hordered hmost =>
    refine ⟨m :: ls, hs, low, high, rfl, not_dash_mem_single hm hl, ?_, ?_, hordered, hmost⟩
    · rwa [withoutSigns_marker hm, withoutSigns_of_numeralOf hl]
    · rwa [withoutSigns_of_numeralOf hh]

/-- A text without a dash is found by one of two readings. -/
theorem HexText.reading (h : HexText cs) (hdash : '-' ∉ cs) :
    (∃ groups, pairs? HexToken.isMarker (cs.map HexToken.ofChar) = some groups) ∨
      ∃ ds n, single? (cs.map HexToken.ofChar) = some ds ∧ NumeralOf 16 ds n ∧ n ≤ 0x10FFFF := by
  cases h with
  | @single m ds n hm hds hlength hn =>
    exact Or.inr ⟨ds, n, single?_eq_some_iff.2 ⟨hm, hlength, hds.1, not_mem_hexSigns hds, rfl⟩,
      hds, hn⟩
  | @pairs m groups hm hne hgroups =>
    refine Or.inl ⟨groups, pairs?_of_isPair (isMarker_ofChar_iff.2 hm) hne fun g hg ↦ ?_⟩
    obtain ⟨hlength, n, hn⟩ := hgroups g hg
    exact ⟨hlength, not_mem_hexSigns hn⟩
  | range => exact absurd (by simp) hdash

theorem mem_intercalate_of_mem {g sep : List Char} {groups : List (List Char)} (hg : g ∈ groups)
    (hc : c ∈ g) : c ∈ sep.intercalate groups := by
  induction groups with
  | nil => cases hg
  | cons g' gs ih =>
    cases gs with
    | nil =>
      rw [List.mem_singleton.1 hg] at hc
      simpa using hc
    | cons g'' gs =>
      rw [List.intercalate_cons_cons, List.mem_append, List.mem_append]
      rcases List.mem_cons.1 hg with rfl | hg
      · exact Or.inl (Or.inl hc)
      · exact Or.inr (ih hg)

theorem IsPair.exists_numeralOf {g : List Char} (hg : IsPair g) (hchars : ∀ c ∈ g, IsHexChar c) :
    ∃ n, NumeralOf 16 g n := by
  rw [← withoutSigns_eq_self hg.2]
  refine exists_numeralOf_withoutSigns hchars ?_
  rw [withoutSigns_eq_self hg.2]
  rintro rfl
  exact absurd hg.1 (by decide)

end Texts

section Leaves

theorem acceptsIff_series (node : SyntaxTree) (hcs : ∀ c ∈ cs, IsHexChar c) (hdash : '-' ∉ cs)
    (hne : cs ≠ []) :
    AcceptsIff node
      (match pairs? HexToken.isMarker (cs.map HexToken.ofChar) with
      | some pairs => return .literal (← pairs.mapM pairValue)
      | none =>
        match single? (cs.map HexToken.ofChar) with
        | some ds => return .literal [← codepoint (← hexNumber node ds)]
        | none => refuse node .hexValue)
      (HexText cs) := by
  split
  · next groups hpairs =>
    obtain ⟨m, hm, hgroups, hall, rfl⟩ := of_pairs? hpairs hne
    have hnumerals : ∀ g ∈ groups, ∃ n, NumeralOf 16 g n := by
      intro g hg
      refine (hall g hg).exists_numeralOf fun c hc ↦ hcs c ?_
      exact List.mem_cons_of_mem _ (mem_intercalate_of_mem hg hc)
    obtain ⟨ns, hns⟩ := exists_forall₂ hnumerals
    obtain ⟨value, hvalue, -⟩ := mapM_pairValue hns fun g hg ↦ (hall g hg).1
    rw [hvalue]
    refine acceptsIff_ok (.pairs (isMarker_ofChar_iff.1 hm) hgroups fun g hg ↦ ?_) _
    exact ⟨(hall g hg).1, hnumerals g hg⟩
  · next hpairs =>
    split
    · next ds hsingle =>
      obtain ⟨m, cs, rfl⟩ := List.exists_cons_of_ne_nil hne
      obtain ⟨hm, hlength, hnil, hsigns, rfl⟩ := single?_eq_some_iff.1 hsingle
      obtain ⟨n, hn⟩ := exists_numeralOf hnil fun c hc ↦
        (hcs c (List.mem_cons_of_mem _ hc)).resolve_left (hsigns c hc)
      rw [hexNumber_of_numeralOf hn]
      split
      · next hlarge =>
        refine acceptsIff_refuse (fun h ↦ ?_) _
        rcases h.reading hdash with ⟨groups, hgroups⟩ | ⟨ds', n', hds', hn', hle⟩
        · rw [hpairs] at hgroups
          cases hgroups
        · rw [hsingle] at hds'
          cases hds'
          have := numeralOf_unique hn hn'
          omega
      · next hsmall =>
        simp only [except_ok_bind]
        rw [codepoint_of_le (by omega)]
        exact acceptsIff_ok (.single hm hn hlength (by omega)) _
    · next hsingle =>
      refine acceptsIff_refuse (fun h ↦ ?_) _
      rcases h.reading hdash with ⟨groups, hgroups⟩ | ⟨ds, n, hds, -⟩
      · rw [hpairs] at hgroups
        cases hgroups
      · rw [hsingle] at hds
        cases hds

theorem ofTree_leaf (hleaf : t.children = []) (hchars : ∀ c ∈ t.text.toList, IsHexChar c) :
    HexToken.ofTree t = t.text.toList.map HexToken.ofChar := by
  have hsigns : ∀ c ∈ hexSigns, isBlank c = false := forall_mem_hexSigns rfl rfl rfl rfl
  rw [ofTree_eq_map_ofChar (by simp [hleaf]), SyntaxTree.tokenText, if_pos hleaf,
    toList_withoutBlanks, List.filter_eq_self.2]
  intro c hc
  rcases hchars c hc with hsign | ⟨d, hd⟩
  · rw [hsigns c hsign]
    rfl
  · exact hd.elim (p := fun c ↦ !isBlank c) (by decide)

theorem acceptsIff_leaf (hleaf : t.children = []) (hne : t.text ≠ "")
    (hchars : ∀ c ∈ t.text.toList, IsHexChar c) :
    AcceptsIff t (hexValue t) (HexText t.text.toList ∨ HasRange t.text.toList) := by
  have hnil : t.text.toList ≠ [] := fun h ↦ hne (String.toList_eq_nil_iff.1 h)
  have hany : (t.text.toList.map HexToken.ofChar).any HexToken.isDash ↔ '-' ∈ t.text.toList := by
    simp [isDash_ofChar_iff]
  unfold hexValue
  rw [ofTree_leaf hleaf hchars]
  simp only
  rw [if_neg (by simpa using hnil)]
  by_cases hdash : '-' ∈ t.text.toList
  · rw [if_pos (hany.2 hdash)]
    refine (acceptsIff_hexRange t hchars hdash).congr ?_
    exact ⟨Or.inr, fun h ↦ h.elim (·.hasRange hdash) id⟩
  · rw [if_neg fun h ↦ hdash (hany.1 h)]
    refine (acceptsIff_series t hchars hdash hnil).congr ?_
    exact ⟨Or.inl, fun h ↦ h.resolve_right fun h ↦ hdash h.dash_mem⟩

/-- A leaf of hexadecimal digits and signs is accepted exactly if its text is that of a hexadecimal
value or has a range with signs in wrong places. Else it is refused with a record. -/
theorem hexValue_leaf_iff (hleaf : t.children = []) (hne : t.text ≠ "")
    (hchars : ∀ c ∈ t.text.toList, IsHexChar c) :
    ((∃ e, hexValue t = .ok e) ↔ HexText t.text.toList ∨ IsStrayRange t.text.toList) ∧
      ((∀ e, hexValue t ≠ .ok e) → ∃ reason, hexValue t = refuse t reason) := by
  have hstray : HexText t.text.toList ∨ IsStrayRange t.text.toList ↔
      HexText t.text.toList ∨ HasRange t.text.toList := by
    unfold IsStrayRange
    tauto
  rw [hstray]
  rcases acceptsIff_leaf hleaf hne hchars with ⟨hp, e, he⟩ | ⟨hp, reason, hrefused⟩
  · exact ⟨iff_of_true ⟨e, he⟩ hp, fun h ↦ absurd he (h e)⟩
  · refine ⟨iff_of_false ?_ hp, fun _ ↦ ⟨reason, hrefused⟩⟩
    rintro ⟨e, he⟩
    rw [hrefused] at he
    cases he

theorem numeralOf_letters : NumeralOf 16 ['4', '1'] 0x41 ∧ NumeralOf 16 ['5', 'a'] 0x5A := by
  refine ⟨⟨by decide, [4, 1], ?_, rfl⟩, ⟨by decide, [5, 10], ?_, rfl⟩⟩
  · exact .cons ⟨by decide, by decide⟩ (.cons ⟨by decide, by decide⟩ .nil)
  · exact .cons ⟨by decide, by decide⟩ (.cons ⟨by decide, by decide⟩ .nil)

def letterRange : SyntaxTree := .leaf "hex_val" "x41-5a"

theorem hexValue_letterRange : letterRange.children = [] ∧ letterRange.text ≠ "" ∧
    (∀ c ∈ letterRange.text.toList, IsHexChar c) ∧ ∃ e, hexValue letterRange = .ok e := by
  have hchars : ∀ c ∈ letterRange.text.toList, IsHexChar c := isHexChar_of_all (by decide)
  refine ⟨rfl, by decide, hchars, (hexValue_leaf_iff rfl (by decide) hchars).1.2 (Or.inl ?_)⟩
  exact .range (m := 'x') (Or.inl rfl) numeralOf_letters.1 numeralOf_letters.2 (by decide)
    (by decide)

/-- There is at most one dash in the text of a hexadecimal value. -/
theorem HexText.count_dash_le (h : HexText cs) : cs.count '-' ≤ 1 := by
  cases h with
  | single hm hds => rw [List.count_eq_zero.2 (not_dash_mem_single hm hds)]; omega
  | pairs hm _ hgroups =>
    rw [List.count_eq_zero.2 (not_dash_mem_pairs hm fun g hg ↦ (hgroups g hg).2)]; omega
  | range hm hl hh =>
    rw [← List.cons_append, List.count_append, List.count_cons_self,
      List.count_eq_zero.2 (not_dash_mem_single hm hl),
      List.count_eq_zero.2 fun hdash ↦ not_mem_hexSigns hh '-' hdash (by decide)]

def doubleRange : SyntaxTree := .leaf "hex_val" "x20-7E-80"

/-- The digits behind both dashes are taken for one number. -/
theorem not_hexText_doubleRange : doubleRange.children = [] ∧ doubleRange.text ≠ "" ∧
    (∀ c ∈ doubleRange.text.toList, IsHexChar c) ∧ ¬ HexText doubleRange.text.toList ∧
    hexValue doubleRange = .ok (.charClass ⟨0x20, 0x7E80, by decide, by decide⟩) := by
  refine ⟨rfl, by decide, isHexChar_of_all (by decide), fun h ↦ ?_, rfl⟩
  have htwo : doubleRange.text.toList.count '-' = 2 := by decide
  have := h.count_dash_le
  omega

end Leaves

end AbnfCompiler.Compilation
