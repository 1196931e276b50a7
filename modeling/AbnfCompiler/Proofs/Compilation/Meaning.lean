import AbnfCompiler.Compilation.Basic
import AbnfCompiler.Proofs.Compilation.Occurrences
import AbnfCompiler.Proofs.Compilation.Operands
import AbnfCompiler.Proofs.Compilation.Terminal

/-!
Compiling keeps the meaning. A syntax tree that stands for a language is compiled, if nothing of it
is reported as left out, to an expression of this language.
-/
namespace AbnfCompiler.Compilation

open Text

variable {α β : Type} {ρ : String → Language Codepoint} {L : Language Codepoint}
  {Ls : List (Language Codepoint)}

section Faithful

/-- If nothing is reported as left out, the result satisfies `p`. -/
def Yields {ε : Type} (p : α → Prop) (x : Traced Event ε α) : Prop :=
  unsupported x.trace = [] → ∃ a, x.result = .ok a ∧ p a

/-- If nothing is reported as left out so far, the result satisfies `p`, or the construct is
refused with a record. -/
def Drafts (p : α → Prop) (x : Drafting Event α) : Prop :=
  unsupported x.trace = [] →
    (∃ a, x.result = .ok a ∧ p a) ∨ ∃ u, x.result = .error (.unsupported u)

theorem Yields.drafts {p : α → Prop} {x : Drafting Event α} (h : Yields p x) : Drafts p x :=
  fun hx ↦ Or.inl (h hx)

theorem drafts_pure {p : α → Prop} {a : α} (h : p a) : Drafts p (pure a) :=
  fun _ ↦ Or.inl ⟨a, rfl, h⟩

theorem Drafts.bind {p : α → Prop} {q : β → Prop} {x : Drafting Event α}
    {f : α → Drafting Event β} (hx : Drafts p x) (hf : ∀ a, p a → Drafts q (f a)) :
    Drafts q (x >>= f) := by
  intro htrace
  cases hresult : x.result with
  | error e =>
    rw [Traced.bind_error hresult] at htrace ⊢
    rcases hx htrace with ⟨a, ha, -⟩ | ⟨u, hu⟩
    · rw [hresult] at ha
      cases ha
    · rw [hresult] at hu
      cases hu
      exact Or.inr ⟨u, rfl⟩
  | ok a =>
    rw [Traced.bind_ok hresult, unsupported_append, List.append_eq_nil_iff] at htrace
    rw [Traced.bind_ok hresult]
    rcases hx htrace.1 with ⟨a', ha', hp⟩ | ⟨u, hu⟩
    · rw [hresult] at ha'
      cases ha'
      exact hf a hp htrace.2
    · rw [hresult] at hu
      cases hu

/-- A refusal is reported in the end, so that it cannot be overlooked. -/
theorem Drafts.settle {p : Option Expression → Prop} {x : Drafting Event (Option Expression)}
    (h : Drafts p x) : Yields p (settle x) := by
  intro htrace
  unfold Compilation.settle at htrace ⊢
  split at htrace
  · next e he =>
    rcases h htrace with ⟨a, ha, hp⟩ | ⟨u, hu⟩
    · rw [he] at ha
      cases ha
      exact ⟨e, rfl, hp⟩
    · rw [he] at hu
      cases hu
  · rw [unsupported_append, List.append_eq_nil_iff] at htrace
    cases htrace.2
  · next f hf =>
    rcases h htrace with ⟨a, ha, -⟩ | ⟨u, hu⟩
    · rw [hf] at ha
      cases ha
    · rw [hf] at hu
      cases hu

theorem Yields.relabel {p : α → Prop} {x : Traced Event Failure α} (h : Yields p x) :
    Yields p (x.relabel id Refusal.failure) := by
  intro htrace
  rw [Traced.relabel, List.map_id] at htrace
  obtain ⟨a, ha, hp⟩ := h htrace
  exact ⟨a, by rw [Traced.relabel, ha]; rfl, hp⟩

end Faithful

section Nodes

/-- There is an expression, and its language is `L`. -/
def Speaks (ρ : String → Language Codepoint) (L : Language Codepoint)
    (found : Option Expression) : Prop :=
  ∃ e, found = some e ∧ e.language ρ = L

/-- A part for a language: its tree stands for the language, and so does its expression. -/
def PartSpeaks (ρ : String → Language Codepoint) (part : Part Event)
    (L : Language Codepoint) : Prop :=
  part.1.Denotes ρ L ∧ Yields (Speaks ρ L) part.2

variable {node : SyntaxTree} {ps : List (Part Event)}

theorem Accepts.drafts {x : Except Refusal Expression} (h : Accepts ρ x L) :
    Drafts (Speaks ρ L) (some <$> (.ofExcept x : Drafting Event Expression)) := by
  intro _
  rcases h with ⟨e, rfl, he⟩ | ⟨u, rfl⟩
  · exact Or.inl ⟨some e, rfl, e, rfl, he⟩
  · exact Or.inr ⟨u, rfl⟩

theorem drafts_gather (h : List.Forall₂ (PartSpeaks ρ) ps Ls) :
    Drafts (fun es ↦ es.map (Expression.language ρ) = Ls) (gather ps) := by
  induction h with
  | nil => exact drafts_pure rfl
  | cons hpart _ ih =>
    apply hpart.2.drafts.bind
    rintro _ ⟨e, rfl, rfl⟩
    apply ih.bind
    rintro es rfl
    exact drafts_pure rfl

theorem drafts_nonempty (h : ps ≠ []) : Drafts (fun _ ↦ True) (nonempty node ps) := by
  intro _
  have hne : ps.isEmpty = false := by simpa using h
  exact Or.inl ⟨(), by rw [nonempty, hne]; rfl, trivial⟩

theorem speaks_sum {es : List Expression} (hne : es ≠ []) :
    Speaks ρ (es.map (Expression.language ρ)).sum (Expression.choiceOf es) := by
  match es, hne with
  | [e], _ => exact ⟨e, rfl, Expression.language_choiceOf rfl⟩
  | e₁ :: e₂ :: es, _ => exact ⟨_, rfl, Expression.language_choiceOf rfl⟩

theorem speaks_prod {es : List Expression} (hne : es ≠ []) :
    Speaks ρ (es.map (Expression.language ρ)).prod (Expression.sequenceOf es) := by
  match es, hne with
  | [e], _ => exact ⟨e, rfl, Expression.language_sequenceOf rfl⟩
  | e₁ :: e₂ :: es, _ => exact ⟨_, rfl, Expression.language_sequenceOf rfl⟩

theorem ne_nil_of_parts (h : List.Forall₂ (PartSpeaks ρ) ps Ls) (hne : Ls ≠ []) : ps ≠ [] := by
  rintro rfl
  cases h
  exact hne rfl

theorem RepeatSpelling.ne_nil {least : ℕ} {most : Option ℕ} (h : RepeatSpelling cs least most) :
    cs ≠ [] := by
  cases h with
  | exactly hn => exact hn.1
  | between => simp

theorem toList_operatorText {operator : SyntaxTree} {least : ℕ} {most : Option ℕ}
    (h : RepeatSpelling operator.tokenText least most) :
    (withoutBlanks (operatorText operator)).toList = operator.tokenText := by
  have hne := RepeatSpelling.ne_nil h
  unfold operatorText
  unfold SyntaxTree.tokenText at hne ⊢
  by_cases hc : operator.children = []
  · rw [hc]
    rfl
  · rw [if_neg hc] at hne ⊢
    simp only
    rw [if_neg]
    intro hjoin
    rw [hjoin] at hne
    exact hne rfl

theorem accepts_counted (ρ : String → Language Codepoint) {operator : SyntaxTree} {least : ℕ}
    {most : Option ℕ} (h : RepeatSpelling operator.tokenText least most) (e : Expression) :
    Accepts ρ (counted operator e) (occurring least most (e.language ρ)) := by
  rw [← toList_operatorText h] at h
  unfold counted
  rcases Occurrences.ofText?_of_repeatSpelling h with hcount | ⟨k, hcount⟩
  · rw [hcount]
    simp only
    split
    · exact accepts_refuse ..
    · next repeated hrepeated =>
      refine Or.inl ⟨repeated, rfl, ?_⟩
      rw [Expression.language_repeated hrepeated, Option.map_map]
      cases most <;> rfl
  · rw [hcount]
    exact accepts_refuse ..

theorem exists_part (h : List.Forall₂ (PartSpeaks ρ) ps [L]) :
    ∃ tree draft, ps = [(tree, draft)] ∧ tree.Denotes ρ L ∧ Yields (Speaks ρ L) draft := by
  obtain ⟨⟨tree, draft⟩, rest, hpart, hrest, rfl⟩ := List.forall₂_cons_right_iff.1 h
  cases hrest
  exact ⟨tree, draft, rfl, hpart⟩

theorem drafts_elements (hkind : construct? node.kind = some .elements)
    (h : List.Forall₂ (PartSpeaks ρ) ps [L]) : Drafts (Speaks ρ L) (assemble node ps) := by
  unfold assemble
  rw [hkind]
  apply (drafts_gather h).bind
  intro es hes
  have hlength : es.length = 1 := by simpa using congrArg List.length hes
  obtain ⟨e, rfl⟩ := List.length_eq_one_iff.1 hlength
  exact drafts_pure ⟨e, rfl, by simpa using hes⟩

/-- One or more parts in a row, joined to one expression. -/
theorem drafts_joined {join : List Expression → Option Expression} (hne : Ls ≠ [])
    (h : List.Forall₂ (PartSpeaks ρ) ps Ls)
    (hjoin : ∀ es, es ≠ [] → es.map (Expression.language ρ) = Ls → Speaks ρ L (join es)) :
    Drafts (Speaks ρ L) (do nonempty node ps; return join (← gather ps)) := by
  apply (drafts_nonempty (ne_nil_of_parts h hne)).bind
  intro _ _
  apply (drafts_gather h).bind
  intro es hes
  apply drafts_pure
  apply hjoin es ?_ hes
  rintro rfl
  exact hne hes.symm

theorem drafts_alternation (hkind : construct? node.kind = some .alternation) (hne : Ls ≠ [])
    (h : List.Forall₂ (PartSpeaks ρ) ps Ls) : Drafts (Speaks ρ Ls.sum) (assemble node ps) := by
  unfold assemble
  rw [hkind]
  apply drafts_joined hne h
  rintro es hes rfl
  exact speaks_sum hes

theorem drafts_concatenation (hkind : construct? node.kind = some .concatenation) (hne : Ls ≠ [])
    (h : List.Forall₂ (PartSpeaks ρ) ps Ls) : Drafts (Speaks ρ Ls.prod) (assemble node ps) := by
  unfold assemble
  rw [hkind]
  apply drafts_joined hne h
  rintro es hes rfl
  exact speaks_prod hes

theorem drafts_option (hkind : construct? node.kind = some .option)
    (h : List.Forall₂ (PartSpeaks ρ) ps [L]) : Drafts (Speaks ρ (1 + L)) (assemble node ps) := by
  unfold assemble
  rw [hkind]
  obtain ⟨tree, draft, rfl, -, hdraft⟩ := exists_part h
  apply hdraft.drafts.bind
  rintro _ ⟨e, rfl, rfl⟩
  exact drafts_pure ⟨.optional e, rfl, rfl⟩

theorem drafts_once (hkind : construct? node.kind = some .repetition)
    (h : List.Forall₂ (PartSpeaks ρ) ps [L]) : Drafts (Speaks ρ L) (assemble node ps) := by
  unfold assemble
  rw [hkind]
  obtain ⟨tree, draft, rfl, -, hdraft⟩ := exists_part h
  exact hdraft.drafts

theorem drafts_repeated {operator : SyntaxTree} {ignored : Drafting Event (Option Expression)}
    {least : ℕ} {most : Option ℕ} (hkind : construct? node.kind = some .repetition)
    (hspelling : RepeatSpelling operator.tokenText least most)
    (h : List.Forall₂ (PartSpeaks ρ) ps [L]) :
    Drafts (Speaks ρ (occurring least most L)) (assemble node ((operator, ignored) :: ps)) := by
  unfold assemble
  rw [hkind]
  obtain ⟨tree, draft, rfl, -, hdraft⟩ := exists_part h
  apply hdraft.drafts.bind
  rintro _ ⟨e, rfl, rfl⟩
  exact (accepts_counted ρ hspelling e).drafts

theorem drafts_wrapper (hkind : construct? node.kind = some .wrapper)
    (h : List.Forall₂ (PartSpeaks ρ) ps [L]) : Drafts (Speaks ρ L) (assemble node ps) := by
  unfold assemble
  rw [hkind]
  obtain ⟨tree, draft, rfl, -, hdraft⟩ := exists_part h
  exact hdraft.drafts

/-- Names stand for the languages of their rules, and nothing else has the kind of a name. -/
theorem language_of_reference {t : SyntaxTree} (hkind : t.kind ∈ referenceKinds)
    (h : t.Denotes ρ L) : L = ρ (RuleName.normal t.text) := by
  have hkinds : ∀ k ∈ referenceKinds, k ∉ SyntaxTree.wrapperKinds ∧ k ≠ "alternation" ∧
      k ≠ "concatenation" ∧ k ≠ "option" ∧ k ≠ "repetition" ∧ k ≠ "quoted_string" ∧
      k ≠ "num_val" ∧ k ≠ "hex_val" := by decide
  obtain ⟨h₁, h₂, h₃, h₄, h₅, h₆, h₇, h₈⟩ := hkinds _ hkind
  cases h with
  | name => rfl
  | wrapper hk => exact absurd hk h₁
  | alternation hk => exact absurd hk h₂
  | concatenation hk => exact absurd hk h₃
  | option hk => exact absurd hk h₄
  | once hk | repeated hk => exact absurd hk h₅
  | quoted hk => exact absurd hk h₆
  | numeral hk => exact absurd hk h₇
  | hexValue hk => exact absurd hk h₈

theorem drafts_element (hkind : construct? node.kind = some .element)
    (h : List.Forall₂ (PartSpeaks ρ) ps [L]) : Drafts (Speaks ρ L) (assemble node ps) := by
  unfold assemble
  rw [hkind]
  obtain ⟨tree, draft, rfl, htree, hdraft⟩ := exists_part h
  simp only [element]
  split
  · next href =>
    have hL := language_of_reference (by simpa using href) htree
    exact drafts_pure ⟨_, rfl, hL.symm⟩
  · exact hdraft.drafts

theorem unquoted_quotes (s : String) : unquoted ("\"" ++ s ++ "\"") = s := by
  have hchars : ("\"" ++ s ++ "\"").toList = '"' :: (s.toList ++ ['"']) := by simp
  unfold unquoted
  rw [hchars]
  simp only
  rw [if_pos]
  · rw [List.drop_succ_cons, List.drop_zero, List.dropLast_concat, String.ofList_toList]
  · refine ⟨by simp, rfl, ?_⟩
    rw [← List.cons_append, List.getLast?_concat]

theorem drafts_quoted {s : String} (hkind : construct? node.kind = some .quotedString)
    (htext : node.text = "\"" ++ s ++ "\"") :
    Drafts (Speaks ρ {Codepoint.ofText s}) (assemble node ps) := by
  unfold assemble
  rw [hkind]
  refine drafts_pure ⟨_, rfl, ?_⟩
  rw [quotedString, htext, unquoted_quotes]
  rfl

theorem drafts_hexValue (hkind : construct? node.kind = some .hexValue)
    (htokens : ∀ c ∈ node.children, c.IsHexToken) (h : HexSpelling node.tokenText L) :
    Drafts (Speaks ρ L) (assemble node ps) := by
  unfold assemble
  rw [hkind]
  exact (accepts_hexValue ρ htokens h).drafts

theorem spelling_of_denotes {t : SyntaxTree} (hkind : t.kind = "hex_val") (h : t.Denotes ρ L) :
    (∀ c ∈ t.children, c.IsHexToken) ∧ HexSpelling t.tokenText L := by
  have hwrapper : "hex_val" ∉ SyntaxTree.wrapperKinds := by decide
  have hreference : "hex_val" ∉ referenceKinds := by decide
  cases h with
  | hexValue _ htokens hspelling => exact ⟨htokens, hspelling⟩
  | wrapper hk => exact absurd (hkind ▸ hk) hwrapper
  | name hk => exact absurd (hkind ▸ hk) hreference
  | alternation hk | concatenation hk | option hk | once hk | repeated hk | quoted hk
  | numeral hk => exact absurd (hkind.symm.trans hk) (by decide)

theorem drafts_numeral {percent value : SyntaxTree} (hkind : construct? node.kind = some .numeral)
    (hchildren : node.children = [percent, value]) (hpercent : percent.kind = "%")
    (hvalue : value.kind = "hex_val") (htokens : ∀ c ∈ value.children, c.IsHexToken)
    (h : HexSpelling value.tokenText L) : Drafts (Speaks ρ L) (assemble node ps) := by
  unfold assemble
  rw [hkind]
  have hnumeral : numeral node = hexValue value := by
    rw [numeral, hchildren]
    simp [hpercent, hvalue]
  simp only [hnumeral]
  exact (accepts_hexValue ρ htokens h).drafts

/-- A name on its own is left out, with a record. -/
theorem yields_reference {p : Option Expression → Prop} (hkind : node.kind ∈ referenceKinds) :
    Yields p (settle (assemble node ps)) := by
  have hnone : construct? node.kind = none := by
    have hkinds : ∀ k ∈ referenceKinds, construct? k = none := by decide
    exact hkinds _ hkind
  intro htrace
  rw [assemble, hnone] at htrace
  cases htrace

theorem parts_skip {t : SyntaxTree} (h : t.isMeaningful = false) (ts : List SyntaxTree) :
    parts (t :: ts) = parts ts := by
  rw [parts, h]
  rfl

theorem parts_cons {t : SyntaxTree} (h : t.isMeaningful) (ts : List SyntaxTree) :
    parts (t :: ts) = (t, (expression? t).relabel id .failure) :: parts ts := by
  rw [parts, h]
  rfl

theorem parts_append {before : List SyntaxTree} (h : ∀ b ∈ before, b.isMeaningful = false)
    (after : List SyntaxTree) : parts (before ++ after) = parts after := by
  induction before with
  | nil => rfl
  | cons b before ih =>
    rw [List.forall_mem_cons] at h
    rw [List.cons_append, parts_skip h.1, ih h.2]

end Nodes

mutual

theorem yields_of_denotes : ∀ {t : SyntaxTree} {L : Language Codepoint}, t.Denotes ρ L →
    Yields (Speaks ρ L) (expression? t)
  | t, L, .wrapper hkind heach => by
    rw [expression?_eq]
    have hparts := parts_of_denotesEach heach
    have hkinds : ∀ k ∈ SyntaxTree.wrapperKinds, construct? k = some .elements ∨
        construct? k = some .element ∨ construct? k = some .wrapper := by decide
    rcases hkinds _ hkind with hk | hk | hk
    · exact (drafts_elements hk hparts).settle
    · exact (drafts_element hk hparts).settle
    · exact (drafts_wrapper hk hparts).settle
  | t, _, .alternation hkind hne heach => by
    rw [expression?_eq]
    exact (drafts_alternation (by rw [hkind]; rfl) hne (parts_of_denotesEach heach)).settle
  | t, _, .concatenation hkind hne heach => by
    rw [expression?_eq]
    exact (drafts_concatenation (by rw [hkind]; rfl) hne (parts_of_denotesEach heach)).settle
  | t, _, .option hkind heach => by
    rw [expression?_eq]
    exact (drafts_option (by rw [hkind]; rfl) (parts_of_denotesEach heach)).settle
  | t, _, .once hkind heach => by
    rw [expression?_eq]
    exact (drafts_once (by rw [hkind]; rfl) (parts_of_denotesEach heach)).settle
  | t, _, .repeated hkind hchildren hbefore hoperator hspelling heach => by
    rw [expression?_eq, hchildren, parts_append hbefore, parts_cons hoperator]
    exact (drafts_repeated (by rw [hkind]; rfl) hspelling (parts_of_denotesEach heach)).settle
  | t, _, .name hkind => by
    rw [expression?_eq]
    exact yields_reference hkind
  | t, _, .quoted hkind htext => by
    rw [expression?_eq]
    exact (drafts_quoted (by rw [hkind]; rfl) htext).settle
  | t, L, .numeral hkind hchildren hpercent hvalue hdenotes => by
    rw [expression?_eq]
    obtain ⟨htokens, hspelling⟩ := spelling_of_denotes hvalue hdenotes
    exact (drafts_numeral (by rw [hkind]; rfl) hchildren hpercent hvalue htokens hspelling).settle
  | t, L, .hexValue hkind htokens hspelling => by
    rw [expression?_eq]
    exact (drafts_hexValue (by rw [hkind]; rfl) htokens hspelling).settle

theorem parts_of_denotesEach : ∀ {ts : List SyntaxTree} {Ls : List (Language Codepoint)},
    SyntaxTree.DenotesEach ρ ts Ls → List.Forall₂ (PartSpeaks ρ) (parts ts) Ls
  | _, _, .nil => .nil
  | _, _, .skip hskip heach => by
    rw [parts_skip hskip]
    exact parts_of_denotesEach heach
  | _, _, .cons hkeep hdenotes heach => by
    rw [parts_cons hkeep]
    exact .cons ⟨hdenotes, (yields_of_denotes hdenotes).relabel⟩ (parts_of_denotesEach heach)

end

/-- Compiling keeps the meaning: a tree for a language is compiled to an expression of the same
language, unless something is reported as left out. -/
theorem exists_language_of_denotes {t : SyntaxTree} (h : t.Denotes ρ L)
    (hkept : unsupported (expression? t).trace = []) :
    ∃ e, (expression? t).result = .ok (some e) ∧ e.language ρ = L := by
  obtain ⟨_, hresult, e, rfl, hlanguage⟩ := yields_of_denotes h hkept
  exact ⟨e, hresult, hlanguage⟩

/-- The option `[ 2*3a-b / %x41-5A ]`. -/
def optionTree : SyntaxTree :=
  .branch "option"
    [.token "[" "[", .leaf "c_wsp" " ",
     .branch "alternation"
       [.branch "concatenation"
          [.branch "repetition"
            [.leaf "repeat" "2*3", .branch "element" [.leaf "rulename" "a-b"]]],
        .leaf "c_wsp" " ", .token "/" "/", .leaf "c_wsp" " ",
        .branch "concatenation"
          [.branch "repetition"
            [.branch "element"
              [.branch "num_val"
                [.token "%" "%",
                 .branch "hex_val"
                   [.token "x" "x", .leaf "HEXDIG" "4", .leaf "HEXDIG" "1", .token "-" "-",
                    .leaf "HEXDIG" "5", .leaf "HEXDIG" "A"]]]]]],
     .leaf "c_wsp" " ", .token "]" "]"]

theorem exists_language_optionTree :
    ∃ e, (expression? optionTree).result = .ok (some e) ∧
      e.language (fun name ↦ {Codepoint.ofText name})
        = 1 + (occurring 2 (some 3) {Codepoint.ofText "a_b"} + codesBetween 0x41 0x5A) := by
  have hrange : HexSpelling ('x' :: (['4', '1'] ++ '-' :: ['5', 'A'])) (codesBetween 0x41 0x5A) :=
    .range (.inl rfl)
      ⟨by simp, [4, 1], by simp [DigitOf, Nat.digitChar], rfl⟩
      ⟨by simp, [5, 10], by simp [DigitOf]; decide, rfl⟩
  have hcount : RepeatSpelling (['2'] ++ '*' :: ['3']) 2 (some 3) :=
    .between
      (.given ⟨by simp, [2], by simp [DigitOf, Nat.digitChar], rfl⟩)
      (.given ⟨by simp, [3], by simp [DigitOf, Nat.digitChar], rfl⟩)
  have hdigit (d : ℕ) (h : d < 16) :
      (SyntaxTree.leaf "HEXDIG" (String.singleton d.digitChar.toUpper)).IsHexToken := by
    refine .inr ⟨rfl, d, ?_⟩
    simp only [SyntaxTree.leaf, String.toList_singleton]
    exact ⟨by simp, [d], .cons ⟨h, .inr rfl⟩ .nil, rfl⟩
  have h : optionTree.Denotes (fun name ↦ {Codepoint.ofText name})
      (1 + [[occurring 2 (some 3) {Codepoint.ofText "a_b"}].prod,
        [codesBetween 0x41 0x5A].prod].sum) := by
    refine .option rfl (.skip rfl (.skip rfl (.cons rfl ?_ (.skip rfl (.skip rfl .nil)))))
    refine .alternation rfl (by simp) (.cons rfl ?_ (.skip rfl (.skip rfl (.skip rfl
      (.cons rfl ?_ .nil)))))
    · refine .concatenation rfl (by simp) (.cons rfl ?_ .nil)
      refine .repeated rfl (List.nil_append _).symm (by simp) rfl hcount (.cons rfl ?_ .nil)
      exact .wrapper (by decide) (.cons rfl (.name (by decide)) .nil)
    · refine .concatenation rfl (by simp) (.cons rfl ?_ .nil)
      refine .once rfl (.cons rfl (.wrapper (by decide) (.cons rfl ?_ .nil)) .nil)
      refine .numeral rfl rfl rfl rfl (.hexValue rfl ?_ hrange)
      intro c hc
      simp only [SyntaxTree.branch, List.mem_cons, List.not_mem_nil, or_false] at hc
      rcases hc with rfl | rfl | rfl | rfl | rfl | rfl
      · exact .inl ⟨by decide, rfl⟩
      · exact hdigit 4 (by decide)
      · exact hdigit 1 (by decide)
      · exact .inl ⟨by decide, rfl⟩
      · exact hdigit 5 (by decide)
      · exact hdigit 10 (by decide)
  simpa using exists_language_of_denotes h (by rfl)

end AbnfCompiler.Compilation
