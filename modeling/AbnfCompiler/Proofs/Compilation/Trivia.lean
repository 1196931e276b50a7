import AbnfCompiler.Proofs.Compilation.Rulelist

/-!
White space and comments that are put between the nodes of a list of rules. Nodes that are blank
change nothing. A comment does: among the rules it leaves a record, and the operator of a rule is
no operator any more with a comment in it.
-/
namespace AbnfCompiler

namespace Text

/-- Whether characters are blanks and comments, each comment from a semicolon to the end of its
line. The flag says whether a comment has begun before them. -/
def isTriviaFrom : Bool → List Char → Bool
  | _, [] => true
  | true, c :: cs => isTriviaFrom (c != '\n' && c != '\r') cs
  | false, c :: cs => if c = ';' then isTriviaFrom true cs else isBlank c && isTriviaFrom false cs

def isTrivia (s : String) : Bool := isTriviaFrom false s.toList

theorem all_isBlank_of_isTriviaFrom {cs : List Char} (h : isTriviaFrom false cs)
    (hcomment : ';' ∉ cs) : cs.all isBlank := by
  induction cs with
  | nil => rfl
  | cons c cs ih =>
    rw [List.mem_cons, not_or] at hcomment
    rw [isTriviaFrom, if_neg (Ne.symm hcomment.1), Bool.and_eq_true] at h
    rw [List.all_cons, h.1, ih h.2 hcomment.2]
    rfl

/-- Trivia are blank exactly if there is no comment among them. -/
theorem isAllBlank_iff {s : String} (h : isTrivia s) : isAllBlank s ↔ ';' ∉ s.toList := by
  constructor
  · intro hblank hcomment
    have hmark := List.all_eq_true.1 hblank ';' hcomment
    exact absurd hmark (by decide)
  · exact all_isBlank_of_isTriviaFrom h

theorem withoutBlanks_of_trivia {u s v : String} (hu : isTrivia u) (hv : isTrivia v)
    (hcomment : ';' ∉ (u ++ s ++ v).toList) : withoutBlanks (u ++ s ++ v) = withoutBlanks s := by
  rw [String.toList_append, String.toList_append, List.mem_append, List.mem_append, not_or,
    not_or] at hcomment
  have hnil {t : String} (ht : isTrivia t) (hcomment : ';' ∉ t.toList) :
      (t.toList.filter fun c ↦ !isBlank c) = [] := by
    rw [List.filter_eq_nil_iff]
    intro c hc
    rw [List.all_eq_true.1 ((isAllBlank_iff ht).2 hcomment) c hc]
    exact Bool.false_ne_true
  rw [withoutBlanks, withoutBlanks, String.toList_append, String.toList_append,
    List.filter_append, List.filter_append, hnil hu hcomment.1.1, hnil hv hcomment.2,
    List.nil_append, List.append_nil]

end Text

namespace Compilation

open SyntaxTree

variable {node node' : SyntaxTree} {ts xs ys : List SyntaxTree} {seen pending : List String}
  {ds : List Definition} {R S : SyntaxTree → SyntaxTree → Prop}

section Padded

/-- A node of white space, which may hold comments. -/
structure IsPadding (t : SyntaxTree) : Prop where
  kind : t.kind = "c_wsp" ∨ t.kind = "c_nl"
  text : Text.isTrivia t.text

theorem IsPadding.kind_ne {t : SyntaxTree} (h : IsPadding t) :
    t.kind ≠ "comment" ∧ t.kind ≠ "rule" := by
  rcases h.kind with h | h
  · rw [h]
    decide
  · rw [h]
    decide

/-- The nodes `ys` are nodes that `R` relates to `xs`, with the padding `ts` put between them. -/
inductive Padded (R : SyntaxTree → SyntaxTree → Prop) :
    List SyntaxTree → List SyntaxTree → List SyntaxTree → Prop
  | nil : Padded R [] [] []
  | same {x y : SyntaxTree} {ts xs ys : List SyntaxTree} :
      R x y → Padded R ts xs ys → Padded R ts (x :: xs) (y :: ys)
  | padding {t : SyntaxTree} {ts xs ys : List SyntaxTree} :
      IsPadding t → Padded R ts xs ys → Padded R (t :: ts) xs (t :: ys)

theorem Padded.mono (h : Padded R ts xs ys) (hRS : ∀ x ∈ xs, ∀ y ∈ ys, R x y → S x y) :
    Padded S ts xs ys := by
  induction h with
  | nil => exact .nil
  | @same x y ts xs ys hxy _ ih =>
    refine .same (hRS x List.mem_cons_self y List.mem_cons_self hxy) (ih fun x hx y hy ↦ ?_)
    exact hRS x (List.mem_cons_of_mem _ hx) y (List.mem_cons_of_mem _ hy)
  | padding ht _ ih =>
    exact .padding ht (ih fun x hx y hy ↦ hRS x hx y (List.mem_cons_of_mem _ hy))

theorem Padded.filter {p : SyntaxTree → Bool} (h : Padded R ts xs ys)
    (hp : ∀ x y, R x y → p y = p x) : Padded R (ts.filter p) (xs.filter p) (ys.filter p) := by
  induction h with
  | nil => exact .nil
  | @same x y ts xs ys hxy _ ih =>
    rw [List.filter_cons, List.filter_cons, hp x y hxy]
    split
    · exact .same hxy ih
    · exact ih
  | @padding t ts xs ys ht _ ih =>
    rw [List.filter_cons, List.filter_cons]
    split
    · exact .padding ht ih
    · exact ih

theorem Padded.isPadding (h : Padded R ts xs ys) : ∀ t ∈ ts, IsPadding t := by
  induction h with
  | nil => exact fun t ht ↦ absurd ht List.not_mem_nil
  | same _ _ ih => exact ih
  | padding ht _ ih => exact List.forall_mem_cons.2 ⟨ht, ih⟩

/-- Padding does not hide the first node of another kind. -/
theorem Padded.find? {kind : String} (h : Padded R ts xs ys) (hR : ∀ x y, R x y → y.kind = x.kind)
    (hwsp : kind ≠ "c_wsp") (hnl : kind ≠ "c_nl") :
    Option.Rel R (xs.find? (·.kind == kind)) (ys.find? (·.kind == kind)) := by
  induction h with
  | nil => exact .none
  | @same x y ts xs ys hxy _ ih =>
    rw [List.find?_cons, List.find?_cons, hR x y hxy]
    split
    · exact .some hxy
    · exact ih
  | @padding t ts xs ys ht _ ih =>
    have hkind : (t.kind == kind) = false := by
      rw [beq_eq_false_iff_ne]
      rcases ht.kind with h | h
      · exact fun heq ↦ hwsp (heq.symm.trans h)
      · exact fun heq ↦ hnl (heq.symm.trans h)
    rw [List.find?_cons, hkind]
    exact ih

/-- The operator `=` with trivia before and after it, in its text as well as among its nodes. -/
structure PadsOperator (o o' : SyntaxTree) : Prop where
  kind : o.kind = "defined_as"
  kind' : o'.kind = o.kind
  named : o'.named = o.named
  sign : Text.withoutBlanks o.text = defines
  text : ∃ before after, Text.isTrivia before ∧ Text.isTrivia after ∧
    o'.text = before ++ defines ++ after
  children : ∃ ts, Padded Eq ts o.children o'.children

/-- A rule with padding between its nodes and around its operator. -/
structure PadsRule (r r' : SyntaxTree) : Prop where
  kind : r.kind = "rule"
  kind' : r'.kind = r.kind
  named : r'.named = r.named
  children : ∃ ts, Padded (fun x y ↦ y = x ∨ PadsOperator x y) ts r.children r'.children

end Padded

section Rule

theorem not_mem_of_rule? {found : Option (String × Expression)}
    (h : (rule? node).result = .ok found) :
    ∀ o ∈ node.child? "defined_as", ';' ∉ o.text.toList := by
  intro o ho hcomment
  have hsign : signOf node = Text.withoutBlanks o.text := by
    rw [signOf, Option.mem_def.1 ho]
    rfl
  have hmark : ';' ∈ (signOf node).toList := by
    rw [hsign, Text.toList_withoutBlanks]
    exact List.mem_filter.2 ⟨hcomment, by decide⟩
  rcases rule?_cases node with ⟨v, hv⟩ | ⟨_, _, -, hadds | hdefines⟩
  · rw [hv] at h
    cases h
  · rw [hadds] at hmark
    exact absurd hmark (by decide)
  · rw [hdefines] at hmark
    exact absurd hmark (by decide)

theorem PadsRule.child? (h : PadsRule node node') {kind : String} (hwsp : kind ≠ "c_wsp")
    (hnl : kind ≠ "c_nl") :
    Option.Rel (fun x y ↦ y = x ∨ PadsOperator x y) (node.child? kind) (node'.child? kind) := by
  obtain ⟨ts, hpadded⟩ := h.children
  refine hpadded.find? (fun x y hxy ↦ ?_) hwsp hnl
  rcases hxy with rfl | hxy
  · rfl
  · exact hxy.kind'

theorem PadsRule.child?_eq (h : PadsRule node node') {kind : String} (hwsp : kind ≠ "c_wsp")
    (hnl : kind ≠ "c_nl") (hoperator : kind ≠ "defined_as") :
    node'.child? kind = node.child? kind := by
  have hchild := h.child? hwsp hnl
  generalize hx : node.child? kind = x at hchild ⊢
  generalize node'.child? kind = y at hchild ⊢
  cases hchild with
  | none => rfl
  | some hxy =>
    rcases hxy with rfl | hxy
    · rfl
    · have hkind := List.find?_some hx
      rw [beq_iff_eq] at hkind
      exact absurd (hkind.symm.trans hxy.kind) hoperator

theorem PadsRule.isRule (h : PadsRule node node') {nameNode elements : SyntaxTree}
    (hrule : IsRule node nameNode elements) : IsRule node' nameNode elements where
  name := by rw [h.child?_eq (by decide) (by decide) (by decide), hrule.name]
  nonblank := hrule.nonblank
  elements := by rw [h.child?_eq (by decide) (by decide) (by decide), hrule.elements]

/-- Without a comment in it, the operator of a padded rule is the operator of the rule. -/
theorem PadsRule.operator (h : PadsRule node node')
    (hcomment : ∀ o ∈ node'.child? "defined_as", ';' ∉ o.text.toList) :
    node'.child? "defined_as" = node.child? "defined_as" ∨
      (signOf node = defines ∧ signOf node' = defines) := by
  have hchild := h.child? (show "defined_as" ≠ "c_wsp" by decide) (by decide)
  unfold signOf
  generalize node.child? "defined_as" = x at hchild ⊢
  generalize node'.child? "defined_as" = y at hchild hcomment ⊢
  cases hchild with
  | none => exact Or.inl rfl
  | @some o o' hpads =>
    rcases hpads with rfl | hpads
    · exact Or.inl rfl
    · obtain ⟨before, after, hbefore, hafter, htext⟩ := hpads.text
      have hnone := hcomment o' rfl
      rw [htext] at hnone
      refine Or.inr ⟨hpads.sign, ?_⟩
      rw [Option.map_some, Option.getD_some, htext,
        Text.withoutBlanks_of_trivia hbefore hafter hnone]
      decide

/-- What comes of a rule is the same with blanks between its nodes and around its operator. -/
theorem PadsRule.rule?_eq (h : PadsRule node node') {found : Option (String × Expression)}
    (hok : (rule? node).result = .ok found)
    (hcomment : ∀ o ∈ node'.child? "defined_as", ';' ∉ o.text.toList) :
    rule? node' = rule? node := by
  rcases rule?_cases node with ⟨v, hv⟩ | ⟨nameNode, elements, hrule, hsign⟩
  · rw [hv] at hok
    cases hok
  · have hrule' := h.isRule hrule
    rcases h.operator hcomment with hsame | ⟨hdefines, hdefines'⟩
    · have hsign' : signOf node' = signOf node := by rw [signOf, signOf, hsame]
      rcases hsign with hadds | hdefines
      · -- The record is about the operator, which is the same node in both rules.
        obtain ⟨o, ho⟩ := exists_operator hadds
        rw [rule?_of_adds hrule' (hsign'.trans hadds), rule?_of_adds hrule hadds, hsame, ho]
        rfl
      · rw [rule?_of_defines hrule' (hsign'.trans hdefines), rule?_of_defines hrule hdefines]
    · rw [rule?_of_defines hrule' hdefines', rule?_of_defines hrule hdefines]

end Rule

section Rules

/-- Nodes that a list of rules makes the same use of. -/
def SameRule (x y : SyntaxTree) : Prop :=
  y = x ∨ (x.kind = "rule" ∧ y.kind = "rule" ∧ rule? y = rule? x)

theorem SameRule.records (h : SameRule node node') : records node' = records node := by
  rcases h with rfl | ⟨hkind, hkind', hrule⟩
  · rfl
  · rw [records_rule hkind', records_rule hkind, hrule]

theorem IsPadding.records {t : SyntaxTree} (h : IsPadding t) :
    records t = if Text.isAllBlank t.text then [] else [.of t .kind] := by
  rw [Compilation.records, if_neg h.kind_ne.1, if_neg h.kind_ne.2]

/-- The padding adds its own records, and no others. -/
theorem Padded.length_records (h : Padded SameRule ts xs ys) :
    (ys.flatMap records).length = (xs.flatMap records).length + (ts.flatMap records).length := by
  induction h with
  | nil => rfl
  | same hxy _ ih =>
    rw [List.flatMap_cons, List.flatMap_cons, hxy.records, List.length_append, List.length_append,
      ih, Nat.add_assoc]
  | padding _ _ ih =>
    rw [List.flatMap_cons, List.flatMap_cons, List.length_append, List.length_append, ih]
    omega

/-- Where the padding is blank, the rules come to the same, if they come to anything. -/
theorem Padded.definitionsFrom_eq (h : Padded SameRule ts xs ys)
    (hblank : ∀ t ∈ ts, Text.isAllBlank t.text)
    (hok : (definitionsFrom seen pending xs).result = .ok ds) :
    definitionsFrom seen pending ys = definitionsFrom seen pending xs := by
  induction h generalizing seen pending ds with
  | nil => rfl
  | @padding t ts xs ys ht _ ih =>
    rw [List.forall_mem_cons] at hblank
    rw [definitionsFrom_other ht.kind_ne.1 ht.kind_ne.2, hblank.1, Traced.bind_ok rfl,
      ih hblank.2 hok]
    rfl
  | @same x y ts xs ys hxy _ ih =>
    by_cases hrule : x.kind = "rule"
    · have hsame : y.kind = "rule" ∧ rule? y = rule? x := by
        rcases hxy with rfl | ⟨-, hkind, heq⟩
        · exact ⟨hrule, rfl⟩
        · exact ⟨hkind, heq⟩
      rw [definitionsFrom_rule hrule] at hok ⊢
      rw [definitionsFrom_rule hsame.1, hsame.2]
      obtain ⟨found, hfound, hok⟩ := Traced.result_bind_eq_ok.1 hok
      rw [Traced.bind_ok hfound, Traced.bind_ok hfound]
      match found with
      | none =>
        simp only at hok ⊢
        rw [ih hblank hok]
      | some (name, body) =>
        -- A rule that is defined twice is reported with its node, and the nodes may differ.
        simp only at hok ⊢
        split at hok
        · cases hok
        · next hseen =>
          rw [map_eq_pure_bind] at hok
          obtain ⟨rest, hrest, -⟩ := Traced.result_bind_eq_ok.1 hok
          rw [if_neg hseen, if_neg hseen, ih hblank hrest]
    · obtain rfl : y = x := hxy.resolve_right fun h ↦ hrule h.1
      by_cases hcomment : y.kind = "comment"
      · rw [definitionsFrom_comment hcomment] at hok
        rw [definitionsFrom_comment hcomment, definitionsFrom_comment hcomment, ih hblank hok]
      · rw [definitionsFrom_other hcomment hrule] at hok
        obtain ⟨_, -, hok⟩ := Traced.result_bind_eq_ok.1 hok
        rw [definitionsFrom_other hcomment hrule, definitionsFrom_other hcomment hrule,
          ih hblank hok]

end Rules

section Whole

variable {root root' list list' : SyntaxTree} {withCore : Bool}

theorem definitions_congr (h : (rulelist root).result = .ok list)
    (h' : (rulelist root').result = .ok list')
    (hrules : definitionsFrom [] [] list'.namedChildren
      = definitionsFrom [] [] list.namedChildren) :
    definitions root' withCore = definitions root withCore := by
  have hsame : rules root' withCore = rules root withCore := by
    unfold rules
    rw [Traced.bind_ok h, Traced.bind_ok h', trace_rulelist, trace_rulelist, hrules]
  unfold definitions
  rw [hsame]

/-- Padding in a list of rules leaves the definitions and the records as they are, exactly if no
comment is in the padding among the rules nor in the operator of a rule. -/
theorem definitions_padded_iff (h : (rulelist root).result = .ok list)
    (h' : (rulelist root').result = .ok list')
    (hpads : Padded (fun x y ↦ y = x ∨ PadsRule x y) ts list.children list'.children)
    (hok : (definitions root withCore).result = .ok ds) :
    ((definitions root' withCore).result = .ok ds ∧
      unsupported (definitions root' withCore).trace
        = unsupported (definitions root withCore).trace) ↔
    (∀ t ∈ ts, t.named → ';' ∉ t.text.toList) ∧
      ∀ r ∈ list'.namedChildren, r.kind = "rule" →
        ∀ o ∈ r.child? "defined_as", ';' ∉ o.text.toList := by
  obtain ⟨_, own, hlist, hown, -, htrace⟩ := definitions_eq_ok hok
  cases h.symm.trans hlist
  have hcollected := collected_of_definitionsFrom hown
  have hnamed : Padded (fun x y ↦ y = x ∨ PadsRule x y) (ts.filter named) list.namedChildren
      list'.namedChildren := by
    refine hpads.filter fun x y hxy ↦ ?_
    rcases hxy with rfl | hxy
    · rfl
    · exact hxy.named
  have hsame (hoperators : ∀ r ∈ list'.namedChildren, r.kind = "rule" →
      ∀ o ∈ r.child? "defined_as", ';' ∉ o.text.toList) :
      Padded SameRule (ts.filter named) list.namedChildren list'.namedChildren := by
    refine hnamed.mono fun x hx y hy hxy ↦ ?_
    rcases hxy with rfl | hxy
    · exact Or.inl rfl
    · have hkind := hxy.kind'.trans hxy.kind
      obtain ⟨found, hfound⟩ := hcollected.rule?_eq_ok x hx hxy.kind
      exact Or.inr ⟨hxy.kind, hkind, hxy.rule?_eq hfound (hoperators y hy hkind)⟩
  constructor
  · rintro ⟨hok', hrecords⟩
    obtain ⟨_, own', hlist', hown', -, htrace'⟩ := definitions_eq_ok hok'
    cases h'.symm.trans hlist'
    have hcollected' := collected_of_definitionsFrom hown'
    have hoperators : ∀ r ∈ list'.namedChildren, r.kind = "rule" →
        ∀ o ∈ r.child? "defined_as", ';' ∉ o.text.toList := by
      intro r hr hkind
      obtain ⟨found, hfound⟩ := hcollected'.rule?_eq_ok r hr hkind
      exact not_mem_of_rule? hfound
    rw [htrace, htrace', hcollected.unsupported_eq, hcollected'.unsupported_eq] at hrecords
    have hlength := (hsame hoperators).length_records
    rw [hrecords, Nat.left_eq_add, List.length_eq_zero_iff, List.flatMap_eq_nil_iff] at hlength
    refine ⟨fun t ht hname ↦ ?_, hoperators⟩
    have hpadding := hpads.isPadding t ht
    have hnone := hlength t (List.mem_filter.2 ⟨ht, hname⟩)
    rw [hpadding.records] at hnone
    split at hnone
    · next hblank => exact (Text.isAllBlank_iff hpadding.text).1 hblank
    · cases hnone
  · rintro ⟨hcomments, hoperators⟩
    have hblank : ∀ t ∈ ts.filter named, Text.isAllBlank t.text := by
      intro t ht
      obtain ⟨ht, hname⟩ := List.mem_filter.1 ht
      exact (Text.isAllBlank_iff (hpads.isPadding t ht).text).2 (hcomments t ht hname)
    have hrules := (hsame hoperators).definitionsFrom_eq hblank hown
    rw [definitions_congr h h' hrules]
    exact ⟨hok, rfl⟩

end Whole

section Instances

def startBody : SyntaxTree := .branch "elements" [.branch "element" [.leaf "rulename" "x"]]

def plainOperator : SyntaxTree := .branch "defined_as" [.token "=" "="]

def plainRule : SyntaxTree := .branch "rule" [.leaf "rulename" "start", plainOperator, startBody]

def plainTree : SyntaxTree := .branch "rulelist" [plainRule]

def spacedOperator (around : String) : SyntaxTree :=
  .branch "defined_as" [.leaf "c_wsp" around, .token "=" "="]

def spacedRule (within around : String) : SyntaxTree :=
  .branch "rule"
    [.leaf "rulename" "start", .leaf "c_wsp" within, spacedOperator around, startBody]

/-- The plain tree with trivia before the rule, in the rule and before its operator. -/
def spacedTree (among within around : String) : SyntaxTree :=
  .branch "rulelist" [.leaf "c_nl" among, spacedRule within around]

theorem padded_spacedTree (among within around : String) (hamong : Text.isTrivia among)
    (hwithin : Text.isTrivia within) (haround : Text.isTrivia around) :
    Padded (fun x y ↦ y = x ∨ PadsRule x y) [.leaf "c_nl" among] plainTree.children
      (spacedTree among within around).children := by
  have hoperator : PadsOperator plainOperator (spacedOperator around) := by
    refine ⟨rfl, rfl, rfl, by decide, ⟨around, "", haround, rfl, ?_⟩, ?_⟩
    · simp [spacedOperator, branch, leaf, token, defines]
    · exact ⟨_, .padding ⟨Or.inl rfl, haround⟩ (.same rfl .nil)⟩
  have hrule : PadsRule plainRule (spacedRule within around) := by
    have hrest : Padded (fun x y ↦ y = x ∨ PadsOperator x y) [] [plainOperator, startBody]
        [spacedOperator around, startBody] := .same (Or.inr hoperator) (.same (Or.inl rfl) .nil)
    exact ⟨rfl, rfl, rfl, _, .same (Or.inl rfl) (.padding ⟨Or.inl rfl, hwithin⟩ hrest)⟩
  exact .padding ⟨Or.inr rfl, hamong⟩ (.same (Or.inr hrule) .nil)

def plainDefinitions : List Definition := [⟨"start", .reference "x", [], false⟩]

/-- A comment inside a rule does no harm unless it is in the operator. -/
theorem definitions_spacedTree :
    (definitions (spacedTree "\r\n" " ; the start\n" "\n ") false).result = .ok plainDefinitions ∧
    unsupported (definitions (spacedTree "\r\n" " ; the start\n" "\n ") false).trace
      = unsupported (definitions plainTree false).trace := by
  have hplain : (definitions plainTree false).result = .ok plainDefinitions := rfl
  have hpadded := padded_spacedTree "\r\n" " ; the start\n" "\n " (by decide) (by decide)
    (by decide)
  refine (definitions_padded_iff rfl rfl hpadded hplain).2 ⟨?_, ?_⟩
  · decide
  · decide

/-- With a comment before it the operator is no operator any more, and with a comment before the
rule there is a record. -/
theorem definitions_notedTree :
    (definitions plainTree false).result = .ok plainDefinitions ∧
    unsupported (definitions plainTree false).trace = [] ∧
    Padded (fun x y ↦ y = x ∨ PadsRule x y) [.leaf "c_nl" "\n"] plainTree.children
      (spacedTree "\n" " " " ; note\n").children ∧
    (definitions (spacedTree "\n" " " " ; note\n") false).result
      = .error (.violation ⟨.operator ";note=", spacedOperator " ; note\n"⟩) ∧
    Padded (fun x y ↦ y = x ∨ PadsRule x y) [.leaf "c_nl" "; note\n"] plainTree.children
      (spacedTree "; note\n" " " " ").children ∧
    (definitions (spacedTree "; note\n" " " " ") false).result = .ok plainDefinitions ∧
    unsupported (definitions (spacedTree "; note\n" " " " ") false).trace
      = [.of (.leaf "c_nl" "; note\n") .kind] := by
  refine ⟨rfl, rfl, ?_, rfl, ?_, rfl, rfl⟩
  · exact padded_spacedTree _ _ _ (by decide) (by decide) (by decide)
  · exact padded_spacedTree _ _ _ (by decide) (by decide) (by decide)

end Instances

end Compilation

end AbnfCompiler
