import AbnfCompiler.Compilation.Basic
import AbnfCompiler.Proofs.RuleName

/-!
How the definitions of a syntax tree come about. Their names are in normal form, and no two of them
are the same.
-/
namespace AbnfCompiler

theorem Traced.result_bind_eq_ok {ω ε α β : Type} {x : Traced ω ε α} {f : α → Traced ω ε β}
    {b : β} : (x >>= f).result = .ok b ↔ ∃ a, x.result = .ok a ∧ (f a).result = .ok b := by
  cases hx : x.result with
  | ok a => simp [Traced.bind_ok hx]
  | error e => simp [Traced.bind_error hx]

theorem Traced.result_bind_eq_error {ω ε α β : Type} {x : Traced ω ε α} {f : α → Traced ω ε β}
    {e : ε} : (x >>= f).result = .error e ↔
      x.result = .error e ∨ ∃ a, x.result = .ok a ∧ (f a).result = .error e := by
  cases hx : x.result with
  | ok a => simp [Traced.bind_ok hx]
  | error e' => simp [Traced.bind_error hx]

namespace Compilation

open RuleName

variable {node nameNode elements : SyntaxTree} {nodes : List SyntaxTree} {name : String}
  {body : Expression} {seen pending : List String} {ds : List Definition}

section Rule

/-- The operator between the name and the body of a rule; without one, the rule is defined. -/
def signOf (node : SyntaxTree) : String :=
  ((node.child? "defined_as").map fun o ↦ Text.withoutBlanks o.text).getD defines

/-- Without an operator a rule is defined, so that one that is added to has an operator. -/
theorem exists_operator (h : signOf node = adds) : ∃ o, node.child? "defined_as" = some o := by
  rw [← Option.ne_none_iff_exists']
  intro hnone
  rw [signOf, hnone] at h
  exact absurd h (by decide)

/-- A rule node with a name and a body. -/
structure IsRule (node nameNode elements : SyntaxTree) : Prop where
  name : node.child? "rulename" = some nameNode
  nonblank : Text.isAllBlank nameNode.text = false
  elements : node.child? "elements" = some elements

theorem rule?_of_adds (h : IsRule node nameNode elements) (hsign : signOf node = adds) :
    rule? node = ⟨[.unsupported (.of ((node.child? "defined_as").getD node)
      (.definition (normal nameNode.text)))], .ok none⟩ := by
  unfold signOf at hsign
  unfold rule?
  simp only [h.name, h.nonblank, h.elements, Bool.false_eq_true, ↓reduceIte]
  rw [if_pos hsign]
  rfl

theorem rule?_of_defines (h : IsRule node nameNode elements) (hsign : signOf node = defines) :
    rule? node = expression? elements >>= fun
      | some body => pure (some (normal nameNode.text, body))
      | none => do
        .report (.skipped (normal nameNode.text))
        return none := by
  have hadds : defines ≠ adds := by decide
  unfold signOf at hsign
  unfold rule?
  simp only [h.name, h.nonblank, h.elements, Bool.false_eq_true, ↓reduceIte]
  rw [hsign, if_neg hadds]
  refine (if_neg (not_not_intro rfl)).trans (bind_congr ?_)
  rintro (_ | body) <;> rfl

theorem rule?_of_other (h : IsRule node nameNode elements) (hadds : signOf node ≠ adds)
    (hdefines : signOf node ≠ defines) : rule? node = ⟨[], .error (.violation
      ⟨.operator (signOf node), (node.child? "defined_as").getD node⟩)⟩ := by
  unfold signOf at hadds hdefines ⊢
  unfold rule?
  simp only [h.name, h.nonblank, h.elements, Bool.false_eq_true, ↓reduceIte]
  rw [if_neg hadds, if_pos hdefines]
  rfl

theorem rule?_of_not_isRule (h : ¬ ∃ nameNode elements, IsRule node nameNode elements) :
    ∃ cause, (cause = .noName ∨ cause = .noBody) ∧
      rule? node = ⟨[], .error (.violation ⟨cause, node⟩)⟩ := by
  unfold rule?
  split
  · exact ⟨_, Or.inl rfl, rfl⟩
  · next nameNode hname =>
    split
    · exact ⟨_, Or.inl rfl, rfl⟩
    · next hblank =>
      split
      · exact ⟨_, Or.inr rfl, rfl⟩
      · next elements helements =>
        exact absurd ⟨nameNode, elements, hname, by simpa using hblank, helements⟩ h

/-- Everything that can come of a rule node. -/
theorem rule?_cases (node : SyntaxTree) :
    (∃ v, rule? node = ⟨[], .error (.violation v)⟩) ∨
      ∃ nameNode elements, IsRule node nameNode elements ∧
        (signOf node = adds ∨ signOf node = defines) := by
  by_cases hshape : ∃ nameNode elements, IsRule node nameNode elements
  · obtain ⟨nameNode, elements, h⟩ := hshape
    by_cases hadds : signOf node = adds
    · exact Or.inr ⟨nameNode, elements, h, Or.inl hadds⟩
    · by_cases hdefines : signOf node = defines
      · exact Or.inr ⟨nameNode, elements, h, Or.inr hdefines⟩
      · exact Or.inl ⟨_, rule?_of_other h hadds hdefines⟩
  · obtain ⟨cause, -, hrule⟩ := rule?_of_not_isRule hshape
    exact Or.inl ⟨_, hrule⟩

/-- A rule node is kept if it defines a rule whose body has an expression. -/
theorem rule?_eq_some (h : (rule? node).result = .ok (some (name, body))) :
    ∃ nameNode elements, IsRule node nameNode elements ∧ signOf node = defines ∧
      name = normal nameNode.text ∧ (expression? elements).result = .ok (some body) ∧
      (rule? node).trace = (expression? elements).trace := by
  rcases rule?_cases node with ⟨v, hv⟩ | ⟨nameNode, elements, hrule, hsign | hsign⟩
  · rw [hv] at h
    cases h
  · rw [rule?_of_adds hrule hsign] at h
    cases h
  · rw [rule?_of_defines hrule hsign] at h ⊢
    obtain ⟨found, hfound, h⟩ := Traced.result_bind_eq_ok.1 h
    rw [Traced.bind_ok hfound]
    cases found with
    | none => cases h
    | some body' =>
      cases h
      exact ⟨nameNode, elements, hrule, hsign, rfl, hfound, List.append_nil _⟩

/-- A rule node is left out if it adds to a rule, or if its body has no expression. -/
theorem rule?_eq_none (h : (rule? node).result = .ok none) :
    ∃ nameNode elements, IsRule node nameNode elements ∧
      ((signOf node = adds ∧ (rule? node).trace
          = [.unsupported (.of ((node.child? "defined_as").getD node)
            (.definition (normal nameNode.text)))]) ∨
        (signOf node = defines ∧ (expression? elements).result = .ok none ∧
          (rule? node).trace
            = (expression? elements).trace ++ [.skipped (normal nameNode.text)])) := by
  rcases rule?_cases node with ⟨v, hv⟩ | ⟨nameNode, elements, hrule, hsign | hsign⟩
  · rw [hv] at h
    cases h
  · exact ⟨nameNode, elements, hrule, Or.inl ⟨hsign, by rw [rule?_of_adds hrule hsign]⟩⟩
  · rw [rule?_of_defines hrule hsign] at h ⊢
    obtain ⟨found, hfound, h⟩ := Traced.result_bind_eq_ok.1 h
    rw [Traced.bind_ok hfound]
    cases found with
    | some body => cases h
    | none => exact ⟨nameNode, elements, hrule, Or.inr ⟨hsign, hfound, rfl⟩⟩

end Rule

section Collected

/-- How the definitions among some nodes come about, and what is reported on the way. -/
inductive Collected : List String → List String → List SyntaxTree → List Definition →
    List Event → Prop
  | nil {seen pending : List String} : Collected seen pending [] [] []
  | comment {seen pending : List String} {node : SyntaxTree} {nodes : List SyntaxTree}
      {ds : List Definition} {events : List Event} :
      node.kind = "comment" →
      Collected seen (pending ++ [commentText node.text]) nodes ds events →
      Collected seen pending (node :: nodes) ds events
  | leftOut {seen pending : List String} {node : SyntaxTree} {nodes : List SyntaxTree}
      {ds : List Definition} {events : List Event} :
      node.kind = "rule" → (rule? node).result = .ok none → Collected seen [] nodes ds events →
      Collected seen pending (node :: nodes) ds ((rule? node).trace ++ events)
  | kept {seen pending : List String} {node : SyntaxTree} {nodes : List SyntaxTree}
      {ds : List Definition} {events : List Event} {name : String} {body : Expression} :
      node.kind = "rule" → (rule? node).result = .ok (some (name, body)) → name ∉ seen →
      Collected (name :: seen) [] nodes ds events →
      Collected seen pending (node :: nodes) (⟨name, body, pending, false⟩ :: ds)
        ((rule? node).trace ++ events)
  | other {seen pending : List String} {node : SyntaxTree} {nodes : List SyntaxTree}
      {ds : List Definition} {events : List Event} :
      node.kind ≠ "comment" → node.kind ≠ "rule" → Collected seen pending nodes ds events →
      Collected seen pending (node :: nodes) ds
        ((if !Text.isAllBlank node.text then [.unsupported (.of node .kind)] else []) ++ events)

theorem definitionsFrom_comment (h : node.kind = "comment") :
    definitionsFrom seen pending (node :: nodes)
      = definitionsFrom seen (pending ++ [commentText node.text]) nodes := by
  conv_lhs => unfold definitionsFrom
  rw [if_pos h]

theorem definitionsFrom_rule (h : node.kind = "rule") :
    definitionsFrom seen pending (node :: nodes) = rule? node >>= fun
      | none => definitionsFrom seen [] nodes
      | some (name, body) =>
        if seen.contains name then violation node (.duplicate name)
        else (⟨name, body, pending, false⟩ :: ·) <$> definitionsFrom (name :: seen) [] nodes := by
  have hcomment : node.kind ≠ "comment" := by simp [h]
  conv_lhs => unfold definitionsFrom
  rw [if_neg hcomment, if_pos h]
  apply bind_congr
  rintro (_ | ⟨name, body⟩)
  · rfl
  · simp only [bind_pure_comp]

theorem definitionsFrom_other (hcomment : node.kind ≠ "comment") (hrule : node.kind ≠ "rule") :
    definitionsFrom seen pending (node :: nodes)
      = Traced.reportWhen (!Text.isAllBlank node.text) (.unsupported (.of node .kind))
        >>= fun _ ↦ definitionsFrom seen pending nodes := by
  conv_lhs => unfold definitionsFrom
  rw [if_neg hcomment, if_neg hrule]

theorem collected_of_definitionsFrom (h : (definitionsFrom seen pending nodes).result = .ok ds) :
    Collected seen pending nodes ds (definitionsFrom seen pending nodes).trace := by
  induction nodes generalizing seen pending ds with
  | nil =>
    cases h
    exact .nil
  | cons node nodes ih =>
    by_cases hcomment : node.kind = "comment"
    · rw [definitionsFrom_comment hcomment] at h ⊢
      exact .comment hcomment (ih h)
    by_cases hrule : node.kind = "rule"
    · rw [definitionsFrom_rule hrule] at h ⊢
      obtain ⟨found, hfound, h⟩ := Traced.result_bind_eq_ok.1 h
      rw [Traced.bind_ok hfound]
      match found with
      | none => exact .leftOut hrule hfound (ih h)
      | some (name, body) =>
        simp only at h ⊢
        split at h
        · cases h
        · next hseen =>
          rw [if_neg hseen]
          rw [map_eq_pure_bind] at h ⊢
          obtain ⟨rest, hrest, h⟩ := Traced.result_bind_eq_ok.1 h
          rw [Traced.bind_ok hrest]
          cases h
          rw [Traced.trace_pure, List.append_nil]
          exact .kept hrule hfound (by simpa using hseen) (ih hrest)
    · rw [definitionsFrom_other hcomment hrule] at h ⊢
      obtain ⟨_, hreport, h⟩ := Traced.result_bind_eq_ok.1 h
      rw [Traced.bind_ok hreport]
      exact .other hcomment hrule (ih h)

variable {events : List Event}

theorem Collected.normal (h : Collected seen pending nodes ds events) :
    ∀ d ∈ ds, normal d.name = d.name := by
  induction h with
  | nil => simp
  | comment _ _ ih | leftOut _ _ _ ih | other _ _ _ ih => exact ih
  | kept _ hrule _ _ ih =>
    obtain ⟨nameNode, -, -, -, rfl, -⟩ := rule?_eq_some hrule
    exact List.forall_mem_cons.2 ⟨normal_normal nameNode.text, ih⟩

theorem Collected.nodup (h : Collected seen pending nodes ds events) :
    (ds.map Definition.name).Nodup ∧ ∀ d ∈ ds, d.name ∉ seen := by
  induction h with
  | nil => simp
  | comment _ _ ih | leftOut _ _ _ ih | other _ _ _ ih => exact ih
  | kept _ _ hseen _ ih =>
    obtain ⟨hnodup, hnew⟩ := ih
    refine ⟨List.nodup_cons.2 ⟨?_, hnodup⟩, List.forall_mem_cons.2 ⟨hseen, ?_⟩⟩
    · intro hmem
      obtain ⟨d, hd, hname⟩ := List.mem_map.1 hmem
      exact hnew d hd (List.mem_cons.2 (Or.inl hname))
    · exact fun d hd hmem ↦ hnew d hd (List.mem_cons_of_mem _ hmem)

end Collected

section Fault

variable {f : Failure}

/-- The failure of a node, given the names that were defined before it. -/
def fault? (seen : List String) (node : SyntaxTree) : Option Failure :=
  if node.kind = "rule" then
    match (rule? node).result with
    | .error f => some f
    | .ok none => none
    | .ok (some (name, _)) =>
      if seen.contains name then some (.violation ⟨.duplicate name, node⟩) else none
  else none

theorem fault?_eq_some : fault? seen node = some f ↔ node.kind = "rule" ∧
    ((rule? node).result = .error f ∨ ∃ name body, (rule? node).result = .ok (some (name, body)) ∧
      name ∈ seen ∧ f = .violation ⟨.duplicate name, node⟩) := by
  unfold fault?
  split
  · next hkind =>
    simp only [hkind, true_and]
    match hrule : (rule? node).result with
    | .error f' => simp
    | .ok none => simp
    | .ok (some (name, body)) =>
      by_cases hseen : name ∈ seen
      · simp [hseen, eq_comm]
      · simp [hseen]
  · next hkind => simp [hkind]

theorem fault?_congr {seen' : List String} (h : ∀ name, name ∈ seen ↔ name ∈ seen')
    (node : SyntaxTree) : fault? seen node = fault? seen' node := by
  ext f
  simp only [fault?_eq_some, h]

/-- What a node does among others: the compilation goes on behind it, or it ends with it. -/
theorem definitionsFrom_cons (seen pending : List String) (node : SyntaxTree) :
    (fault? seen node = none ∧ ∃ seen' pending' found,
      (∀ name, name ∈ seen' ↔ name ∈ seen ∨ name ∈ found.map Definition.name) ∧
        ∀ nodes, (definitionsFrom seen pending (node :: nodes)).result
          = (found ++ ·) <$> (definitionsFrom seen' pending' nodes).result) ∨
    ∃ f, fault? seen node = some f ∧
      ∀ nodes, (definitionsFrom seen pending (node :: nodes)).result = .error f := by
  have hnil (x : Except Failure (List Definition)) : x = ([] ++ ·) <$> x := (id_map x).symm
  by_cases hrule : node.kind = "rule"
  · simp only [definitionsFrom_rule hrule, fault?, hrule, ↓reduceIte]
    match hfound : (rule? node).result with
    | .error f => exact Or.inr ⟨f, rfl, fun nodes ↦ by rw [Traced.bind_error hfound]⟩
    | .ok none =>
      refine Or.inl ⟨rfl, seen, [], [], by simp, fun nodes ↦ ?_⟩
      rw [Traced.bind_ok hfound]
      exact hnil _
    | .ok (some (name, body)) =>
      by_cases hseen : seen.contains name
      · refine Or.inr ⟨.violation ⟨.duplicate name, node⟩, if_pos hseen, fun nodes ↦ ?_⟩
        rw [Traced.bind_ok hfound]
        simp only [if_pos hseen]
        rfl
      · refine Or.inl ⟨if_neg hseen, name :: seen, [], [⟨name, body, pending, false⟩], ?_, ?_⟩
        · simp [or_comm]
        · intro nodes
          rw [Traced.bind_ok hfound]
          simp only [if_neg hseen, Traced.result_map]
          rfl
  · have hnone : fault? seen node = none := if_neg hrule
    by_cases hcomment : node.kind = "comment"
    · refine Or.inl ⟨hnone, seen, pending ++ [commentText node.text], [], by simp, fun nodes ↦ ?_⟩
      rw [definitionsFrom_comment hcomment]
      exact hnil _
    · refine Or.inl ⟨hnone, seen, pending, [], by simp, fun nodes ↦ ?_⟩
      rw [definitionsFrom_other hcomment hrule]
      exact hnil _

/-- Nodes fail with the first of them that does. -/
theorem definitionsFrom_eq_error : (definitionsFrom seen pending nodes).result = .error f ↔
    ∃ before node after ds, nodes = before ++ node :: after ∧
      (definitionsFrom seen pending before).result = .ok ds ∧
        fault? (seen ++ ds.map Definition.name) node = some f := by
  -- A node changes what has been seen when the next one comes, so both are kept general.
  induction nodes generalizing seen pending with
  | nil =>
    refine iff_of_false nofun ?_
    rintro ⟨before, node, after, ds, hnodes, -⟩
    simp at hnodes
  | cons b nodes ih =>
    simp only [List.cons_eq_append_iff]
    rcases definitionsFrom_cons seen pending b with
      ⟨hb, seen', pending', found, hseen, hcons⟩ | ⟨f', hb, hcons⟩
    · have hfault (ds : List Definition) (node : SyntaxTree) :
          fault? (seen' ++ ds.map Definition.name) node
            = fault? (seen ++ (found ++ ds).map Definition.name) node :=
        fault?_congr (by simp [hseen, or_assoc]) node
      have hbehind : (definitionsFrom seen pending (b :: nodes)).result = .error f ↔
          (definitionsFrom seen' pending' nodes).result = .error f := by
        rw [hcons]
        cases (definitionsFrom seen' pending' nodes).result <;> simp
      rw [hbehind, ih]
      constructor
      · rintro ⟨before, node, after, ds, hnodes, hds, hnode⟩
        refine ⟨b :: before, node, after, found ++ ds, Or.inr ⟨before, rfl, hnodes⟩, ?_,
          (hfault ds node).symm.trans hnode⟩
        rw [hcons, hds]
        rfl
      · rintro ⟨before, node, after, ds, ⟨rfl, hnode'⟩ | ⟨before', rfl, hnodes⟩, hds, hnode⟩
        · cases hnode'
          cases hds
          rw [List.map_nil, List.append_nil, hb] at hnode
          cases hnode
        · rw [hcons] at hds
          cases hrest : (definitionsFrom seen' pending' before').result with
          | error f' =>
            rw [hrest] at hds
            cases hds
          | ok rest =>
            rw [hrest] at hds
            cases hds
            exact ⟨before', node, after, rest, hnodes, hrest, (hfault rest node).trans hnode⟩
    · rw [hcons]
      constructor
      · intro h
        cases h
        exact ⟨[], b, nodes, [], Or.inl ⟨rfl, rfl⟩, rfl, by simpa using hb⟩
      · rintro ⟨before, node, after, ds, ⟨rfl, hnode'⟩ | ⟨before', rfl, -⟩, hds, hnode⟩
        · cases hnode'
          cases hds
          rw [List.map_nil, List.append_nil, hb] at hnode
          cases hnode
          rfl
        · rw [hcons] at hds
          cases hds

end Fault

section Core

/-- The core rules whose names are not taken. -/
def freeCore (taken : List String) (rules : List (String × Expression)) : List Definition :=
  (rules.filter fun r ↦ !taken.contains r.1).map fun r ↦ ⟨r.1, r.2, [], true⟩

theorem coreFrom_eq (taken : List String) (rules : List (String × Expression)) :
    (coreFrom taken rules).result = .ok (freeCore taken rules) ∧
      unsupported (coreFrom taken rules).trace = [] := by
  induction rules with
  | nil => exact ⟨rfl, rfl⟩
  | cons rule rules ih =>
    obtain ⟨name, body⟩ := rule
    obtain ⟨hresult, htrace⟩ := ih
    unfold coreFrom freeCore
    by_cases htaken : taken.contains name
    · rw [if_pos htaken, Traced.bind_ok rfl, List.filter_cons_of_neg (by simpa using htaken)]
      exact ⟨hresult, htrace⟩
    · rw [if_neg htaken, Traced.bind_ok hresult, List.filter_cons_of_pos (by simpa using htaken)]
      refine ⟨rfl, ?_⟩
      rw [Traced.trace_pure, List.append_nil]
      exact htrace

theorem nodup_append_freeCore {taken : List String} (h : taken.Nodup) :
    (taken ++ (freeCore taken CoreRules.bodies).map Definition.name).Nodup := by
  have hcore : (CoreRules.bodies.map Prod.fst).Nodup := by decide
  have hnames : (freeCore taken CoreRules.bodies).map Definition.name
      = (CoreRules.bodies.map Prod.fst).filter fun n ↦ !taken.contains n := by
    rw [freeCore, List.map_map, List.filter_map]
    rfl
  rw [hnames, List.nodup_append]
  refine ⟨h, hcore.filter _, fun a ha b hb hab ↦ ?_⟩
  rw [List.mem_filter] at hb
  simp [← hab, ha] at hb

theorem normal_of_mem_freeCore {taken : List String} {d : Definition}
    (h : d ∈ freeCore taken CoreRules.bodies) : normal d.name = d.name := by
  have hcore : ∀ r ∈ CoreRules.bodies, normal r.1 = r.1 := by decide
  obtain ⟨r, hr, rfl⟩ := List.mem_map.1 h
  exact hcore r (List.mem_of_mem_filter hr)

end Core

section Whole

variable {root : SyntaxTree} {withCore : Bool}

theorem trace_rulelist (root : SyntaxTree) : (rulelist root).trace = [] := by
  unfold rulelist
  split
  · rfl
  · split
    · rfl
    · split <;> rfl

theorem rules_eq_ok (h : (rules root withCore).result = .ok ds) :
    ∃ list own, (rulelist root).result = .ok list ∧
      (definitionsFrom [] [] list.namedChildren).result = .ok own ∧
      ds = own ++ (if withCore then freeCore (own.map Definition.name) CoreRules.bodies else []) ∧
      unsupported (rules root withCore).trace
        = unsupported (definitionsFrom [] [] list.namedChildren).trace := by
  obtain ⟨list, hlist, hrest⟩ := Traced.result_bind_eq_ok.1 h
  obtain ⟨own, hown, -⟩ := Traced.result_bind_eq_ok.1 hrest
  let added : Compiling (List Definition) :=
    if withCore then coreFrom (own.map Definition.name) CoreRules.bodies else pure []
  obtain ⟨hadded, htrace⟩ : added.result = .ok
      (if withCore then freeCore (own.map Definition.name) CoreRules.bodies else []) ∧
      unsupported added.trace = [] := by
    cases withCore with
    | false => exact ⟨rfl, rfl⟩
    | true => exact coreFrom_eq (own.map Definition.name) CoreRules.bodies
  have hrules : rules root withCore = ⟨(rulelist root).trace
      ++ ((definitionsFrom [] [] list.namedChildren).trace
        ++ (added >>= fun core ↦ pure (own ++ core)).trace),
      (added >>= fun core ↦ pure (own ++ core)).result⟩ := by
    unfold rules
    rw [Traced.bind_ok hlist, Traced.bind_ok hown]
    cases withCore <;> rfl
  rw [hrules, Traced.bind_ok hadded] at h ⊢
  cases h
  refine ⟨list, own, hlist, hown, rfl, ?_⟩
  simp only [unsupported_append, Traced.trace_pure, List.append_nil, htrace, trace_rulelist]
  rfl

/-- The definitions of a tree are those of its rules, and the core rules that are added. -/
theorem definitions_eq_ok (h : (definitions root withCore).result = .ok ds) :
    ∃ list own, (rulelist root).result = .ok list ∧
      (definitionsFrom [] [] list.namedChildren).result = .ok own ∧
      ds = own ++ (if withCore then freeCore (own.map Definition.name) CoreRules.bodies else []) ∧
      unsupported (definitions root withCore).trace
        = unsupported (definitionsFrom [] [] list.namedChildren).trace := by
  have hfound : definitions root withCore = rules root withCore >>= fun ds ↦ do
    .report (.compiled ds.length (unsupported (rules root withCore).trace).length)
    return ds := rfl
  rw [hfound] at h ⊢
  obtain ⟨found, hrules, h⟩ := Traced.result_bind_eq_ok.1 h
  rw [Traced.bind_ok hrules, unsupported_append]
  cases h
  obtain ⟨list, own, hlist, hown, hds, htrace⟩ := rules_eq_ok hrules
  exact ⟨list, own, hlist, hown, hds, by rw [← htrace]; exact List.append_nil _⟩

/-- The definitions of a tree fail if its list of rules is missing, or with the rules in it. -/
theorem definitions_eq_error {f : Failure} : (definitions root withCore).result = .error f ↔
    (rulelist root).result = .error f ∨ ∃ list, (rulelist root).result = .ok list ∧
      (definitionsFrom [] [] list.namedChildren).result = .error f := by
  have hrules : (definitions root withCore).result = .error f ↔
      (rules root withCore).result = .error f := by
    unfold definitions
    rw [Traced.result_bind_eq_error, or_iff_left]
    rintro ⟨ds, -, h⟩
    cases h
  rw [hrules]
  unfold rules
  rw [Traced.result_bind_eq_error]
  refine or_congr_right (exists_congr fun list ↦ and_congr_right fun _ ↦ ?_)
  rw [Traced.result_bind_eq_error, or_iff_left]
  -- Core rules are added without fail.
  rintro ⟨own, -, h⟩
  cases withCore with
  | false => cases h
  | true =>
    rcases Traced.result_bind_eq_error.1 h with h | ⟨core, -, h⟩
    · cases (coreFrom_eq _ _).1.symm.trans h
    · cases h

theorem normal_of_definitions (h : (definitions root withCore).result = .ok ds) :
    ∀ d ∈ ds, normal d.name = d.name := by
  obtain ⟨list, own, -, hown, rfl, -⟩ := definitions_eq_ok h
  refine List.forall_mem_append.2 ⟨(collected_of_definitionsFrom hown).normal, ?_⟩
  split
  · exact fun d hd ↦ normal_of_mem_freeCore hd
  · simp

theorem nodup_of_definitions (h : (definitions root withCore).result = .ok ds) :
    (ds.map Definition.name).Nodup := by
  obtain ⟨list, own, -, hown, rfl, -⟩ := definitions_eq_ok h
  have hnodup := (collected_of_definitionsFrom hown).nodup.1
  rw [List.map_append]
  split
  · exact nodup_append_freeCore hnodup
  · simpa using hnodup

end Whole

end Compilation

end AbnfCompiler
