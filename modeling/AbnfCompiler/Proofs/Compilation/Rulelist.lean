import Mathlib.Data.List.DropRight
import AbnfCompiler.Proofs.Compilation.Definitions
import AbnfCompiler.Proofs.Compilation.Record

/-!
No rule of a tree is lost. Each rule node is kept, with the comments right before it, or leaves a
record, and so does every other node that is neither a comment nor blank.
-/
namespace AbnfCompiler.Compilation

open SyntaxTree RuleName

variable {node nameNode elements : SyntaxTree} {nodes before : List SyntaxTree} {name : String}
  {body : Expression} {seen pending : List String} {ds : List Definition} {events : List Event}

section Rule

/-- The expression of the body of a rule node, if it has one. -/
def body? (node : SyntaxTree) : Option Expression := do
  let elements ← node.child? "elements"
  (expression? elements).result.toOption.join

/-- A rule node that defines a rule whose body has an expression. -/
def isKept (node : SyntaxTree) : Bool :=
  node.kind == "rule" && signOf node == defines && (body? node).isSome

/-- The comments after the last rule node. -/
def commentsBehind (nodes : List SyntaxTree) : List String :=
  ((nodes.rtakeWhile (·.kind != "rule")).filter (·.kind == "comment")).map
    fun comment ↦ commentText comment.text

/-- What is recorded about a node of a list of rules. -/
def records (node : SyntaxTree) : List Unsupported :=
  if node.kind = "comment" then []
  else if node.kind = "rule" then unsupported (rule? node).trace
  else if Text.isAllBlank node.text then []
  else [.of node .kind]

/-- The definition is that of the rule node, which stands behind some other nodes. -/
structure IsDefinitionOf (d : Definition) (before : List SyntaxTree) (node : SyntaxTree) :
    Prop where
  name : (node.child? "rulename").map (fun n ↦ normal n.text) = some d.name
  body : body? node = some d.body
  comments : d.comments = commentsBehind before
  core : d.core = false

theorem body?_eq (h : IsRule node nameNode elements) :
    body? node = (expression? elements).result.toOption.join := by
  rw [body?, h.elements]
  rfl

theorem body?_of_rule? (h : (rule? node).result = .ok (some (name, body))) :
    body? node = some body := by
  obtain ⟨nameNode, elements, hrule, -, -, hbody, -⟩ := rule?_eq_some h
  rw [body?_eq hrule, hbody]
  rfl

theorem isKept_of_rule? (hkind : node.kind = "rule")
    (h : (rule? node).result = .ok (some (name, body))) : isKept node = true := by
  obtain ⟨nameNode, elements, -, hsign, -⟩ := rule?_eq_some h
  simp [isKept, hkind, hsign, body?_of_rule? h]

theorem isDefinitionOf_of_rule? (h : (rule? node).result = .ok (some (name, body))) :
    IsDefinitionOf ⟨name, body, commentsBehind before, false⟩ before node := by
  obtain ⟨nameNode, elements, hrule, -, hname, -⟩ := rule?_eq_some h
  refine ⟨?_, body?_of_rule? h, rfl, rfl⟩
  rw [hrule.name, hname]
  rfl

theorem not_isKept_of_rule? (h : (rule? node).result = .ok none) : isKept node = false := by
  obtain ⟨nameNode, elements, hrule, ⟨hsign, -⟩ | ⟨-, hbody, -⟩⟩ := rule?_eq_none h
  · have hne : adds ≠ defines := by decide
    simp [isKept, hsign, hne]
  · simp [isKept, body?_eq hrule, hbody, Except.toOption]

theorem records_rule (hkind : node.kind = "rule") :
    records node = unsupported (rule? node).trace := by
  simp [records, hkind]

theorem holds_of_child? {kind : String} {c : SyntaxTree} (h : node.child? kind = some c) :
    node.Holds c :=
  List.mem_of_find?_eq_some h

theorem isAbout_of_mem_records (hkind : node.kind = "rule") {found : Option (String × Expression)}
    (h : (rule? node).result = .ok found) :
    ∀ u ∈ records node, ∃ c, node.Holds c ∧ u.IsAbout c := by
  intro u hu
  rw [records_rule hkind] at hu
  cases found with
  | some row =>
    obtain ⟨nameNode, elements, hrule, -, -, -, htrace⟩ := rule?_eq_some h
    rw [htrace] at hu
    exact ⟨elements, holds_of_child? hrule.elements, isAbout_of_mem_trace elements u hu⟩
  | none =>
    obtain ⟨nameNode, elements, hrule, ⟨hsign, htrace⟩ | ⟨-, -, htrace⟩⟩ := rule?_eq_none h
    · obtain ⟨operator, hoperator⟩ := exists_operator hsign
      rw [htrace, hoperator] at hu
      cases List.mem_singleton.1 hu
      exact ⟨operator, holds_of_child? hoperator, operator, _, .refl, rfl⟩
    · have hskipped : unsupported [.skipped (normal nameNode.text)] = [] := rfl
      rw [htrace, unsupported_append, hskipped, List.append_nil] at hu
      exact ⟨elements, holds_of_child? hrule.elements, isAbout_of_mem_trace elements u hu⟩

theorem records_ne_nil (hfull : ∀ n, node.Contains n → n.kind = "elements" → n.meaningful ≠ [])
    (hkind : node.kind = "rule") (h : (rule? node).result = .ok none) : records node ≠ [] := by
  rw [records_rule hkind]
  obtain ⟨nameNode, elements, hrule, ⟨-, htrace⟩ | ⟨-, hbody, htrace⟩⟩ := rule?_eq_none h
  · rw [htrace]
    exact List.cons_ne_nil _ _
  · have hholds := holds_of_child? hrule.elements
    rw [htrace, unsupported_append]
    exact List.append_ne_nil_of_left_ne_nil
      (unsupported_ne_nil (fun n hn ↦ hfull n (.head hholds hn)) hbody) _

end Rule

section Comments

theorem commentsBehind_comment (h : node.kind = "comment") :
    commentsBehind (before ++ [node]) = commentsBehind before ++ [commentText node.text] := by
  have hrule : (node.kind != "rule") = true := by simp [h]
  rw [commentsBehind, List.rtakeWhile_concat_pos (·.kind != "rule") before node hrule]
  simp [commentsBehind, h]

theorem commentsBehind_rule (h : node.kind = "rule") : commentsBehind (before ++ [node]) = [] := by
  have hrule : ¬ (node.kind != "rule") = true := by simp [h]
  rw [commentsBehind, List.rtakeWhile_concat_neg (·.kind != "rule") before node hrule]
  rfl

theorem commentsBehind_other (hcomment : node.kind ≠ "comment") (hrule : node.kind ≠ "rule") :
    commentsBehind (before ++ [node]) = commentsBehind before := by
  have hrule : (node.kind != "rule") = true := by simp [hrule]
  rw [commentsBehind, List.rtakeWhile_concat_pos (·.kind != "rule") before node hrule]
  simp [commentsBehind, hcomment]

end Comments

section Nodes

/-- Each node with those that stand before it. -/
def withBefore (before : List SyntaxTree) : List SyntaxTree → List (List SyntaxTree × SyntaxTree)
  | [] => []
  | node :: nodes => (before, node) :: withBefore (before ++ [node]) nodes

theorem Collected.definitions (h : Collected seen pending nodes ds events)
    (hpending : pending = commentsBehind before) :
    List.Forall₂ (fun p d ↦ IsDefinitionOf d p.1 p.2)
      ((withBefore before nodes).filter fun p ↦ isKept p.2) ds := by
  induction h generalizing before with
  | nil => exact .nil
  | @comment _ _ node _ _ _ hkind _ ih =>
    have hkept : isKept node = false := by simp [isKept, hkind]
    rw [withBefore, List.filter_cons_of_neg (by simp [hkept])]
    exact ih (by rw [commentsBehind_comment hkind, hpending])
  | leftOut hkind hrule _ ih =>
    rw [withBefore, List.filter_cons_of_neg (by simp [not_isKept_of_rule? hrule])]
    exact ih (commentsBehind_rule hkind).symm
  | kept hkind hrule _ _ ih =>
    rw [withBefore, List.filter_cons_of_pos (by exact isKept_of_rule? hkind hrule), hpending]
    exact .cons (isDefinitionOf_of_rule? hrule) (ih (commentsBehind_rule hkind).symm)
  | @other _ _ node _ _ _ hcomment hkind _ ih =>
    have hkept : isKept node = false := by simp [isKept, hkind]
    rw [withBefore, List.filter_cons_of_neg (by simp [hkept])]
    exact ih (by rw [commentsBehind_other hcomment hkind, hpending])

theorem Collected.unsupported_eq (h : Collected seen pending nodes ds events) :
    unsupported events = nodes.flatMap records := by
  induction h with
  | nil => rfl
  | @comment _ _ node _ _ _ hkind _ ih => simp [ih, records, hkind]
  | leftOut hkind hrule _ ih | kept hkind hrule _ _ ih => simp [ih, records, hkind]
  | @other _ _ node _ _ _ hcomment hkind _ ih =>
    rw [unsupported_append, ih, List.flatMap_cons]
    by_cases hblank : Text.isAllBlank node.text
    · simp [records, hcomment, hkind, hblank]
      rfl
    · simp [records, hcomment, hkind, hblank]
      rfl

theorem Collected.rule?_eq_ok (h : Collected seen pending nodes ds events) :
    ∀ node ∈ nodes, node.kind = "rule" → ∃ found, (rule? node).result = .ok found := by
  induction h with
  | nil => simp
  | comment hkind _ ih => exact List.forall_mem_cons.2 ⟨by simp [hkind], ih⟩
  | leftOut _ hrule _ ih => exact List.forall_mem_cons.2 ⟨fun _ ↦ ⟨_, hrule⟩, ih⟩
  | kept _ hrule _ _ ih => exact List.forall_mem_cons.2 ⟨fun _ ↦ ⟨_, hrule⟩, ih⟩
  | other _ hkind _ ih => exact List.forall_mem_cons.2 ⟨fun h ↦ absurd h hkind, ih⟩

end Nodes

section Whole

variable {root : SyntaxTree} {withCore : Bool}

theorem contains_of_rulelist {list : SyntaxTree} (h : (rulelist root).result = .ok list) :
    root.Contains list := by
  unfold rulelist at h
  split at h
  · cases h
    exact .refl
  · split at h
    · cases h
    · split at h
      · next list' hlists =>
        cases h
        have hmem : list ∈ root.namedChildren.filter (·.kind == "rulelist") := by simp [hlists]
        exact .single (List.mem_of_mem_filter (List.mem_of_mem_filter hmem))
      · cases h

/-- No rule of a tree is lost, and none is doubled. The definitions are those of the rule nodes that
are kept, in their order, and of the core rules whose names are free; a rule node that is left out
has a record about a node in it, and every other node that is no comment and not blank has one. -/
theorem definitions_of_rules (hfull : ∀ n, root.Contains n → n.kind = "elements" → n.meaningful ≠ [])
    (h : (definitions root withCore).result = .ok ds) :
    ∃ list own, (rulelist root).result = .ok list ∧
      List.Forall₂ (fun p d ↦ IsDefinitionOf d p.1 p.2)
        ((withBefore [] list.namedChildren).filter fun p ↦ isKept p.2) own ∧
      ds = own ++ (if withCore then freeCore (own.map Definition.name) CoreRules.bodies else []) ∧
      unsupported (definitions root withCore).trace = list.namedChildren.flatMap records ∧
      (∀ node ∈ list.namedChildren, node.kind = "rule" →
        (∀ u ∈ records node, ∃ c, node.Holds c ∧ u.IsAbout c) ∧
        (isKept node = false → records node ≠ [])) ∧
      (ds.map Definition.name).Nodup ∧ ∀ d ∈ ds, normal d.name = d.name := by
  obtain ⟨list, own, hlist, hown, hds, htrace⟩ := definitions_eq_ok h
  have hcollected := collected_of_definitionsFrom hown
  refine ⟨list, own, hlist, hcollected.definitions rfl, hds, ?_, ?_, nodup_of_definitions h,
    normal_of_definitions h⟩
  · rw [htrace, hcollected.unsupported_eq]
  · intro node hnode hkind
    obtain ⟨found, hfound⟩ := hcollected.rule?_eq_ok node hnode hkind
    refine ⟨isAbout_of_mem_records hkind hfound, fun hkept ↦ ?_⟩
    cases found with
    | some row =>
      rw [isKept_of_rule? hkind hfound] at hkept
      cases hkept
    | none =>
      have hcontains : root.Contains node :=
        (contains_of_rulelist hlist).tail (List.mem_of_mem_filter hnode)
      exact records_ne_nil (fun n hn ↦ hfull n (hcontains.trans hn)) hkind hfound

end Whole

section Instances

def commentedRule (name sign value : String) : SyntaxTree :=
  .branch "rule" [.leaf "rulename" name, .leaf "defined_as" sign,
    .branch "elements" [.branch "element" [.leaf value "x"]]]

/-- The second rule is left out, since prose has no expression. -/
def commentedTree : SyntaxTree :=
  .branch "rulelist" [.leaf "comment" "; one", commentedRule "Rule-A" "=" "rulename",
    .leaf "comment" "; two", commentedRule "rule-b" " = " "prose_val", .leaf "comment" ";; three",
    .leaf "stray" "?", .leaf "comment" "; four", commentedRule "rule-c" "=" "rulename"]

def commentedDefinitions : List Definition :=
  [⟨"Rule_A", .reference "x", ["one"], false⟩,
    ⟨"rule_c", .reference "x", ["three", "four"], false⟩]

theorem definitions_commentedTree :
    List.Forall₂ (fun p d ↦ IsDefinitionOf d p.1 p.2)
      ((withBefore [] commentedTree.namedChildren).filter fun p ↦ isKept p.2)
      commentedDefinitions ∧
    unsupported (definitions commentedTree false).trace
      = [.of (.leaf "prose_val" "x") .kind, .of (.leaf "stray" "?") .kind] := by
  have hfull : ∀ n ∈ commentedTree.nodes, n.kind = "elements" → n.meaningful ≠ [] := by decide
  have hcompiled : (definitions commentedTree false).result = .ok commentedDefinitions := rfl
  obtain ⟨list, own, hlist, hown, hds, htrace, -⟩ :=
    definitions_of_rules (fun n hn ↦ hfull n (mem_nodes_of_contains hn)) hcompiled
  cases hlist
  have hrecords : commentedTree.namedChildren.flatMap records
      = [.of (.leaf "prose_val" "x") .kind, .of (.leaf "stray" "?") .kind] := rfl
  rw [hds, htrace, hrecords]
  simpa using hown

end Instances

end AbnfCompiler.Compilation
