import Mathlib.Data.List.Nodup
import AbnfCompiler.Proofs.Compilation.Failure
import AbnfCompiler.Proofs.Compilation.Rulelist

/-!
Rules that are defined twice. Two rules of one name do not compile, unless the body of one of them
comes to nothing: such a rule is left out before its name counts. Nothing else is a duplicate.
-/
namespace AbnfCompiler.Compilation

open RuleName

variable {root list node first second : SyntaxTree} {nodes : List SyntaxTree} {name : String}
  {seen pending : List String} {ds : List Definition} {events : List Event} {withCore : Bool}

section Kept

/-- A rule node that defines a name, with any body. -/
structure DefinesRule (node : SyntaxTree) (name : String) : Prop where
  kind : node.kind = "rule"
  sign : signOf node = defines
  name : ∃ nameNode, node.child? "rulename" = some nameNode ∧ normal nameNode.text = name

/-- The body of a rule node compiles, but has no expression. -/
def DropsBody (node : SyntaxTree) : Prop :=
  ∃ elements, node.child? "elements" = some elements ∧ (expression? elements).result = .ok none

/-- The name of a rule node that becomes a definition. -/
def keptName? (node : SyntaxTree) : Option String :=
  if node.kind = "rule" then
    match (rule? node).result with
    | .ok (some (name, _)) => some name
    | _ => none
  else none

theorem keptName?_of_ne (h : node.kind ≠ "rule") : keptName? node = none := if_neg h

theorem keptName?_of_none (h : (rule? node).result = .ok none) : keptName? node = none := by
  unfold keptName?
  rw [h]
  exact ite_self none

theorem keptName?_eq_some : keptName? node = some name ↔
    node.kind = "rule" ∧ ∃ body, (rule? node).result = .ok (some (name, body)) := by
  unfold keptName?
  split
  · next hkind =>
    split
    · next name' body hbody => simp [hkind, hbody]
    · next hnone =>
      refine iff_of_false nofun ?_
      rintro ⟨-, body, hbody⟩
      exact hnone name body hbody
  · next hkind => simp [hkind]

theorem definesRule_of_keptName? (h : keptName? node = some name) :
    DefinesRule node name ∧ ¬ DropsBody node := by
  obtain ⟨hkind, body, hbody⟩ := keptName?_eq_some.1 h
  obtain ⟨nameNode, elements, hrule, hsign, hname, hbody, -⟩ := rule?_eq_some hbody
  refine ⟨⟨hkind, hsign, nameNode, hrule.name, hname.symm⟩, ?_⟩
  rintro ⟨elements', helements, hnone⟩
  rw [hrule.elements] at helements
  cases helements
  rw [hbody] at hnone
  cases hnone

/-- A rule that compiles is kept with the name that it defines, unless it drops its body. -/
theorem DefinesRule.keptName? (h : DefinesRule node name) (hbody : ¬ DropsBody node)
    {found : Option (String × Expression)} (hfound : (rule? node).result = .ok found) :
    keptName? node = some name := by
  match found with
  | none =>
    obtain ⟨nameNode, elements, hrule, ⟨hadds, -⟩ | ⟨-, hnone, -⟩⟩ := rule?_eq_none hfound
    · exact absurd (hadds.symm.trans h.sign) (by decide)
    · exact absurd ⟨elements, hrule.elements, hnone⟩ hbody
  | some (name', body) =>
    obtain ⟨nameNode, elements, hrule, -, rfl, -⟩ := rule?_eq_some hfound
    obtain ⟨nameNode', hnameNode, rfl⟩ := h.name
    rw [hrule.name] at hnameNode
    cases hnameNode
    exact keptName?_eq_some.2 ⟨h.kind, body, hfound⟩

theorem Collected.map_name (h : Collected seen pending nodes ds events) :
    ds.map Definition.name = nodes.filterMap Compilation.keptName? := by
  induction h with
  | nil => rfl
  | comment hcomment _ ih =>
    rw [List.filterMap_cons_none (keptName?_of_ne (by simp [hcomment])), ih]
  | leftOut _ hfound _ ih => rw [List.filterMap_cons_none (keptName?_of_none hfound), ih]
  | kept hrule hfound _ _ ih =>
    rw [List.filterMap_cons_some (keptName?_eq_some.2 ⟨hrule, _, hfound⟩), List.map_cons, ih]
  | other _ hrule _ ih => rw [List.filterMap_cons_none (keptName?_of_ne hrule), ih]

/-- Of two rules of one name among nodes that compile, one drops its body. -/
theorem Collected.dropsBody_of_pair (h : Collected seen pending nodes ds events)
    (hpair : [first, second].Sublist nodes) (hfirst : DefinesRule first name)
    (hsecond : DefinesRule second name) (hbody : ¬ DropsBody first) : DropsBody second := by
  by_contra hbody'
  obtain ⟨found, hfound⟩ := h.rule?_eq_ok first (hpair.subset (by simp)) hfirst.kind
  obtain ⟨found', hfound'⟩ := h.rule?_eq_ok second (hpair.subset (by simp)) hsecond.kind
  have hnames : [name, name].Sublist (ds.map Definition.name) := by
    rw [h.map_name]
    have hkept := hpair.filterMap Compilation.keptName?
    rwa [List.filterMap_cons_some (hfirst.keptName? hbody hfound),
      List.filterMap_cons_some (hsecond.keptName? hbody' hfound'), List.filterMap_nil] at hkept
  exact List.nodup_iff_sublist.1 h.nodup.1 name hnames

end Kept

section Violations

theorem rule?_ne_duplicate {n : SyntaxTree} :
    (rule? node).result ≠ .error (.violation ⟨.duplicate name, n⟩) := by
  intro h
  by_cases hshape : ∃ nameNode elements, IsRule node nameNode elements
  · obtain ⟨nameNode, elements, hrule⟩ := hshape
    by_cases hadds : signOf node = adds
    · rw [rule?_of_adds hrule hadds] at h
      cases h
    by_cases hdefines : signOf node = defines
    · rw [rule?_of_defines hrule hdefines] at h
      rcases Traced.result_bind_eq_error.1 h with h | ⟨_ | body, -, h⟩
      · have hcause := (violation_of_expression? h).2
        simp [constructCauses] at hcause
      · cases h
      · cases h
    · rw [rule?_of_other hrule hadds hdefines] at h
      cases h
  · obtain ⟨cause, hcause, hrule⟩ := rule?_of_not_isRule hshape
    rw [hrule] at h
    cases h
    simp at hcause

theorem rulelist_ne_duplicate {n : SyntaxTree} :
    (rulelist root).result ≠ .error (.violation ⟨.duplicate name, n⟩) := by
  unfold rulelist
  split
  · nofun
  · split
    · nofun
    · split <;> nofun

/-- A duplicate is a node that would be kept, with a name that is kept before it. -/
theorem keptName?_of_duplicate (h : (definitionsFrom [] pending nodes).result
      = .error (.violation ⟨.duplicate name, node⟩)) :
    ∃ before after, nodes = before ++ node :: after ∧ keptName? node = some name ∧
      name ∈ before.filterMap keptName? := by
  obtain ⟨before, node', after, ds, hnodes, hds, hfault⟩ := definitionsFrom_eq_error.1 h
  obtain ⟨hkind, hrule | ⟨name', body, hrule, hname, hnode⟩⟩ := fault?_eq_some.1 hfault
  · exact absurd hrule rule?_ne_duplicate
  · cases hnode
    rw [List.nil_append, (collected_of_definitionsFrom hds).map_name] at hname
    exact ⟨before, after, hnodes, keptName?_eq_some.2 ⟨hkind, body, hrule⟩, hname⟩

end Violations

/-- A list of rules in which two define one name, and neither has a body that comes to nothing, has
no definitions: compiling it is a violation, unless it comes to a hexadecimal value with a number
that is no code point. The violation of a duplicate is found for no other list, and with the second
of the two rules. -/
theorem violates_of_defined_twice (h : (rulelist root).result = .ok list) :
    (∀ first second name, [first, second].Sublist list.namedChildren →
      DefinesRule first name → DefinesRule second name → ¬ DropsBody first → ¬ DropsBody second →
        (∀ ds, (definitions root withCore).result ≠ .ok ds) ∧
          ((∀ n, Reaches root n → n.kind = "hex_val" → ¬ HasStrayNumber (HexToken.ofTree n)) →
            ∃ v, (definitions root withCore).result = .error (.violation v))) ∧
    ∀ name second,
      (definitions root withCore).result = .error (.violation ⟨.duplicate name, second⟩) →
        ∃ first, [first, second].Sublist list.namedChildren ∧
          DefinesRule first name ∧ DefinesRule second name ∧
            ¬ DropsBody first ∧ ¬ DropsBody second := by
  constructor
  · intro first second name hpair hfirst hsecond hbody hbody'
    have hfails : ∀ ds, (definitions root withCore).result ≠ .ok ds := by
      intro ds hds
      obtain ⟨list', own, hlist, hown, -⟩ := definitions_eq_ok hds
      rw [h] at hlist
      cases hlist
      exact hbody' ((collected_of_definitionsFrom hown).dropsBody_of_pair hpair hfirst hsecond hbody)
    refine ⟨hfails, fun hnumbers ↦ ?_⟩
    have hstrays : ¬ Strays (definitions root withCore) := by
      rw [strays_iff_reaches]
      rintro ⟨n, hn, hkind, hstray⟩
      exact hnumbers n hn hkind hstray
    rcases not_strays_iff.1 hstrays with ⟨ds, hds⟩ | hviolation
    · exact absurd hds (hfails ds)
    · exact hviolation
  · intro name second hduplicate
    rcases definitions_eq_error.1 hduplicate with hlist | ⟨list', hlist, hduplicate⟩
    · exact absurd hlist rulelist_ne_duplicate
    · rw [h] at hlist
      cases hlist
      obtain ⟨before, after, hsplit, hsecond, hname⟩ := keptName?_of_duplicate hduplicate
      obtain ⟨first, hmem, hfirst⟩ := List.mem_filterMap.1 hname
      have hpair : [first, second].Sublist list.namedChildren := by
        rw [hsplit]
        exact (List.singleton_sublist.2 hmem).append ((List.nil_sublist after).cons_cons second)
      obtain ⟨hdefines, hbody⟩ := definesRule_of_keptName? hfirst
      obtain ⟨hdefines', hbody'⟩ := definesRule_of_keptName? hsecond
      exact ⟨first, hpair, hdefines, hdefines', hbody, hbody'⟩

section Instances

/-- Two rules whose names have the same normal form. -/
def twiceTree (value value' : String) : SyntaxTree :=
  .branch "rulelist" [commentedRule "rule-a" "=" value, commentedRule "rule_a" "=" value']

theorem definesRule_commentedRule (name value : String) :
    DefinesRule (commentedRule name "=" value) (normal name) :=
  ⟨rfl, rfl, .leaf "rulename" name, rfl, rfl⟩

theorem violates_twiceTree :
    ∃ v, (definitions (twiceTree "rulename" "rulename") false).result = .error (.violation v) := by
  have hbody (name : String) : ¬ DropsBody (commentedRule name "=" "rulename") := by
    rintro ⟨elements, helements, h⟩
    cases helements
    cases h
  have hstrays : ¬ Strays (definitions (twiceTree "rulename" "rulename") false) :=
    not_strays_of_violation rfl
  refine ((violates_of_defined_twice rfl).1 _ _ "rule_a" (List.Sublist.refl _)
    (definesRule_commentedRule "rule-a" _) (definesRule_commentedRule "rule_a" _) (hbody _)
    (hbody _)).2 ?_
  intro n hn hkind hstray
  exact hstrays (strays_iff_reaches.2 ⟨n, hn, hkind, hstray⟩)

/-- Prose has no expression, so that the first rule is left out and the second one stays. -/
theorem not_violated_twiceTree : ¬ ∀ root list first second name,
    (rulelist root).result = .ok list → [first, second].Sublist list.namedChildren →
      DefinesRule first name → DefinesRule second name →
        ∃ v, (definitions root false).result = .error (.violation v) := by
  intro hclaim
  have hlist : (rulelist (twiceTree "prose_val" "rulename")).result
      = .ok (twiceTree "prose_val" "rulename") := rfl
  obtain ⟨ds, hds⟩ : ∃ ds, (definitions (twiceTree "prose_val" "rulename") false).result = .ok ds :=
    ⟨_, rfl⟩
  obtain ⟨v, hv⟩ := hclaim _ _ _ _ "rule_a" hlist (List.Sublist.refl _)
    (definesRule_commentedRule "rule-a" "prose_val")
    (definesRule_commentedRule "rule_a" "rulename")
  rw [hds] at hv
  cases hv

end Instances

end AbnfCompiler.Compilation
