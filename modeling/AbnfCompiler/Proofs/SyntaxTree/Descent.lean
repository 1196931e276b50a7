import Mathlib.Logic.Relation
import AbnfCompiler.SyntaxTree

/-!
Nodes within a syntax tree, and induction from the children of a node to the node.
-/
namespace AbnfCompiler.SyntaxTree

/-- A node holds its children. -/
def Holds (t n : SyntaxTree) : Prop := n ∈ t.children

/-- The nodes of a tree, the tree itself among them. -/
abbrev Contains : SyntaxTree → SyntaxTree → Prop := Relation.ReflTransGen Holds

theorem wellFounded_holds : WellFounded fun c t : SyntaxTree ↦ t.Holds c := by
  refine Subrelation.wf (r := InvImage (· < ·) sizeOf) ?_ (InvImage.wf _ Nat.lt_wfRel.wf)
  intro c t h
  have hlist := List.sizeOf_lt_of_mem h
  have htree : sizeOf t.children < sizeOf t := by
    cases t
    simp only [mk.sizeOf_spec]
    omega
  exact Nat.lt_trans hlist htree

theorem induction {p : SyntaxTree → Prop} (h : ∀ t, (∀ c, t.Holds c → p c) → p t)
    (t : SyntaxTree) : p t :=
  wellFounded_holds.induction t h

theorem holds_of_mem_meaningful {t c : SyntaxTree} (h : c ∈ t.meaningful) : t.Holds c :=
  (List.mem_filter.1 h).1

mutual

def nodes : SyntaxTree → List SyntaxTree
  | ⟨kind, named, text, line, column, children⟩ =>
    ⟨kind, named, text, line, column, children⟩ :: nodesOf children

def nodesOf : List SyntaxTree → List SyntaxTree
  | [] => []
  | t :: ts => nodes t ++ nodesOf ts

end

theorem nodes_eq (t : SyntaxTree) : t.nodes = t :: nodesOf t.children := by
  cases t
  rfl

theorem mem_nodesOf_of_mem {t n : SyntaxTree} {ts : List SyntaxTree} (ht : t ∈ ts)
    (hn : n ∈ t.nodes) : n ∈ nodesOf ts := by
  induction ts with
  | nil => nomatch ht
  | cons t' ts ih =>
    rw [nodesOf, List.mem_append]
    rcases List.mem_cons.1 ht with rfl | ht
    · exact Or.inl hn
    · exact Or.inr (ih ht)

theorem mem_nodes_of_contains {t n : SyntaxTree} (h : t.Contains n) : n ∈ t.nodes := by
  induction h using Relation.ReflTransGen.head_induction_on with
  | refl =>
    rw [nodes_eq]
    exact List.mem_cons_self
  | head hholds _ ih =>
    rw [nodes_eq]
    exact List.mem_cons_of_mem _ (mem_nodesOf_of_mem hholds ih)

end AbnfCompiler.SyntaxTree
