import Mathlib.Data.List.Forall2
import AbnfCompiler.Proofs.Text.Utf8
import AbnfCompiler.Source

/-!
The texts of nodes. Where the spans of a tree begin and end between characters of the source, every
node has the characters of its span as its text, and nodes beside each other have the text of the
node that they fill.
-/
namespace AbnfCompiler

namespace SpanTree

open Text.Utf8

/-- The number of octets before the character `i` of a text. -/
def offset (text : String) (i : ℕ) : ℕ :=
  ((text.toList.take i).flatMap String.utf8EncodeChar).length

/-- The characters of a text from `i` up to `j`. -/
def excerpt (text : String) (i j : ℕ) : String := String.ofList ((text.toList.take j).drop i)

/-- All spans of the tree begin and end between characters of the text. -/
inductive OnBoundaries (text : String) : SpanTree → Prop
  | node {t : SpanTree} {i j : ℕ} : t.start = offset text i → t.stop = offset text j →
      (∀ c ∈ t.children, OnBoundaries text c) → OnBoundaries text t

/-- The trees have one shape, with the same kinds and flags, and every text is that of the
characters between which the span begins and ends. -/
inductive Excerpts (text : String) : SpanTree → SyntaxTree → Prop
  | node {t : SpanTree} {u : SyntaxTree} {i j : ℕ} : u.kind = t.kind → u.named = t.named →
      t.start = offset text i → t.stop = offset text j → u.text = excerpt text i j →
      List.Forall₂ (Excerpts text) t.children u.children → Excerpts text t u

/-- Each span begins where the one before it ends, from the first offset up to the last. -/
inductive Tiles : ℕ → List SpanTree → ℕ → Prop
  | nil {a : ℕ} : Tiles a [] a
  | cons {t : SpanTree} {ts : List SpanTree} {a b : ℕ} : t.start = a → a ≤ t.stop →
      Tiles t.stop ts b → Tiles a (t :: ts) b

variable {text : String} {i j k : ℕ} {t : SpanTree} {u : SyntaxTree}

section Slices

theorem take_append_excerpt (text : String) (h : i ≤ j) :
    text.toList.take i ++ (text.toList.take j).drop i = text.toList.take j := by
  have hfront : (text.toList.take j).take i = text.toList.take i := by
    rw [List.take_take, Nat.min_eq_left h]
  rw [← hfront, List.take_append_drop]

theorem drop_take_of_le (h : j ≤ i) : (text.toList.take j).drop i = [] := by
  apply List.drop_eq_nil_of_le
  exact Nat.le_trans (List.length_take_le _ _) h

theorem flatMap_take_append (text : String) (h : i ≤ j) :
    (text.toList.take i).flatMap String.utf8EncodeChar
        ++ ((text.toList.take j).drop i).flatMap String.utf8EncodeChar
      = (text.toList.take j).flatMap String.utf8EncodeChar := by
  rw [← List.flatMap_append, take_append_excerpt text h]

theorem offset_eq_add (text : String) (h : i ≤ j) :
    offset text j = offset text i
      + (((text.toList.take j).drop i).flatMap String.utf8EncodeChar).length := by
  rw [offset, ← flatMap_take_append text h, List.length_append]
  rfl

theorem take_encode (text : String) (i : ℕ) :
    (encode text).take (offset text i) = (text.toList.take i).flatMap String.utf8EncodeChar := by
  have hsplit := congrArg (List.flatMap String.utf8EncodeChar) (text.toList.take_append_drop i)
  rw [List.flatMap_append] at hsplit
  rw [encode, ← hsplit, offset, List.take_left]

theorem slice_encode (text : String) (i j : ℕ) :
    slice (encode text) (offset text i) (offset text j)
      = ((text.toList.take j).drop i).flatMap String.utf8EncodeChar := by
  rw [slice, take_encode]
  rcases Nat.le_total i j with h | h
  · rw [offset, ← flatMap_take_append text h, List.drop_left]
  · rw [drop_take_of_le h, List.flatMap_nil]
    apply List.drop_eq_nil_of_le
    change offset text j ≤ offset text i
    rw [offset_eq_add text h]
    exact Nat.le_add_right _ _

/-- The octets between two boundaries are read as the characters between them. -/
theorem decode_slice (text : String) (i j : ℕ) :
    decode (slice (encode text) (offset text i) (offset text j)) = excerpt text i j := by
  rw [slice_encode, decode_flatMap, excerpt]

end Slices

theorem excerpts_resolve (h : t.OnBoundaries text) :
    Excerpts text t (t.resolve (encode text)) := by
  induction h with
  | @node t i j hstart hstop _ ih =>
    obtain ⟨kind, named, start, stop, children⟩ := t
    refine .node rfl rfl hstart hstop ?_ ?_
    · change decode (slice (encode text) start stop) = _
      rw [show start = _ from hstart, show stop = _ from hstop, decode_slice]
    · change List.Forall₂ _ children (resolveAll (encode text) children)
      rw [resolveAll_eq_map, List.forall₂_map_right_iff, List.forall₂_same]
      exact ih

section Tiles

/-- An offset tells which character it stands before. -/
theorem take_eq_of_offset_eq (h : offset text i = offset text j) :
    text.toList.take i = text.toList.take j := by
  have hle {i j : ℕ} (hij : i ≤ j) (h : offset text i = offset text j) :
      text.toList.take i = text.toList.take j := by
    have hsum := offset_eq_add text hij
    have hnil : (text.toList.take j).drop i = [] := by
      cases hrest : (text.toList.take j).drop i with
      | nil => rfl
      | cons c cs =>
        rw [hrest, List.flatMap_cons, List.length_append, String.length_utf8EncodeChar] at hsum
        have hpos := c.utf8Size_pos
        omega
    rw [← take_append_excerpt text hij, hnil, List.append_nil]
  rcases Nat.le_total i j with hij | hij
  · exact hle hij h
  · exact (hle hij h.symm).symm

/-- The characters before a boundary and those from it up to a later one. -/
theorem take_append_toList_excerpt (h : offset text i ≤ offset text j) :
    text.toList.take i ++ (excerpt text i j).toList = text.toList.take j := by
  rw [excerpt, String.toList_ofList]
  rcases Nat.le_total i j with hij | hij
  · exact take_append_excerpt text hij
  · have hle := offset_eq_add text hij
    rw [drop_take_of_le hij, List.append_nil]
    exact take_eq_of_offset_eq (by omega)

theorem Tiles.le {a b : ℕ} {ts : List SpanTree} (h : Tiles a ts b) : a ≤ b := by
  induction h with
  | nil => exact Nat.le_refl _
  | cons _ hle _ ih => exact Nat.le_trans hle ih

theorem Tiles.join_eq {ts : List SpanTree} {us : List SyntaxTree}
    (h : Tiles (offset text i) ts (offset text j)) (hus : List.Forall₂ (Excerpts text) ts us) :
    text.toList.take i ++ us.flatMap (fun u ↦ u.text.toList) = text.toList.take j := by
  generalize ha : offset text i = a at h
  generalize hb : offset text j = b at h
  induction h generalizing i us with
  | nil =>
    cases hus
    rw [List.flatMap_nil, List.append_nil]
    exact take_eq_of_offset_eq (ha.trans hb.symm)
  | @cons t ts a b hfirst hle htiles ih =>
    obtain ⟨u, us', hu, hus', rfl⟩ := List.forall₂_cons_left_iff.1 hus
    cases hu with
    | @node _ _ i' j' _ _ hstart hstop htext _ =>
      have hsame : text.toList.take i = text.toList.take i' :=
        take_eq_of_offset_eq ((ha.trans hfirst.symm).trans hstart)
      rw [← hfirst, hstart, hstop] at hle
      rw [List.flatMap_cons, ← List.append_assoc, hsame, htext, take_append_toList_excerpt hle]
      exact ih hus' hstop.symm hb

/-- Nodes that fill their parent have its text. -/
theorem Excerpts.join_text (h : Excerpts text t u) (htiles : Tiles t.start t.children t.stop) :
    String.join (u.children.map SyntaxTree.text) = u.text := by
  cases h with
  | @node _ _ i j _ _ hstart hstop htext hchildren =>
    rw [hstart, hstop] at htiles
    have hjoin := htiles.join_eq hchildren
    rw [← take_append_toList_excerpt htiles.le, List.append_cancel_left_eq] at hjoin
    rw [← String.toList_inj, String.toList_join, List.flatMap_map, htext, hjoin]

end Tiles

end SpanTree

namespace Source

open SpanTree

/-- Parsing gives a tree of the same shape with the characters of each span as its text. Nodes that
fill their parent have its text together. -/
theorem parse_of_onBoundaries {parser : Parser} {text : String} {root : SpanTree}
    (hroot : (parser text).root = some root) (h : root.OnBoundaries text) :
    ∃ tree, (parse parser text).result = .ok tree ∧ Excerpts text root tree ∧
      ∀ t u, Excerpts text t u → Tiles t.start t.children t.stop →
        String.join (u.children.map SyntaxTree.text) = u.text := by
  refine ⟨root.resolve (Text.Utf8.encode text), ?_, excerpts_resolve h, ?_⟩
  · unfold parse
    simp only [hroot]
    rfl
  · intro t u htexts htiles
    exact htexts.join_text htiles

section Instances

/-- Characters of one to four octets, the last two of them within one node. -/
def mixedTree : SpanTree :=
  ⟨"source_file", true, 0, 10,
    [⟨"a", true, 0, 1, []⟩, ⟨"b", false, 1, 3, []⟩,
     ⟨"c", true, 3, 10, [⟨"d", true, 3, 6, []⟩, ⟨"e", true, 6, 10, []⟩]⟩]⟩

def mixedText : String := "aé€😀"

def mixedParser : Parser := fun _ ↦ ⟨some mixedTree, false⟩

theorem onBoundaries_mixedTree : mixedTree.OnBoundaries mixedText := by
  have hleaf (kind : String) (named : Bool) {start stop : ℕ} (i j : ℕ)
      (hstart : start = offset mixedText i) (hstop : stop = offset mixedText j) :
      OnBoundaries mixedText ⟨kind, named, start, stop, []⟩ := .node hstart hstop nofun
  apply OnBoundaries.node (i := 0) (j := 4) rfl rfl
  rw [mixedTree, List.forall_mem_cons, List.forall_mem_cons, List.forall_mem_singleton]
  refine ⟨hleaf _ _ 0 1 rfl rfl, hleaf _ _ 1 2 rfl rfl, ?_⟩
  apply OnBoundaries.node (i := 2) (j := 4) rfl rfl
  rw [List.forall_mem_cons, List.forall_mem_singleton]
  exact ⟨hleaf _ _ 2 3 rfl rfl, hleaf _ _ 3 4 rfl rfl⟩

theorem parse_mixedText :
    ∃ tree, (parse mixedParser mixedText).result = .ok tree ∧
      Excerpts mixedText mixedTree tree ∧
      String.join (tree.children.map SyntaxTree.text) = tree.text := by
  have hroot : (mixedParser mixedText).root = some mixedTree := rfl
  obtain ⟨tree, hresult, htexts, hjoin⟩ := parse_of_onBoundaries hroot onBoundaries_mixedTree
  refine ⟨tree, hresult, htexts, hjoin mixedTree tree htexts ?_⟩
  exact .cons rfl (by decide) (.cons rfl (by decide) (.cons rfl (by decide) .nil))

end Instances

end Source

end AbnfCompiler
