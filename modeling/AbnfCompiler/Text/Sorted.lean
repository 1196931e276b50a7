/-!
Texts in ascending order of their characters' numbers, each once.
-/
namespace AbnfCompiler.Text.Sorted

/-- Puts a text in its place, unless it is there. -/
def insert (s : String) : List String → List String
  | [] => [s]
  | t :: ts => if s < t then s :: t :: ts else if s = t then t :: ts else t :: insert s ts

def ofList : List String → List String
  | [] => []
  | s :: ss => insert s (ofList ss)

theorem mem_insert {x s : String} {ts : List String} : x ∈ insert s ts ↔ x = s ∨ x ∈ ts := by
  induction ts with
  | nil => simp [insert]
  | cons t ts ih =>
    unfold insert
    split
    · simp
    · split
      · next h => subst h; simp
      · simp only [List.mem_cons, ih]; grind

@[simp] theorem mem_ofList {x : String} {ss : List String} : x ∈ ofList ss ↔ x ∈ ss := by
  induction ss with
  | nil => simp [ofList]
  | cons s ss ih => simp [ofList, mem_insert, ih]

theorem pairwise_insert {s : String} {ts : List String} (h : ts.Pairwise (· < ·)) :
    (insert s ts).Pairwise (· < ·) := by
  induction ts with
  | nil => simp [insert]
  | cons t ts ih =>
    obtain ⟨ht, hts⟩ := List.pairwise_cons.1 h
    unfold insert
    split
    · next hst =>
      refine List.pairwise_cons.2 ⟨fun x hx ↦ ?_, h⟩
      rcases List.mem_cons.1 hx with rfl | hx
      · exact hst
      · exact String.lt_trans hst (ht x hx)
    · split
      · exact h
      · next hst hne =>
        refine List.pairwise_cons.2 ⟨fun x hx ↦ ?_, ih hts⟩
        rcases mem_insert.1 hx with rfl | hx
        · exact Decidable.byContradiction fun h ↦
            hne (String.le_antisymm (String.not_lt.1 h) (String.not_lt.1 hst))
        · exact ht x hx

theorem pairwise_ofList (ss : List String) : (ofList ss).Pairwise (· < ·) := by
  induction ss with
  | nil => simp [ofList]
  | cons s ss ih => exact pairwise_insert ih

/-- Ascending lists with the same members are equal. -/
theorem eq_of_mem_iff : ∀ {xs ys : List String}, xs.Pairwise (· < ·) → ys.Pairwise (· < ·) →
    (∀ z, z ∈ xs ↔ z ∈ ys) → xs = ys
  | [], [], _, _, _ => rfl
  | [], y :: ys, _, _, h => absurd ((h y).2 (by simp)) (by simp)
  | x :: xs, [], _, _, h => absurd ((h x).1 (by simp)) (by simp)
  | x :: xs, y :: ys, hx, hy, h => by
    obtain ⟨hx, hxs⟩ := List.pairwise_cons.1 hx
    obtain ⟨hy, hys⟩ := List.pairwise_cons.1 hy
    have hxy : x = y := by
      rcases List.mem_cons.1 ((h x).1 (by simp)) with he | hxy
      · exact he
      · rcases List.mem_cons.1 ((h y).2 (by simp)) with he | hyx
        · exact he.symm
        · exact absurd (hx y hyx) (String.lt_asymm (hy x hxy))
    subst hxy
    refine congrArg _ (eq_of_mem_iff hxs hys fun z ↦ ⟨fun hz ↦ ?_, fun hz ↦ ?_⟩)
    · rcases List.mem_cons.1 ((h z).1 (List.mem_cons_of_mem _ hz)) with rfl | hz'
      · exact absurd (hx _ hz) (String.lt_irrefl _)
      · exact hz'
    · rcases List.mem_cons.1 ((h z).2 (List.mem_cons_of_mem _ hz)) with rfl | hz'
      · exact absurd (hy _ hz) (String.lt_irrefl _)
      · exact hz'

theorem ofList_eq_of_mem_iff {xs ys : List String} (h : ∀ z, z ∈ xs ↔ z ∈ ys) :
    ofList xs = ofList ys :=
  eq_of_mem_iff (pairwise_ofList xs) (pairwise_ofList ys) (by simpa using h)

end AbnfCompiler.Text.Sorted
