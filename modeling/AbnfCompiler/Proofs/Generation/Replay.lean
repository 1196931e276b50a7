import AbnfCompiler.Generation.Result
import AbnfCompiler.Proofs.Session.Fix

/-!
Fixes, as they are recorded, tell which session came of them.
-/
namespace AbnfCompiler

open RuleName

variable {s s' : Session} {d : Diagnostic} {g : Grammar} {added group : List String}

namespace Session

theorem foldl_withInlined_of_new (hnormal : ∀ n ∈ added, normal n = n) (hnodup : added.Nodup)
    (hnew : ∀ n ∈ added, n ∉ s.inlined) :
    added.foldl withInlined s = { s with inlined := s.inlined ++ added } := by
  induction added generalizing s with
  | nil => simp
  | cons n ns ih =>
    obtain ⟨hn, hns⟩ := List.forall_mem_cons.1 hnormal
    obtain ⟨hnmem, hnodup⟩ := List.nodup_cons.1 hnodup
    obtain ⟨hnnew, hnew⟩ := List.forall_mem_cons.1 hnew
    have hstep : s.withInlined n = { s with inlined := s.inlined ++ [n] } := by
      rw [withInlined, hn, addNew, if_neg hnnew]
    rw [List.foldl_cons, hstep, ih hns hnodup]
    · simp
    · intro m hm hin
      rcases List.mem_append.1 hin with hin | hin
      · exact hnew m hm hin
      · exact hnmem (List.mem_singleton.1 hin ▸ hm)

theorem groupOf_groupOf (names : List String) : groupOf (groupOf names) = groupOf names := by
  have hnormal : (groupOf names).map normal = groupOf names := by
    conv_rhs => rw [← List.map_id (groupOf names)]
    exact List.map_congr_left fun n hn ↦ normal_of_mem_groupOf hn
  conv_lhs => rw [groupOf, hnormal]
  exact Text.Sorted.ofList_eq_of_mem_iff fun n ↦ Text.Sorted.mem_ofList

/-- A fix changes nothing but the inlined rules and the conflict groups. -/
theorem eq_of_fix? (h : s.fix? d (some g) = some s') :
    s' = { s with inlined := s'.inlined, conflicts := s'.conflicts } := by
  obtain ⟨-, -, ⟨-, -, added, -, -, -, rfl⟩ | ⟨-, -, rfl⟩⟩ := fix?_cases h
  · rfl
  · rfl

end Session

namespace Generation.Fix

open Session

/-- The session after a fix, given the one before. -/
def replay (s : Session) (f : Fix) : Session :=
  if f.kind = .emptyMatch then f.rules.foldl withInlined s else s.withConflict f.rules

theorem addedRules_inlined (hne : added ≠ []) (hnew : ∀ n ∈ added, n ∉ s.inlined) :
    addedRules s { s with inlined := s.inlined ++ added } = added := by
  have hfilter : (s.inlined ++ added).filter (fun n ↦ !s.inlined.contains n) = added := by
    rw [List.filter_append, List.filter_eq_nil_iff.2 (by simp), List.nil_append]
    exact List.filter_eq_self.2 fun n hn ↦ by simpa using hnew n hn
  unfold addedRules
  rw [hfilter]
  cases added with
  | nil => exact absurd rfl hne
  | cons n ns => rfl

theorem addedRules_conflict (hnew : group ∉ s.conflicts) :
    addedRules s { s with conflicts := s.conflicts ++ [group] } = group := by
  have hfilter : s.inlined.filter (fun n ↦ !s.inlined.contains n) = [] :=
    List.filter_eq_nil_iff.2 (by simp)
  have hfind : (s.conflicts ++ [group]).find? (fun g ↦ !s.conflicts.contains g) = some group := by
    rw [List.find?_append, List.find?_eq_none.2 (by simp)]
    simp [hnew]
  unfold addedRules
  rw [hfilter, hfind]
  rfl

/-- The rules that are recorded for a fix are enough to make it again. -/
theorem replay_of_fix? (h : s.fix? d (some g) = some s') (number : Int) :
    replay s ⟨d.kind, addedRules s s', number⟩ = s' := by
  obtain ⟨-, -, ⟨hkind, -, added, hne, hnodup, hadded, rfl⟩ | ⟨hkind, hnew, rfl⟩⟩ := fix?_cases h
  · have hnew : ∀ n ∈ added, n ∉ s.inlined := fun n hn ↦ ((hadded n).1 hn).1
    rw [addedRules_inlined hne hnew, replay, if_pos hkind]
    refine foldl_withInlined_of_new ?_ hnodup hnew
    intro n hn
    obtain ⟨-, r, -, rfl⟩ := (hadded n).1 hn
    exact normal_normal (s.ruleOf r)
  · rw [addedRules_conflict hnew, replay, if_neg (by simp [hkind]), withConflict, groupOf_groupOf,
      addNew, if_neg hnew]

end Generation.Fix

end AbnfCompiler
