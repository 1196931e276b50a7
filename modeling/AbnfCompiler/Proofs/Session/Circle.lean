import AbnfCompiler.Proofs.Session.Fix
import AbnfCompiler.Proofs.Session.Reach

/-!
Circles of references among rules. Further rules make no circle just when none of them comes back to
itself, so that a fix is refused for a circle exactly where it would make one.
-/
namespace AbnfCompiler

open RuleName Relation

/-- Between defined rules among `names`: the body of one rule refers to the other. -/
def Refers (ds : List Definition) (names : List String) (a b : String) : Prop :=
  a ∈ names ∧ b ∈ names ∧ b ∈ ds.map Definition.name ∧
    ∃ d ∈ ds, d.name = a ∧ ∃ n ∈ d.body.references, normal n = b

/-- No rule among `names` comes back to itself by references to rules among `names`. -/
def Acyclic (ds : List Definition) (names : List String) : Prop :=
  ∀ name, ¬ TransGen (Refers ds names) name name

variable {ds : List Definition} {inlined names : List String} {a b : String} {s s' : Session}
  {d : Diagnostic}

theorem Refers.mono {names' : List String} (hsub : names ⊆ names') (h : Refers ds names a b) :
    Refers ds names' a b :=
  ⟨hsub h.1, hsub h.2.1, h.2.2⟩

theorem Acyclic.anti {names' : List String} (hsub : names ⊆ names') (h : Acyclic ds names') :
    Acyclic ds names :=
  fun name hcircle ↦ h name (TransGen.mono (fun _ _ ↦ Refers.mono hsub) _ _ hcircle)

theorem acyclic_nil : Acyclic ds [] := by
  intro name hcircle
  obtain ⟨_, hstep, -⟩ := TransGen.head'_iff.1 hcircle
  exact List.not_mem_nil hstep.1

/-- A circle among some rules and further ones is one among the first, unless one of the further
rules is on it. -/
theorem circle_of_append (h : TransGen (Refers ds (inlined ++ names)) a a)
    (hout : ∀ n ∈ names, ¬ TransGen (Refers ds (inlined ++ names)) n n) :
    TransGen (Refers ds inlined) a a := by
  have hold : ∀ n ∈ inlined ++ names, TransGen (Refers ds (inlined ++ names)) n n →
      n ∈ inlined := by
    intro n hn hcircle
    exact (List.mem_append.1 hn).resolve_right fun hin ↦ hout n hin hcircle
  refine TransGen.mono ?_ _ _ (Grammar.transGen_of_circle h)
  rintro x y ⟨⟨hx, hy, hstep⟩, hxcircle, hycircle⟩
  exact ⟨hold x hx hxcircle, hold y hy hycircle, hstep⟩

section Search

theorem mem_referencesOf_grammar (hnodup : (ds.map Definition.name).Nodup) {n : String} :
    n ∈ (s.grammar ds).referencesOf a ↔ ∃ d ∈ ds, d.name = a ∧ n ∈ d.body.references := by
  rw [Grammar.mem_referencesOf ((s.ruleNames_grammar ds).symm ▸ hnodup)]
  simp only [Session.grammar, List.mem_map, exists_exists_and_eq_and]
  rfl

theorem follows_of_refers (hnodup : (ds.map Definition.name).Nodup) (h : Refers ds names a b) :
    (s.grammar ds).Follows names a b := by
  obtain ⟨-, hb, -, d, hd, hname, n, hn, hnormal⟩ := h
  exact ⟨hb, n, (mem_referencesOf_grammar hnodup).2 ⟨d, hd, hname, hn⟩, hnormal⟩

/-- Whoever is on a circle that the search can follow is among `names` and defined. -/
theorem of_circle (hnodup : (ds.map Definition.name).Nodup)
    (h : TransGen ((s.grammar ds).Follows names) a a) :
    a ∈ names ∧ a ∈ ds.map Definition.name := by
  obtain ⟨_, -, hlast⟩ := TransGen.tail'_iff.1 h
  obtain ⟨_, hfirst, -⟩ := TransGen.head'_iff.1 h
  obtain ⟨-, n, hn, -⟩ := hfirst
  obtain ⟨d, hd, hname, -⟩ := (mem_referencesOf_grammar hnodup).1 hn
  exact ⟨hlast.1, List.mem_map.2 ⟨d, hd, hname⟩⟩

theorem circle_iff (hnodup : (ds.map Definition.name).Nodup) :
    TransGen ((s.grammar ds).Follows names) a a ↔ TransGen (Refers ds names) a a := by
  constructor
  · intro h
    refine TransGen.mono ?_ _ _ (Grammar.transGen_of_circle h)
    rintro x y ⟨⟨hy, n, hn, hnormal⟩, hxcircle, hycircle⟩
    obtain ⟨d, hd, hname, hreferences⟩ := (mem_referencesOf_grammar hnodup).1 hn
    exact ⟨(of_circle hnodup hxcircle).1, hy, (of_circle hnodup hycircle).2, d, hd, hname, n,
      hreferences, hnormal⟩
  · exact TransGen.mono (fun _ _ ↦ follows_of_refers hnodup) _ _

/-- To find a circle among more rules than before, it is enough to search from the new ones. -/
theorem acyclic_append (hnodup : (ds.map Definition.name).Nodup) (h : Acyclic ds inlined) :
    Acyclic ds (inlined ++ names) ↔
      ∀ name ∈ names, (s.grammar ds).reachesItself (inlined ++ names) name = false := by
  have hsearch : ∀ name ∈ names, ((s.grammar ds).reachesItself (inlined ++ names) name = false ↔
      ¬ TransGen (Refers ds (inlined ++ names)) name name) := by
    intro name hname
    rw [Grammar.reachesItself_eq_false (List.mem_append_right _ hname), circle_iff hnodup]
  constructor
  · exact fun hall name hname ↦ (hsearch name hname).2 (hall name)
  · intro hnew name hcircle
    -- No rule on the circle is new, so that the circle was there before.
    refine h name (circle_of_append hcircle fun n hn ↦ ?_)
    exact (hsearch n hn).1 (hnew n hn)

end Search

namespace Session

variable {s₀ : Session}

theorem mem_inlined_of_fix? {g : Grammar} (hs : s.InNormalForm) (hkind : d.kind = .emptyMatch)
    (h : s.fix? d (some g) = some s') (n : String) :
    n ∈ s'.inlined ↔ n ∈ s.inlined ++ d.rules.map s.ruleOf := by
  obtain ⟨-, -, ⟨-, -, added, -, -, hadded, rfl⟩ | ⟨hconflict, -, -⟩⟩ := fix?_cases h
  · rw [List.mem_append, List.mem_append, hadded, List.mem_map]
    simp only [normal_ruleOf hs]
    by_cases hin : n ∈ s.inlined
    · simp [hin]
    · simp [hin]
  · rw [hkind] at hconflict
    cases hconflict

/-- No fix makes a circle among the inlined rules. -/
theorem acyclic_fix? (hnodup : (ds.map Definition.name).Nodup) (hs : s.InNormalForm)
    (hacyclic : Acyclic ds s.inlined) (h : s.fix? d (some (s₀.grammar ds)) = some s') :
    Acyclic ds s'.inlined := by
  obtain ⟨-, -, ⟨hkind, hobstacle, -⟩ | ⟨-, -, rfl⟩⟩ := fix?_cases h
  · have hsearch := ((obstacle?_eq_none hkind).1 hobstacle).2
    have hunion : Acyclic ds (s.inlined ++ d.rules.map s.ruleOf) :=
      (acyclic_append hnodup hacyclic).2 (List.forall_mem_map.2 hsearch)
    exact hunion.anti fun n ↦ (mem_inlined_of_fix? hs hkind h n).1
  · exact hacyclic

/-- Rules that are defined, not all inlined and in no conflict group can be inlined exactly if this
makes no circle. -/
theorem isSome_fix?_iff (hnodup : (ds.map Definition.name).Nodup) (hs : s.InNormalForm)
    (hacyclic : Acyclic ds s.inlined) (hkind : d.kind = .emptyMatch)
    (hknown : ∀ r ∈ d.rules, s.ruleOf r ∈ ds.map Definition.name)
    (hapart : ∀ r ∈ d.rules, ∀ group ∈ s.conflicts, s.ruleOf r ∉ group)
    (hnew : ∃ r ∈ d.rules, s.ruleOf r ∉ s.inlined) :
    (s.fix? d (some (s₀.grammar ds))).isSome ↔
      Acyclic ds (s.inlined ++ d.rules.map s.ruleOf) := by
  have hrules : d.rules ≠ [] := by
    obtain ⟨r, hr, -⟩ := hnew
    exact List.ne_nil_of_mem hr
  have hknows : s.knows d (s₀.grammar ds) := knows_grammar.2 hknown
  have hamended : s.amended d ≠ s := by
    obtain ⟨r, hr, hout⟩ := hnew
    rw [Ne, amended_eq_self, if_pos hkind]
    intro hall
    have hin := hall r hr
    rw [normal_ruleOf hs] at hin
    exact hout hin
  have hobstacle : s.obstacle? d (some (s₀.grammar ds)) = none ↔
      Acyclic ds (s.inlined ++ d.rules.map s.ruleOf) := by
    rw [obstacle?_eq_none hkind, acyclic_append hnodup hacyclic, List.forall_mem_map,
      and_iff_right hapart]
  rw [← hobstacle, fix?, Option.isSome_ite]
  simp [hkind, Diagnostic.Kind.isFixable, hrules, hknows, hamended]

end Session

end AbnfCompiler
