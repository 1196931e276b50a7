import Mathlib.Data.List.Nodup
import Mathlib.Logic.Relation
import AbnfCompiler.Session.Reach

/-!
The search for a rule among those that can be reached through inlined rules is exact. No turn
changes whether the rule can be reached from the pending names through rules that were not followed
yet. So the search finds an inlined rule just when it is on a circle of references to inlined rules.
-/
namespace AbnfCompiler

open RuleName Relation

namespace Grammar

variable {g : Grammar} {p : String → Prop} {a b c : String}

theorem mem_referencesOf (hnodup : g.ruleNames.Nodup) {n : String} :
    n ∈ g.referencesOf a ↔ ∃ r ∈ g.rules, r.name = a ∧ n ∈ r.body.references := by
  cases hrule : g.rule? a with
  | none =>
    have hnone := List.find?_eq_none.1 hrule
    simp only [referencesOf, hrule, Option.map_none, Option.getD_none, List.not_mem_nil, false_iff]
    rintro ⟨r, hr, hname, -⟩
    exact hnone r hr (beq_iff_eq.2 hname)
  | some r =>
    have hr := List.mem_of_find?_eq_some hrule
    have hname := List.find?_some hrule
    rw [beq_iff_eq] at hname
    simp only [referencesOf, hrule, Option.map_some, Option.getD_some]
    refine ⟨fun hn ↦ ⟨r, hr, hname, hn⟩, ?_⟩
    rintro ⟨r', hr', hname', hn⟩
    rwa [List.inj_on_of_nodup_map hnodup hr hr' (hname.trans hname'.symm)]

/-- A rule with `p` refers to another one. -/
def Passes (g : Grammar) (p : String → Prop) (a b : String) : Prop :=
  p a ∧ ∃ n ∈ g.referencesOf a, normal n = b

/-- A path either keeps off a rule or can be taken up behind it. -/
theorem passes_off_or (rule : String) (h : ReflTransGen (g.Passes p) a c) :
    ReflTransGen (g.Passes fun n ↦ p n ∧ n ≠ rule) a c ∨
      ∃ n ∈ g.referencesOf rule, ReflTransGen (g.Passes fun n ↦ p n ∧ n ≠ rule) (normal n) c := by
  induction h using ReflTransGen.head_induction_on with
  | refl => exact .inl .refl
  | @head a b hstep _ ih =>
    obtain ⟨ha, n, hn, rfl⟩ := hstep
    rcases ih with hoff | hbehind
    · by_cases heq : a = rule
      · exact .inr ⟨n, heq ▸ hn, hoff⟩
      · exact .inl (.head ⟨⟨ha, heq⟩, n, hn, rfl⟩ hoff)
    · exact .inr hbehind

theorem passes_mono {q : String → Prop} (hpq : ∀ n, p n → q n) (h : ReflTransGen (g.Passes p) a b) :
    ReflTransGen (g.Passes q) a b :=
  ReflTransGen.mono (fun _ _ hstep ↦ hstep.imp_left (hpq _)) _ _ h

theorem eq_of_passes (ha : ¬ p a) (h : ReflTransGen (g.Passes p) a b) : a = b := by
  refine (ReflTransGen.cases_head h).resolve_right ?_
  rintro ⟨_, hstep, -⟩
  exact ha hstep.1

end Grammar

namespace Search

variable {g : Grammar} {inlined : List String} {name : String} {s s' : Search}

/-- Whether the search follows a rule when it comes to it. -/
def IsOpen (inlined : List String) (s : Search) (rule : String) : Prop :=
  rule ∈ inlined ∧ rule ∉ s.followed

/-- From a pending name there is a path to `name` through rules that the search would follow. -/
def Promises (g : Grammar) (inlined : List String) (name : String) (s : Search) : Prop :=
  ∃ n ∈ s.pending, ReflTransGen (g.Passes (s.IsOpen inlined)) (normal n) name

theorem promises_of_turn_inl {found : Bool} (h : s.turn g inlined name = .inl found) :
    found = true ↔ s.Promises g inlined name := by
  have hturn := turns_turn g inlined name s
  rw [h] at hturn
  cases hturn with
  | exhausted => simp [Promises]
  | @found _ _ target hname =>
    exact iff_of_true rfl ⟨target, List.mem_cons_self, hname ▸ .refl⟩

section Turn

variable {followed pending pending' : List String} {target : String}

/-- After a rule was followed, those still to follow are the ones from before but for this rule. -/
theorem isOpen_followed (pending : List String) :
    IsOpen inlined ⟨normal target :: followed, pending'⟩
      = fun n ↦ IsOpen inlined ⟨followed, pending⟩ n ∧ n ≠ normal target := by
  funext n
  simp only [IsOpen, List.mem_cons, not_or, eq_iff_iff, and_assoc, ne_eq]
  exact and_congr_right' and_comm

theorem promises_follow (hne : normal target ≠ name)
    (hopen : IsOpen inlined ⟨followed, target :: pending⟩ (normal target)) :
    Promises g inlined name ⟨followed, target :: pending⟩ ↔ Promises g inlined name
      ⟨normal target :: followed, (g.referencesOf (normal target)).reverse ++ pending⟩ := by
  simp only [Promises, isOpen_followed (target :: pending), List.mem_append, List.mem_reverse]
  constructor
  · rintro ⟨n, hn, hpath⟩
    -- A path over the target is taken up behind its last visit there, among the new names.
    rcases Grammar.passes_off_or (normal target) hpath with hoff | ⟨m, hm, hbehind⟩
    · rcases List.mem_cons.1 hn with rfl | hn
      · exact absurd (Grammar.eq_of_passes (fun hself ↦ hself.2 rfl) hoff) hne
      · exact ⟨n, .inr hn, hoff⟩
    · exact ⟨m, .inl hm, hbehind⟩
  · rintro ⟨n, hn, hpath⟩
    have hbefore := Grammar.passes_mono (fun _ ↦ And.left) hpath
    rcases hn with hn | hn
    · exact ⟨target, List.mem_cons_self, .head ⟨hopen, n, hn, rfl⟩ hbefore⟩
    · exact ⟨n, List.mem_cons_of_mem _ hn, hbefore⟩

theorem promises_skip (hne : normal target ≠ name)
    (hclosed : ¬ IsOpen inlined ⟨followed, target :: pending⟩ (normal target)) :
    Promises g inlined name ⟨followed, target :: pending⟩ ↔
      Promises g inlined name ⟨followed, pending⟩ := by
  constructor
  · rintro ⟨n, hn, hpath⟩
    rcases List.mem_cons.1 hn with rfl | hn
    · exact absurd (Grammar.eq_of_passes hclosed hpath) hne
    · exact ⟨n, hn, hpath⟩
  · rintro ⟨n, hn, hpath⟩
    exact ⟨n, List.mem_cons_of_mem _ hn, hpath⟩

/-- A turn that goes on neither makes a promise nor breaks one. -/
theorem promises_turn (h : s.turn g inlined name = .inr s') :
    s.Promises g inlined name ↔ s'.Promises g inlined name := by
  have hturn := turns_turn g inlined name s
  rw [h] at hturn
  cases hturn with
  | follow hne hin hnot => exact promises_follow hne ⟨hin, hnot⟩
  | skip hne hclosed => exact promises_skip hne hclosed

end Turn

theorem answer_of_turn_inl {found : Bool} (h : s.turn g inlined name = .inl found) :
    s.answer g inlined name = found := by
  rw [answer]
  split <;> simp_all

theorem answer_of_turn_inr (h : s.turn g inlined name = .inr s') :
    s.answer g inlined name = s'.answer g inlined name := by
  rw [answer]
  split <;> simp_all

/-- A search finds the rule just when it promises to. -/
theorem answer_iff : s.answer g inlined name = true ↔ s.Promises g inlined name := by
  induction s using answer.induct g inlined name with
  | case1 s found hturn => rw [answer_of_turn_inl hturn, promises_of_turn_inl hturn]
  | case2 s next hturn ih => rw [answer_of_turn_inr hturn, promises_turn hturn, ih]

end Search

namespace Grammar

variable {g : Grammar} {inlined : List String} {name : String}

theorem reachesItself_iff_passes : g.reachesItself inlined name = true ↔
    ∃ n ∈ g.referencesOf name, ReflTransGen (g.Passes (· ∈ inlined)) (normal n) name := by
  have hopen : (Search.start g name).IsOpen inlined = (· ∈ inlined) := by
    funext n
    simp [Search.IsOpen, Search.start]
  rw [reachesItself, Search.answer_iff, Search.Promises, hopen]
  simp only [Search.start, List.mem_reverse]

/-- All steps of a circle are steps between members of circles. -/
theorem transGen_of_circle {α : Type} {R : α → α → Prop} {x : α} (h : TransGen R x x) :
    TransGen (fun a b ↦ R a b ∧ TransGen R a a ∧ TransGen R b b) x x := by
  have hpath : ∀ y, TransGen R x y → ReflTransGen R y x →
      TransGen (fun a b ↦ R a b ∧ TransGen R a a ∧ TransGen R b b) x y := by
    intro y hxy
    induction hxy with
    | single hstep => exact fun hback ↦ .single ⟨hstep, .head' hstep hback, .tail' hback hstep⟩
    | @tail b c hxb hstep ih =>
      intro hback
      refine .tail (ih (.head hstep hback)) ⟨hstep, ?_, ?_⟩
      · exact .head' hstep (hback.trans hxb.to_reflTransGen)
      · exact .tail' (hback.trans hxb.to_reflTransGen) hstep
  exact hpath x h .refl

/-- A rule refers to an inlined one. -/
def Follows (g : Grammar) (inlined : List String) (a b : String) : Prop :=
  b ∈ inlined ∧ ∃ n ∈ g.referencesOf a, normal n = b

theorem exists_passes_of_follows {a c : String} (h : TransGen (g.Follows inlined) a c) :
    ∃ n ∈ g.referencesOf a, ReflTransGen (g.Passes (· ∈ inlined)) (normal n) c := by
  induction h using TransGen.head_induction_on with
  | single hstep =>
    obtain ⟨-, n, hn, rfl⟩ := hstep
    exact ⟨n, hn, .refl⟩
  | head hstep _ ih =>
    obtain ⟨hin, n, hn, rfl⟩ := hstep
    obtain ⟨m, hm, hpath⟩ := ih
    exact ⟨n, hn, .head ⟨hin, m, hm, rfl⟩ hpath⟩

theorem follows_of_passes {b c : String} (hc : c ∈ inlined)
    (h : ReflTransGen (g.Passes (· ∈ inlined)) b c) :
    ∀ a, (∃ n ∈ g.referencesOf a, normal n = b) → TransGen (g.Follows inlined) a c := by
  induction h using ReflTransGen.head_induction_on with
  | refl => exact fun a ha ↦ .single ⟨hc, ha⟩
  | @head b _ hstep _ ih => exact fun a ha ↦ .head ⟨hstep.1, ha⟩ (ih b hstep.2)

theorem not_transGen_of_reachesItself (h : g.reachesItself inlined name = false) :
    ¬ TransGen (g.Follows inlined) name name := by
  intro hcircle
  rw [reachesItself_iff_passes.2 (exists_passes_of_follows hcircle)] at h
  cases h

theorem reachesItself_eq_false (hname : name ∈ inlined) :
    g.reachesItself inlined name = false ↔ ¬ TransGen (g.Follows inlined) name name := by
  refine ⟨not_transGen_of_reachesItself, fun hcircle ↦ ?_⟩
  rw [← Bool.not_eq_true, reachesItself_iff_passes]
  rintro ⟨n, hn, hpath⟩
  exact hcircle (follows_of_passes hname hpath name ⟨n, hn, rfl⟩)

/-- A rule that refers to no inlined rule does not come back to itself. -/
theorem reachesItself_of_forall (hname : name ∈ inlined)
    (h : ∀ n ∈ g.referencesOf name, normal n ∉ inlined) :
    g.reachesItself inlined name = false := by
  refine (reachesItself_eq_false hname).2 fun hcircle ↦ ?_
  obtain ⟨_, ⟨hin, n, hn, rfl⟩, -⟩ := TransGen.head'_iff.1 hcircle
  exact h n hn hin

end Grammar

end AbnfCompiler
