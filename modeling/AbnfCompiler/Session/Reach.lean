import AbnfCompiler.Grammar.Basic

/-!
Which rules come back to themselves when inlined rules are put in the place of their names. A search
for a rule takes names from a stack and follows the inlined ones, each of them once.
-/
namespace AbnfCompiler

open RuleName

namespace Grammar

variable (g : Grammar)

/-- The names that a rule refers to; none if there is no such rule. -/
def referencesOf (rule : String) : List String :=
  ((g.rule? rule).map fun r ↦ r.body.references).getD []

/-- How many references the rules have whose names satisfy `p`. -/
def referenceCount (p : String → Bool) : Nat :=
  ((g.rules.filter fun r ↦ p r.name).flatMap fun r ↦ r.body.references).length

theorem length_flatMap_filter_le {α β : Type} (f : α → List β) {p q : α → Bool}
    (hpq : ∀ x, p x → q x) (xs : List α) :
    ((xs.filter p).flatMap f).length ≤ ((xs.filter q).flatMap f).length := by
  induction xs with
  | nil => exact Nat.le_refl _
  | cons x xs ih =>
    by_cases hp : p x
    · rw [List.filter_cons_of_pos hp, List.filter_cons_of_pos (hpq x hp), List.flatMap_cons,
        List.flatMap_cons, List.length_append, List.length_append]
      omega
    · rw [List.filter_cons_of_neg hp]
      by_cases hq : q x
      · rw [List.filter_cons_of_pos hq, List.flatMap_cons, List.length_append]
        omega
      · rwa [List.filter_cons_of_neg hq]

theorem add_length_flatMap_filter_le {α β : Type} (f : α → List β) {p q : α → Bool} {xs : List α}
    {x : α} (hpq : ∀ x, p x → q x) (hx : x ∈ xs) (hp : ¬ p x) (hq : q x) :
    (f x).length + ((xs.filter p).flatMap f).length ≤ ((xs.filter q).flatMap f).length := by
  obtain ⟨before, behind, rfl⟩ := List.append_of_mem hx
  have hbefore := length_flatMap_filter_le f hpq before
  have hbehind := length_flatMap_filter_le f hpq behind
  simp only [List.filter_append, List.filter_cons_of_neg hp, List.filter_cons_of_pos hq,
    List.flatMap_append, List.flatMap_cons, List.length_append]
  omega

theorem length_referencesOf_add_le {p q : String → Bool} (rule : String) (hpq : ∀ n, p n → q n)
    (hp : ¬ p rule) (hq : q rule) :
    (g.referencesOf rule).length + g.referenceCount p ≤ g.referenceCount q := by
  unfold referencesOf referenceCount
  cases hrule : g.rule? rule with
  | none =>
    rw [Option.map_none, Option.getD_none, List.length_nil, Nat.zero_add]
    exact length_flatMap_filter_le _ (fun r ↦ hpq r.name) g.rules
  | some r =>
    have hname : r.name = rule := by simpa using List.find?_some hrule
    subst hname
    exact add_length_flatMap_filter_le (fun r : Rule ↦ r.body.references) (fun r ↦ hpq r.name)
      (List.mem_of_find?_eq_some hrule) hp hq

end Grammar

/-- Where a search stands: the rules that were followed, and the names to look at, the next one in
front. -/
structure Search where
  followed : List String := []
  pending : List String

namespace Search

variable (g : Grammar) (inlined : List String) (name : String)

/-- The search for the rules that `name` refers to, before its first turn. -/
def start : Search := { pending := (g.referencesOf name).reverse }

/-- One turn of a search for `name`, in which the next name is looked at. The search has an answer
or goes on. -/
def turn (s : Search) : Bool ⊕ Search :=
  match s.pending with
  | [] => .inl false
  | target :: pending =>
    let rule := normal target
    if rule = name then .inl true
    else if rule ∈ inlined ∧ rule ∉ s.followed then
      .inr ⟨rule :: s.followed, (g.referencesOf rule).reverse ++ pending⟩
    else .inr ⟨s.followed, pending⟩

/-- All that a turn can do. -/
inductive Turns : Search → Bool ⊕ Search → Prop
  | exhausted {followed : List String} : Turns ⟨followed, []⟩ (.inl false)
  | found {followed pending : List String} {target : String} : normal target = name →
      Turns ⟨followed, target :: pending⟩ (.inl true)
  | follow {followed pending : List String} {target : String} :
      normal target ≠ name → normal target ∈ inlined → normal target ∉ followed →
      Turns ⟨followed, target :: pending⟩
        (.inr ⟨normal target :: followed, (g.referencesOf (normal target)).reverse ++ pending⟩)
  | skip {followed pending : List String} {target : String} :
      normal target ≠ name → ¬ (normal target ∈ inlined ∧ normal target ∉ followed) →
      Turns ⟨followed, target :: pending⟩ (.inr ⟨followed, pending⟩)

theorem turns_turn (s : Search) : Turns g inlined name s (s.turn g inlined name) := by
  obtain ⟨followed, pending⟩ := s
  cases pending with
  | nil => exact .exhausted
  | cons target pending =>
    unfold turn
    dsimp only
    split
    · next hname => exact .found hname
    · next hne =>
      split
      · next hopen => exact .follow hne hopen.1 hopen.2
      · next hclosed => exact .skip hne hclosed

/-- How many names the search can still come to look at: those on the stack, and those that the
rules refer to that may still be followed. -/
def ahead (s : Search) : Nat :=
  s.pending.length + g.referenceCount fun n ↦ n ∈ inlined ∧ n ≠ name ∧ n ∉ s.followed

theorem ahead_lt {g : Grammar} {inlined : List String} {name : String} {s s' : Search}
    (h : s.turn g inlined name = .inr s') : s'.ahead g inlined name < s.ahead g inlined name := by
  have hturn := turns_turn g inlined name s
  rw [h] at hturn
  cases hturn with
  | @follow followed pending target hne hin hnot =>
    -- What the stack gains by the followed rule is no longer counted among what may be followed.
    have hcount := g.length_referencesOf_add_le (normal target)
      (p := fun n ↦ n ∈ inlined ∧ n ≠ name ∧ n ∉ normal target :: followed)
      (q := fun n ↦ n ∈ inlined ∧ n ≠ name ∧ n ∉ followed)
      (by simp +contextual) (by simp) (by simp [hin, hne, hnot])
    simp only [ahead, List.length_append, List.length_reverse, List.length_cons]
    omega
  | skip => simp [ahead]

/-- What the search finds: whether `name` can be reached from the pending names. -/
def answer (s : Search) : Bool :=
  match _h : s.turn g inlined name with
  | .inl found => found
  | .inr next => next.answer
termination_by s.ahead g inlined name
decreasing_by exact ahead_lt _h

end Search

/-- Whether a rule refers to itself, directly or through inlined rules. -/
def Grammar.reachesItself (g : Grammar) (inlined : List String) (name : String) : Bool :=
  (Search.start g name).answer g inlined name

end AbnfCompiler
