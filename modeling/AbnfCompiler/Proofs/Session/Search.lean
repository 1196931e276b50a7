import AbnfCompiler.Proofs.Session.Reach

/-!
The search of a rule for itself ends, and it finds the rule exactly if references lead from the rule
back to it over defined and inlined rules. Since a rule is followed once, the search looks at no
reference of the grammar twice, and this bounds its turns.
-/
namespace AbnfCompiler

open RuleName Relation

namespace Expression

/-- An expression refers to a name, at whatever depth. -/
inductive Mentions (name : String) : Expression → Prop
  | reference : Mentions name (.reference name)
  | sequence {e : Expression} {items : List Expression} :
      e ∈ items → Mentions name e → Mentions name (.sequence items)
  | choice {e : Expression} {items : List Expression} :
      e ∈ items → Mentions name e → Mentions name (.choice items)
  | repetition {e : Expression} {bounds : Bounds} :
      Mentions name e → Mentions name (.repetition e bounds)
  | optional {e : Expression} : Mentions name e → Mentions name (.optional e)

variable {name : String}

mutual

theorem mentions_of_mem : ∀ {e : Expression}, name ∈ e.references → e.Mentions name
  | .reference _, h => List.mem_singleton.1 h ▸ .reference
  | .literal _, h | .charClass _, h => nomatch h
  | .sequence _, h =>
    have ⟨_, he, hmentions⟩ := exists_mentions_of_mem h
    .sequence he hmentions
  | .choice _, h =>
    have ⟨_, he, hmentions⟩ := exists_mentions_of_mem h
    .choice he hmentions
  | .repetition _ _, h => .repetition (mentions_of_mem h)
  | .optional _, h => .optional (mentions_of_mem h)

theorem exists_mentions_of_mem : ∀ {es : List Expression}, name ∈ referencesAll es →
    ∃ e ∈ es, e.Mentions name
  | e :: es, h => by
    rcases List.mem_append.1 h with h | h
    · exact ⟨e, List.mem_cons_self, mentions_of_mem h⟩
    · obtain ⟨e', he', hmentions⟩ := exists_mentions_of_mem h
      exact ⟨e', List.mem_cons_of_mem _ he', hmentions⟩

end

theorem mem_references {e : Expression} : name ∈ e.references ↔ e.Mentions name := by
  refine ⟨mentions_of_mem, fun h ↦ ?_⟩
  induction h with
  | reference => exact List.mem_singleton_self _
  | sequence he _ ih | choice he _ ih =>
    rw [references, referencesAll_eq_flatMap]
    exact List.mem_flatMap_of_mem he ih
  | repetition _ ih | optional _ ih => exact ih

end Expression

namespace Grammar

/-- A rule refers to another one, in whatever spelling of its name. -/
def RefersTo (g : Grammar) (a b : String) : Prop :=
  ∃ r ∈ g.rules, r.name = a ∧ ∃ n, r.body.Mentions n ∧ normal n = b

/-- One or more references lead from a rule to another one. All rules between the two are defined
and inlined. -/
inductive LeadsTo (g : Grammar) (inlined : List String) : String → String → Prop
  | direct {a b : String} : g.RefersTo a b → LeadsTo g inlined a b
  | through {a b c : String} : g.RefersTo a b → b ∈ g.ruleNames → b ∈ inlined →
      LeadsTo g inlined b c → LeadsTo g inlined a c

variable {g : Grammar} {inlined : List String} {a b c : String}

theorem RefersTo.mem_ruleNames (h : g.RefersTo a b) : a ∈ g.ruleNames := by
  obtain ⟨r, hr, rfl, -⟩ := h
  exact List.mem_map_of_mem hr

theorem LeadsTo.mem_ruleNames (h : g.LeadsTo inlined a b) : a ∈ g.ruleNames := by
  cases h with
  | direct hrefers => exact hrefers.mem_ruleNames
  | through hrefers => exact hrefers.mem_ruleNames

theorem refersTo_iff (hnodup : g.ruleNames.Nodup) :
    g.RefersTo a b ↔ ∃ n ∈ g.referencesOf a, normal n = b := by
  simp only [RefersTo, mem_referencesOf hnodup, Expression.mem_references]
  constructor
  · rintro ⟨r, hr, hname, n, hn, hnormal⟩
    exact ⟨n, ⟨r, hr, hname, hn⟩, hnormal⟩
  · rintro ⟨n, ⟨r, hr, hname, hn⟩, hnormal⟩
    exact ⟨r, hr, hname, n, hn, hnormal⟩

theorem leadsTo_of_passes (hnodup : g.ruleNames.Nodup) (ha : g.RefersTo a b)
    (h : ReflTransGen (g.Passes (· ∈ inlined)) b c) : g.LeadsTo inlined a c := by
  induction h using ReflTransGen.head_induction_on generalizing a with
  | refl => exact .direct ha
  | head hstep _ ih =>
    obtain ⟨hin, hrefers⟩ := hstep
    rw [← refersTo_iff hnodup] at hrefers
    exact .through ha hrefers.mem_ruleNames hin (ih hrefers)

theorem leadsTo_iff (hnodup : g.ruleNames.Nodup) : g.LeadsTo inlined a c ↔
    ∃ n ∈ g.referencesOf a, ReflTransGen (g.Passes (· ∈ inlined)) (normal n) c := by
  constructor
  · intro h
    induction h with
    | direct hrefers =>
      obtain ⟨n, hn, rfl⟩ := (refersTo_iff hnodup).1 hrefers
      exact ⟨n, hn, .refl⟩
    | through hrefers _ hin _ ih =>
      obtain ⟨n, hn, rfl⟩ := (refersTo_iff hnodup).1 hrefers
      obtain ⟨m, hm, hpath⟩ := ih
      exact ⟨n, hn, .head ⟨hin, m, hm, rfl⟩ hpath⟩
  · rintro ⟨n, hn, hpath⟩
    exact leadsTo_of_passes hnodup ((refersTo_iff hnodup).2 ⟨n, hn, rfl⟩) hpath

end Grammar

namespace Search

variable {g : Grammar} {inlined : List String} {name : String} {s : Search}

/-- The answer of a search that has only some turns left; there is none if they do not suffice. -/
def answerWithin (g : Grammar) (inlined : List String) (name : String) : ℕ → Search → Option Bool
  | 0, _ => none
  | turns + 1, s =>
    match s.turn g inlined name with
    | .inl found => some found
    | .inr next => answerWithin g inlined name turns next

theorem answerWithin_of_lt {turns : ℕ} (h : s.ahead g inlined name < turns) :
    s.answerWithin g inlined name turns = some (s.answer g inlined name) := by
  induction turns generalizing s with
  | zero => exact absurd h (Nat.not_lt_zero _)
  | succ turns ih =>
    rw [answerWithin]
    cases hturn : s.turn g inlined name with
    | inl found => rw [answer_of_turn_inl hturn]
    | inr next =>
      rw [answer_of_turn_inr hturn]
      exact ih (Nat.lt_of_lt_of_le (ahead_lt hturn) (Nat.lt_succ_iff.1 h))

theorem ahead_start_le (g : Grammar) (inlined : List String) (name : String) :
    (start g name).ahead g inlined name ≤ (g.rules.flatMap fun r ↦ r.body.references).length := by
  have hall : (g.rules.flatMap fun r ↦ r.body.references).length
      = g.referenceCount fun _ ↦ true := by
    rw [Grammar.referenceCount, List.filter_true]
  rw [hall, ahead, start, List.length_reverse]
  exact g.length_referencesOf_add_le name (fun _ _ ↦ rfl) (by simp) rfl

end Search

namespace Grammar

variable {g : Grammar}

/-- The search of a rule for itself ends within one turn more than the grammar has references. It
finds the rule exactly if the rule is defined and references lead back to it over defined and
inlined rules. -/
theorem reachesItself_exact (hnodup : g.ruleNames.Nodup) (inlined : List String) (name : String) :
    (∀ turns, (g.rules.flatMap fun r ↦ r.body.references).length < turns →
      (Search.start g name).answerWithin g inlined name turns
        = some (g.reachesItself inlined name)) ∧
    (g.reachesItself inlined name = true ↔
      name ∈ g.ruleNames ∧ g.LeadsTo inlined name name) := by
  constructor
  · intro turns h
    exact Search.answerWithin_of_lt (Nat.lt_of_le_of_lt (Search.ahead_start_le g inlined name) h)
  · rw [reachesItself_iff_passes, ← leadsTo_iff hnodup]
    exact ⟨fun h ↦ ⟨h.mem_ruleNames, h⟩, And.right⟩

section Instances

/-- The first three rules form a ring. The second one also refers to itself, and the first one to a
rule that is not defined. The last two rules refer to each other. -/
def knotGrammar : Grammar where
  name := "knot"
  start := "a"
  rules := [
    { name := "a"
      body := .sequence [.repetition (.choice [.reference "lost", .optional (.reference " b-b ")])
        (.atLeast 0), .text "."] },
    { name := "b_b", body := .choice [.reference "c", .reference "b-b"] },
    { name := "c", body := .optional (.reference "a") },
    { name := "d", body := .sequence [.reference "e", .reference "c"] },
    { name := "e", body := .reference "d" }]

/-- A rule of the ring comes back to itself when the other two are inlined. A rule that refers back
over one that is not inlined does not. -/
theorem reachesItself_knotGrammar :
    knotGrammar.ruleNames.Nodup ∧
      (Search.start knotGrammar "a").answerWithin knotGrammar ["lost", "b_b", "c"] "a" 9
        = some true ∧
      knotGrammar.LeadsTo ["lost", "b_b", "c"] "a" "a" ∧
      (Search.start knotGrammar "d").answerWithin knotGrammar ["lost", "b_b", "c"] "d" 9
        = some false ∧
      ¬ knotGrammar.LeadsTo ["lost", "b_b", "c"] "d" "d" := by
  have hnodup : knotGrammar.ruleNames.Nodup := by decide
  have hback : (Search.start knotGrammar "a").answerWithin knotGrammar ["lost", "b_b", "c"] "a" 9
      = some true := by decide
  have hapart : (Search.start knotGrammar "d").answerWithin knotGrammar ["lost", "b_b", "c"] "d" 9
      = some false := by decide
  have ha := reachesItself_exact hnodup ["lost", "b_b", "c"] "a"
  have hd := reachesItself_exact hnodup ["lost", "b_b", "c"] "d"
  have hfound := Option.some.inj ((ha.1 9 (by decide)).symm.trans hback)
  have hmissed := Option.some.inj ((hd.1 9 (by decide)).symm.trans hapart)
  refine ⟨hnodup, hback, (ha.2.1 hfound).2, hapart, fun hleads ↦ ?_⟩
  rw [hd.2.2 ⟨by decide, hleads⟩] at hmissed
  cases hmissed

end Instances

end Grammar

end AbnfCompiler
