import AbnfCompiler.Proofs.Compilation.Definitions
import AbnfCompiler.Proofs.Session.Circle

/-!
Rules that are inlined one after the other, each by a fix of its own. Whether this can be done is a
question about all of them together, so that their order does not matter: where a rule would close
a circle with others that are inlined after it, the last of these is refused.
-/
namespace AbnfCompiler

open RuleName Relation

variable {ds : List Definition} {s s' s₀ last : Session} {d : Diagnostic} {r name : String}
  {names names' : List String} {row row' : List Diagnostic} {tree : SyntaxTree}

theorem circle_congr (h : ∀ n, n ∈ names ↔ n ∈ names') :
    TransGen (Refers ds names) name name ↔ TransGen (Refers ds names') name name := by
  have hmono {xs ys : List String} (hsub : xs ⊆ ys) :
      TransGen (Refers ds xs) name name → TransGen (Refers ds ys) name name :=
    TransGen.mono (fun _ _ ↦ Refers.mono hsub) name name
  exact ⟨hmono fun n ↦ (h n).1, hmono fun n ↦ (h n).2⟩

/-- The diagnostic reports a single rule, as one that matches the empty string. -/
def Diagnostic.ReportsOne (d : Diagnostic) : Prop := d.kind = .emptyMatch ∧ ∃ r, d.rules = [r]

namespace Session

/-- The session with further inlined rules. -/
def inlining (s : Session) (names : List String) : Session :=
  { s with inlined := s.inlined ++ names }

theorem inlining_inlining (s : Session) (names names' : List String) :
    (s.inlining names).inlining names' = s.inlining (names ++ names') := by
  rw [inlining, inlining, inlining, List.append_assoc]

/-- Rules that are not inlined can all be: they are defined, in no conflict group, and on no circle
with each other and with the inlined ones. -/
structure CanInline (ds : List Definition) (s : Session) (names : List String) : Prop where
  nodup : names.Nodup
  new : ∀ n ∈ names, n ∉ s.inlined
  known : ∀ n ∈ names, n ∈ ds.map Definition.name
  apart : ∀ n ∈ names, ∀ group ∈ s.conflicts, n ∉ group
  straight : ∀ n ∈ names, ¬ TransGen (Refers ds (s.inlined ++ names)) n n

theorem CanInline.perm (h : s.CanInline ds names) (hperm : names.Perm names') :
    s.CanInline ds names' where
  nodup := hperm.nodup_iff.1 h.nodup
  new n hn := h.new n (hperm.mem_iff.2 hn)
  known n hn := h.known n (hperm.mem_iff.2 hn)
  apart n hn := h.apart n (hperm.mem_iff.2 hn)
  straight n hn := by
    have hmem : ∀ m, m ∈ s.inlined ++ names ↔ m ∈ s.inlined ++ names' :=
      fun _ ↦ (hperm.append_left s.inlined).mem_iff
    exact (circle_congr hmem).not.1 (h.straight n (hperm.mem_iff.2 hn))

theorem canInline_cons : s.CanInline ds (name :: names) ↔
    s.CanInline ds [name] ∧ (s.inlining [name]).CanInline ds names := by
  have happend : s.inlined ++ [name] ++ names = s.inlined ++ name :: names := by simp
  constructor
  · intro h
    obtain ⟨hfresh, hnodup⟩ := List.nodup_cons.1 h.nodup
    obtain ⟨hnew, hnews⟩ := List.forall_mem_cons.1 h.new
    obtain ⟨hknown, hknowns⟩ := List.forall_mem_cons.1 h.known
    obtain ⟨hapart, haparts⟩ := List.forall_mem_cons.1 h.apart
    obtain ⟨hstraight, hstraights⟩ := List.forall_mem_cons.1 h.straight
    constructor
    · refine ⟨List.nodup_singleton name, List.forall_mem_singleton.2 hnew,
        List.forall_mem_singleton.2 hknown, List.forall_mem_singleton.2 hapart,
        List.forall_mem_singleton.2 fun hcircle ↦ hstraight ?_⟩
      refine TransGen.mono (fun _ _ ↦ Refers.mono ?_) _ _ hcircle
      rw [← happend]
      exact List.subset_append_left _ _
    · refine ⟨hnodup, fun n hn hin ↦ ?_, hknowns, haparts, ?_⟩
      · rcases List.mem_append.1 hin with hin | hin
        · exact hnews n hn hin
        · rw [List.mem_singleton.1 hin] at hn
          exact hfresh hn
      · rw [inlining, happend]
        exact hstraights
  · rintro ⟨hone, hrest⟩
    have hstraights := hrest.straight
    rw [inlining, happend] at hstraights
    refine ⟨List.nodup_cons.2 ⟨fun hin ↦ ?_, hrest.nodup⟩, List.forall_mem_cons.2 ⟨?_, ?_⟩,
      List.forall_mem_cons.2 ⟨hone.known name (List.mem_singleton_self _), hrest.known⟩,
      List.forall_mem_cons.2 ⟨hone.apart name (List.mem_singleton_self _), hrest.apart⟩,
      List.forall_mem_cons.2 ⟨fun hcircle ↦ ?_, hstraights⟩⟩
    · exact hrest.new name hin (List.mem_append_right _ (List.mem_singleton_self _))
    · exact hone.new name (List.mem_singleton_self _)
    · exact fun n hn hin ↦ hrest.new n hn (List.mem_append_left _ hin)
    · -- A later rule on the circle would have been refused; without one, this rule was.
      rw [← happend] at hcircle hstraights
      exact hone.straight name (List.mem_singleton_self _) (circle_of_append hcircle hstraights)

section Row

/-- The session after a fix for every diagnostic of a row, each with the grammar that the tree is
compiled to for the session at its time. -/
def mended? (tree : SyntaxTree) (s : Session) (row : List Diagnostic) : Option Session :=
  row.foldlM (fun s d ↦ do
    let ds ← (Compilation.definitions tree s.withCore).result.toOption
    s.fix? d (some (s.grammar ds))) s

def reported (s : Session) (row : List Diagnostic) : List String :=
  row.flatMap fun d ↦ d.rules.map s.ruleOf

theorem reported_inlining (s : Session) (names : List String) (row : List Diagnostic) :
    (s.inlining names).reported row = s.reported row := by
  have hhidden : (s.inlining names).hidden = s.hidden := rfl
  rw [reported, reported, ruleOf_congr hhidden]

theorem obstacle?_eq_none_iff (hnodup : (ds.map Definition.name).Nodup)
    (hkind : d.kind = .emptyMatch) (hrules : d.rules = [r]) :
    s.obstacle? d (some (s₀.grammar ds)) = none ↔
      (∀ group ∈ s.conflicts, s.ruleOf r ∉ group) ∧
        ¬ TransGen (Refers ds (s.inlined ++ [s.ruleOf r])) (s.ruleOf r) (s.ruleOf r) := by
  rw [obstacle?_eq_none hkind, hrules]
  simp only [List.forall_mem_singleton, List.map_cons, List.map_nil]
  rw [Grammar.reachesItself_eq_false (List.mem_append_right _ (List.mem_singleton_self _)),
    circle_iff hnodup]

theorem fix?_eq_some (hnodup : (ds.map Definition.name).Nodup) (hs : s.InNormalForm)
    (hkind : d.kind = .emptyMatch) (hrules : d.rules = [r]) :
    s.fix? d (some (s₀.grammar ds)) = some s' ↔
      s.CanInline ds [s.ruleOf r] ∧ s' = s.inlining [s.ruleOf r] := by
  have hamended (hnew : s.ruleOf r ∉ s.inlined) : s.amended d = s.inlining [s.ruleOf r] := by
    rw [amended, if_pos hkind, hrules, foldl_withInlined]
    simp only [List.map_cons, List.map_nil, List.foldl_cons, List.foldl_nil, normal_ruleOf hs,
      addNew, if_neg hnew]
    rfl
  have hself : s.amended d ≠ s ↔ s.ruleOf r ∉ s.inlined := by
    rw [Ne, amended_eq_self, if_pos hkind, hrules, List.forall_mem_singleton, normal_ruleOf hs]
  have hknows : s.knows d (s₀.grammar ds) ↔ s.ruleOf r ∈ ds.map Definition.name := by
    rw [knows_grammar, hrules, List.forall_mem_singleton]
  rw [fix?, Option.ite_none_right_eq_some, obstacle?_eq_none_iff hnodup hkind hrules, hself,
    Option.all_some, hknows]
  constructor
  · rintro ⟨⟨-, -, ⟨hapart, hstraight⟩, hknown, hnew⟩, heq⟩
    refine ⟨⟨List.nodup_singleton _, List.forall_mem_singleton.2 hnew,
      List.forall_mem_singleton.2 hknown, List.forall_mem_singleton.2 hapart,
      List.forall_mem_singleton.2 hstraight⟩, ?_⟩
    rw [← Option.some_inj.1 heq, hamended hnew]
  · rintro ⟨hcan, rfl⟩
    have hmem := List.mem_singleton_self (s.ruleOf r)
    have hnew := hcan.new _ hmem
    refine ⟨⟨?_, ?_, ⟨hcan.apart _ hmem, hcan.straight _ hmem⟩, hcan.known _ hmem, hnew⟩, ?_⟩
    · rw [hkind]
      rfl
    · rw [hrules]
      exact List.cons_ne_nil _ _
    · rw [hamended hnew]

/-- A row of fixes succeeds just when all its rules together can be inlined. -/
theorem mended?_cons (hds : (Compilation.definitions tree s.withCore).result = .ok ds) :
    mended? tree s (d :: row)
      = (s.fix? d (some (s.grammar ds))).bind fun s' ↦ mended? tree s' row := by
  rw [mended?, List.foldlM_cons, hds]
  rfl

theorem mended?_eq_some (hs : s.InNormalForm)
    (hds : (Compilation.definitions tree s.withCore).result = .ok ds)
    (hrow : ∀ d ∈ row, d.ReportsOne) :
    mended? tree s row = some last ↔
      s.CanInline ds (s.reported row) ∧ last = s.inlining (s.reported row) := by
  have hnodup := Compilation.nodup_of_definitions hds
  induction row generalizing s with
  | nil =>
    have hnone : s.CanInline ds [] := ⟨.nil, nofun, nofun, nofun, nofun⟩
    have hself : s.inlining [] = s := by rw [inlining, List.append_nil]
    rw [reported, List.flatMap_nil, hself, and_iff_right hnone, eq_comm (a := last)]
    exact Option.some_inj
  | cons d row ih =>
    obtain ⟨⟨hkind, r, hrules⟩, hrow⟩ := List.forall_mem_cons.1 hrow
    have hfirst : s.reported (d :: row) = s.ruleOf r :: s.reported row := by
      rw [reported, List.flatMap_cons, hrules]
      rfl
    rw [mended?_cons hds, Option.bind_eq_some_iff, hfirst, canInline_cons]
    constructor
    · rintro ⟨s', hfix, hrest⟩
      have hs' := hs.fix? hfix
      obtain ⟨hone, rfl⟩ := (fix?_eq_some hnodup hs hkind hrules).1 hfix
      obtain ⟨hcan, hlast⟩ := (ih hs' hds hrow).1 hrest
      rw [reported_inlining] at hcan hlast
      rw [inlining_inlining] at hlast
      exact ⟨⟨hone, hcan⟩, hlast⟩
    · rintro ⟨⟨hone, hcan⟩, rfl⟩
      have hfix : s.fix? d (some (s.grammar ds)) = some (s.inlining [s.ruleOf r]) :=
        (fix?_eq_some hnodup hs hkind hrules).2 ⟨hone, rfl⟩
      refine ⟨_, hfix, (ih (hs.fix? hfix) hds hrow).2 ?_⟩
      rw [reported_inlining, inlining_inlining]
      exact ⟨hcan, rfl⟩

/-- The order of the inlined rules makes no difference to the grammar. -/
theorem grammar_congr (hsame : s' = { s with inlined := s'.inlined })
    (hinlined : s'.inlined.Perm s.inlined) : s'.grammar ds = s.grammar ds := by
  have hrules : ∀ d ∈ ds, d.toRule s.hidden s'.inlined = d.toRule s.hidden s.inlined := by
    intro d _
    have hcontains : s'.inlined.contains d.name = s.inlined.contains d.name := by
      rw [Bool.eq_iff_iff, List.contains_iff_mem, List.contains_iff_mem, hinlined.mem_iff]
    rw [Definition.toRule, Definition.toRule, hcontains]
  rw [hsame, grammar, grammar, List.map_congr_left hrules]

/-- Fixes that inline one rule each may be done in any order. All orders inline the same rules and
give the same text. -/
theorem mended?_of_perm (hs : s.InNormalForm)
    (hds : (Compilation.definitions tree s.withCore).result = .ok ds)
    (hrow : ∀ d ∈ row, d.ReportsOne) (hperm : row.Perm row')
    (h : mended? tree s row = some last) :
    ∃ last', mended? tree s row' = some last' ∧ last'.inlined.Perm last.inlined ∧
      last' = { last with inlined := last'.inlined } ∧
      (Compilation.definitions tree last.withCore).result = .ok ds ∧
      (last'.grammar ds).render = (last.grammar ds).render := by
  have hrow' : ∀ d ∈ row', d.ReportsOne := fun d hd ↦ hrow d (hperm.mem_iff.2 hd)
  have hreported : (s.reported row).Perm (s.reported row') := hperm.flatMap_right _
  obtain ⟨hcan, rfl⟩ := (mended?_eq_some hs hds hrow).1 h
  have hinlined := (hreported.append_left s.inlined).symm
  refine ⟨_, (mended?_eq_some hs hds hrow').2 ⟨hcan.perm hreported, rfl⟩, hinlined, rfl, hds, ?_⟩
  rw [grammar_congr (s := s.inlining (s.reported row)) rfl hinlined]

end Row

section Instances

/-- The rules `a = b` and `b = "x"`. -/
def chainTree : SyntaxTree :=
  .branch "rulelist"
    [.branch "rule" [.leaf "rulename" "a", .leaf "defined_as" "=",
      .branch "elements" [.branch "element" [.leaf "rulename" "b"]]],
    .branch "rule" [.leaf "rulename" "b", .leaf "defined_as" "=",
      .branch "elements" [.leaf "quoted_string" "\"x\""]]]

def chainDefinitions : List Definition :=
  [⟨"a", .reference "b", [], false⟩, ⟨"b", .text "x", [], false⟩]

def chainSession : Session :=
  { source := .ofText "chain.abnf", location := .ofText "build", start := "a", language := "chain" }

theorem straight_chain (names : List String) (n : String) :
    ¬ TransGen (Refers chainDefinitions names) n n := by
  have hedge : ∀ x y, Refers chainDefinitions names x y → x = "a" ∧ y = "b" := by
    rintro x y ⟨-, -, -, d, hd, rfl, m, hm, rfl⟩
    rcases List.mem_cons.1 hd with rfl | hd
    · rw [List.mem_singleton.1 hm]
      exact ⟨rfl, by decide⟩
    · rw [List.mem_singleton.1 hd] at hm
      cases hm
  intro hcircle
  obtain ⟨_, hfirst, -⟩ := TransGen.head'_iff.1 hcircle
  obtain ⟨_, -, hlast⟩ := TransGen.tail'_iff.1 hcircle
  have heq := (hedge _ _ hfirst).1.symm.trans (hedge _ _ hlast).2
  exact absurd heq (by decide)

/-- The rule that refers to the other one may be inlined first or last. -/
theorem mended?_chain : ∃ last',
    mended? chainTree chainSession
      [{ kind := .emptyMatch, rules := ["b"] }, { kind := .emptyMatch, rules := ["a"] }]
        = some last' ∧
      (last'.grammar chainDefinitions).render
        = ((chainSession.inlining ["a", "b"]).grammar chainDefinitions).render := by
  have hcompiled : (Compilation.definitions chainTree false).result = .ok chainDefinitions := rfl
  have hs : chainSession.InNormalForm := ⟨by decide, nofun, nofun, nofun⟩
  have hone (r : String) : Diagnostic.ReportsOne { kind := .emptyMatch, rules := [r] } :=
    ⟨rfl, r, rfl⟩
  have hrow : ∀ d ∈ ([{ kind := .emptyMatch, rules := ["a"] },
      { kind := .emptyMatch, rules := ["b"] }] : List Diagnostic), d.ReportsOne :=
    List.forall_mem_cons.2 ⟨hone "a", List.forall_mem_singleton.2 (hone "b")⟩
  have hcan : chainSession.CanInline chainDefinitions ["a", "b"] :=
    ⟨by decide, nofun, by decide, nofun, fun n _ ↦ straight_chain _ n⟩
  have hmended := (mended?_eq_some hs hcompiled hrow).2 ⟨hcan, rfl⟩
  obtain ⟨last', hlast', -, -, -, hrender⟩ :=
    mended?_of_perm hs hcompiled hrow (List.Perm.swap _ _ _) hmended
  exact ⟨last', hlast', hrender⟩

end Instances

end Session

end AbnfCompiler
