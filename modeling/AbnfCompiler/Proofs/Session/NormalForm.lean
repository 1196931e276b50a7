import AbnfCompiler.Proofs.Grammar.Flaw
import AbnfCompiler.Proofs.RuleName
import AbnfCompiler.Session.Basic

/-!
Sessions with all names in normal form, as sessions are made. Whether the grammar of such a session
has a flaw is a question about its sets of names.
-/
namespace AbnfCompiler.Session

open RuleName

structure InNormalForm (s : Session) : Prop where
  start : normal s.start = s.start
  hidden : ∀ name ∈ s.hidden, normal name = name
  inlined : ∀ name ∈ s.inlined, normal name = name
  conflicts : ∀ group ∈ s.conflicts, ∀ name ∈ group, normal name = name

section Canonical

variable {α : Type} [DecidableEq α]

theorem mem_foldl_addNew {x : α} {xs acc : List α} :
    x ∈ xs.foldl addNew acc ↔ x ∈ acc ∨ x ∈ xs := by
  induction xs generalizing acc with
  | nil => simp
  | cons y ys ih => rw [List.foldl_cons, ih, mem_addNew, List.mem_cons, or_assoc]

theorem mem_distinct {x : α} {xs : List α} : x ∈ distinct xs ↔ x ∈ xs := by
  rw [distinct, mem_foldl_addNew]
  simp

theorem normal_of_mem_map {name : String} {names : List String} (h : name ∈ names.map normal) :
    normal name = name := by
  obtain ⟨n, -, rfl⟩ := List.mem_map.1 h
  exact normal_normal n

theorem normal_of_mem_groupOf {name : String} {names : List String} (h : name ∈ groupOf names) :
    normal name = name :=
  normal_of_mem_map (Text.Sorted.mem_ofList.1 h)

theorem inNormalForm_canonical (s : Session) : s.canonical.InNormalForm where
  start := normal_normal s.start
  hidden _ hname := normal_of_mem_map (mem_distinct.1 hname)
  inlined _ hname := normal_of_mem_map (mem_distinct.1 hname)
  conflicts group hgroup name hname := by
    obtain ⟨names, -, rfl⟩ := List.mem_map.1 (mem_distinct.1 hgroup)
    exact normal_of_mem_groupOf hname

end Canonical

section Grammar

variable {s : Session} {ds : List Definition} {name : String}

theorem of_resolve?_grammar {r : Rule} (hds : ∀ d ∈ ds, normal d.name = d.name)
    (hname : normal name = name) (h : (s.grammar ds).resolve? name = some r) :
    name ∈ ds.map Definition.name ∧ r.inlined = s.inlined.contains name := by
  obtain ⟨hmem, hnormal⟩ := Grammar.of_resolve?_eq_some h
  obtain ⟨d, hd, rfl⟩ := List.mem_map.1 hmem
  rw [hname] at hnormal
  have hdname : d.name = name := (hds d hd).symm.trans hnormal
  exact ⟨List.mem_map.2 ⟨d, hd, hdname⟩, by rw [← hdname]; rfl⟩

theorem exists_resolve?_grammar (h : name ∈ ds.map Definition.name) :
    ∃ r, (s.grammar ds).resolve? name = some r := by
  obtain ⟨d, hd, rfl⟩ := List.mem_map.1 h
  have hrule : d.toRule s.hidden s.inlined ∈ (s.grammar ds).rules.reverse :=
    List.mem_reverse.2 (List.mem_map.2 ⟨d, hd, rfl⟩)
  rw [← Option.isSome_iff_exists, Grammar.resolve?, List.find?_isSome]
  exact ⟨_, hrule, beq_self_eq_true _⟩

/-- The names of the rules are distinct, the start is among them, and so are the members of the
conflict groups, none of which is inlined. -/
theorem flaw?_grammar_eq_none (hds : ∀ d ∈ ds, normal d.name = d.name) (hs : s.InNormalForm) :
    (s.grammar ds).flaw? = none ↔ (ds.map Definition.name).Nodup ∧
      s.start ∈ ds.map Definition.name ∧
      ∀ group ∈ s.conflicts, ∀ name ∈ group, name ∈ ds.map Definition.name ∧ name ∉ s.inlined := by
  have hnames : (s.grammar ds).rules.map (fun r ↦ normal r.name) = ds.map Definition.name := by
    rw [grammar, List.map_map]
    exact List.map_congr_left hds
  rw [Grammar.flaw?_eq_none, hnames]
  refine and_congr_right fun _ ↦ and_congr ⟨?_, exists_resolve?_grammar⟩ ?_
  · rintro ⟨r, hr⟩
    exact (of_resolve?_grammar hds hs.start hr).1
  · apply forall₂_congr
    intro group hgroup
    apply forall₂_congr
    intro name hname
    have hnormal := hs.conflicts group hgroup name hname
    constructor
    · rintro ⟨r, hr, hinlined⟩
      obtain ⟨hmem, hcontains⟩ := of_resolve?_grammar hds hnormal hr
      rw [hinlined] at hcontains
      exact ⟨hmem, by simpa using hcontains.symm⟩
    · rintro ⟨hmem, hinlined⟩
      obtain ⟨r, hr⟩ := exists_resolve?_grammar (s := s) hmem
      obtain ⟨-, hcontains⟩ := of_resolve?_grammar hds hnormal hr
      exact ⟨r, hr, hcontains.trans (by simpa using hinlined)⟩

end Grammar

end AbnfCompiler.Session
