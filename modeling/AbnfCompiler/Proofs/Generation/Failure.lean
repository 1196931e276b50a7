import AbnfCompiler.Generation.Batch
import AbnfCompiler.Proofs.Compilation.Failure
import AbnfCompiler.Proofs.Generation.Replay
import AbnfCompiler.Proofs.Generation.Turn
import AbnfCompiler.Proofs.Session.Rendering

/-!
The failures of a run that its grammar alone is not blamed for. There are two: the compilation ends
at a number that is no code point, and the text of the first grammar cannot be written. A grammar
that was written once can be written in every later attempt.
-/
namespace AbnfCompiler.Generation

open Compilation Run

theorem Failure.note?_compilation {f : Compilation.Failure} :
    (Failure.compilation f).note? = none ↔ f.IsStray := by
  cases f with
  | violation v => exact iff_of_false nofun fun h ↦ h v rfl
  | _ => exact iff_of_true rfl nofun

namespace Loop

variable {c : Loop} {reports : List Log.Entry} {ds : List Definition}
  {unsupported : List Unsupported} {tree : SyntaxTree} {s : Session} {site : Site}

theorem location_of_turn_inr {t t' : Turn} {site' : Site} {d : Diagnostic}
    (h : (c.turn reports ds unsupported t).exec site = (.ok (.inr (d, t')), site')) :
    t'.session.location = t.session.location := by
  rw [Session.eq_of_fix? (fix?_of_turn_inr h)]

/-- Once a turn was retried, the grammars of its folder can be written. -/
theorem Retries.admits {x y : Turn × Site} {row : List (Session × Diagnostic)}
    (h : c.Retries reports ds unsupported x row y) :
    y = x ∨ (c.Admits x.2.files x.1.session.location ∧
      c.Admits y.2.files y.1.session.location) := by
  induction h with
  | nil x => exact Or.inl rfl
  | @cons t t' site site' d row last hturn _ ih =>
    obtain ⟨hbefore, hafter⟩ := admits_of_turn_ok hturn
    have hlocation := location_of_turn_inr hturn
    refine Or.inr ⟨hbefore, ?_⟩
    rcases ih with rfl | ⟨-, hlast⟩
    · rw [hlocation]
      exact hafter
    · exact hlast

/-- The tree comes to a hexadecimal value with a number that is no code point, or there is a text
of its first grammar and it cannot be written. -/
def Spoils (c : Loop) (tree : SyntaxTree) (s : Session) (files : Workspace) : Prop :=
  (∃ n, Compilation.Reaches tree n ∧ n.kind = "hex_val" ∧ HasStrayNumber (HexToken.ofTree n)) ∨
    ∃ ds text, (definitions tree s.withCore).result = .ok ds ∧
      (s.grammar ds).render = .ok text ∧ ¬ c.Admits files s.location

/-- The text of the first grammar cannot be written if that of the last one cannot. -/
theorem Retries.refused_iff {x y : Turn × Site} {row : List (Session × Diagnostic)}
    (h : c.Retries reports ds unsupported x row y) :
    (∃ text, (x.1.session.grammar ds).render = .ok text ∧
        ¬ c.Admits x.2.files x.1.session.location) ↔
      ∃ text, (y.1.session.grammar ds).render = .ok text ∧
        ¬ c.Admits y.2.files y.1.session.location := by
  rcases h.admits with rfl | ⟨hfirst, hlast⟩
  · rfl
  · refine iff_of_false ?_ ?_
    · rintro ⟨_, -, hnot⟩
      exact hnot hfirst
    · rintro ⟨_, -, hnot⟩
      exact hnot hlast

theorem spoils_of_ok (hds : (definitions tree s.withCore).result = .ok ds) (files : Workspace) :
    c.Spoils tree s files ↔
      ∃ text, (s.grammar ds).render = .ok text ∧ ¬ c.Admits files s.location := by
  have hstrays : Strays (definitions tree s.withCore) ↔ _ := strays_iff_reaches
  unfold Spoils
  rw [← hstrays, or_iff_right (not_strays_of_ok hds)]
  constructor
  · rintro ⟨ds', text, hds', h⟩
    obtain rfl : ds = ds' := Except.ok.inj (hds.symm.trans hds')
    exact ⟨text, h⟩
  · rintro ⟨text, h⟩
    exact ⟨ds, text, hds, h⟩

theorem spoils_of_error {f : Compilation.Failure}
    (hf : (definitions tree s.withCore).result = .error f) (files : Workspace) :
    c.Spoils tree s files ↔ f.IsStray := by
  have hstrays : Strays (definitions tree s.withCore) ↔ _ := strays_iff_reaches
  unfold Spoils
  rw [← hstrays, or_iff_left]
  · constructor
    · rintro ⟨f', hf', hstray⟩
      obtain rfl : f = f' := Except.error.inj (hf.symm.trans hf')
      exact hstray
    · exact fun hstray ↦ ⟨f, hf, hstray⟩
  · rintro ⟨ds, _, hds, -⟩
    rw [hf] at hds
    cases hds

theorem error_of_map {α β : Type} {x : Except Failure α} {f : α → β} {e : Failure}
    (h : x.map f = .error e) : x = .error e := by
  cases x with
  | ok a => cases h
  | error e' =>
    cases h
    rfl

theorem spoils_iff (c : Loop) (tree : SyntaxTree) (s : Session) (site : Site) :
    c.Spoils tree s site.files ↔
      ∃ cause last, (c.run tree s).exec site = (.error cause, last) ∧ cause.note? = none := by
  cases hcompiled : (definitions tree s.withCore).result with
  | error f =>
    obtain ⟨last, hrun, -⟩ := exec_run_of_error (c := c) hcompiled site
    rw [spoils_of_error hcompiled, hrun, ← Failure.note?_compilation]
    simp
  | ok ds =>
    obtain ⟨row, t, site', hreaches, result, last, hturn, hrun⟩ := exists_reaches c site hcompiled
    -- Only the end of the last turn is in question: those before it wrote their grammars.
    have hlast : c.Spoils tree s site.files ↔ ∃ text, (t.session.grammar ds).render = .ok text ∧
        ¬ c.Admits site'.files t.session.location :=
      (spoils_of_ok hcompiled _).trans (Retries.refused_iff hreaches)
    rw [hlast, hrun]
    obtain ⟨-, ⟨e, he, hx⟩ | ⟨text, htext, ⟨hadmits, e, hx⟩ | ⟨hadmits, -, hx⟩⟩⟩ := turn_cases hturn
    · have hrules := Session.isNormal_grammar (s := t.session) (isNormal_of_definitions hcompiled)
      rcases Grammar.render_of_isNormal hrules with ⟨f, -, hrender⟩ | ⟨-, hrender⟩
      · rw [he] at hrender
        cases hrender
        obtain rfl : result = .error (.rendering (.flaw f)) := error_of_map hx
        rw [he]
        refine iff_of_false nofun ?_
        rintro ⟨cause, last, heq, hnote⟩
        cases heq
        cases hnote
      · rw [he] at hrender
        cases hrender
    · obtain rfl : result = .error (.file e) := error_of_map hx
      exact iff_of_true ⟨text, htext, hadmits⟩ ⟨_, _, rfl, rfl⟩
    · refine iff_of_false ?_ ?_
      · rintro ⟨_, -, hnot⟩
        exact hnot hadmits
      · rintro ⟨cause, last, heq, hnote⟩
        cases heq
        rcases hx with ⟨_, _, _, hx⟩ | ⟨line, e, hx⟩
        · cases hx
        · cases hx
          cases hnote

end Loop

end AbnfCompiler.Generation
