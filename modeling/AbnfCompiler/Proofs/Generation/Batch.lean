import AbnfCompiler.Proofs.Generation.Failure

/-!
Batches. A grammar that fails for a declared cause is aborted and the next one follows. There is an
exit code exactly if no grammar fails for another cause: then each grammar was tried once and in
order, and the code tells whether all of them came to a parser.
-/
namespace AbnfCompiler.Generation

open Log Run

section Attempts

variable {parser : Source.Parser} {site : Site} {path : Path}

/-- The tree that a parser makes of a source, if the source can be read. -/
def sourceTree? (parser : Source.Parser) (files : Workspace) (path : Path) : Option SyntaxTree := do
  let text ← (files.read path).toOption
  let root ← (parser text).root
  return root.resolve (Text.Utf8.encode text)

theorem exec_sourceTree (parser : Source.Parser) (path : Path) (site : Site) :
    (∃ tree next, sourceTree? parser site.files path = some tree ∧ next.files = site.files ∧
        (sourceTree parser path).exec site = (.ok tree, next)) ∨
      (sourceTree? parser site.files path = none ∧ ∃ e next, next.files = site.files ∧
        (sourceTree parser path).exec site = (.error (.source e), next)) := by
  unfold sourceTree sourceTree?
  rw [exec_get_bind]
  cases site.files.read path with
  | error fault => exact Or.inr ⟨rfl, _, site, rfl, rfl⟩
  | ok text =>
    simp only [Except.toOption, Option.bind_eq_bind, Option.bind_some]
    unfold Source.parse
    dsimp only
    cases (parser text).root with
    | none =>
      refine Or.inr ⟨rfl, _, _, ?_, rfl⟩
      rfl
    | some root =>
      refine Or.inl ⟨_, _, rfl, ?_, rfl⟩
      rfl

end Attempts

namespace Batch

variable (b : Batch) (parser : Source.Parser)

/-- The output after some lines were printed. -/
def said (texts : List String) (site : Site) : Site :=
  { site with lines := site.lines ++ texts.map Line.said }

def logged (entries : List Entry) (site : Site) : Site :=
  { site with lines := site.lines ++ entries.map Line.logged }

/-- Grammars tried one after the other. A failure for a declared cause is logged, and then the next
grammar follows as it does after a result. -/
inductive Course : Site → List (Configuration × Option Result) → Site → Prop
  | nil (site : Site) : Course site [] site
  | result {site next last : Site} {c : Configuration} {r : Result}
    {row : List (Configuration × Option Result)} :
    (b.loop.generate parser b.settings.buildRoot c).exec (said (heading c) site) = (.ok r, next) →
      Course next row last → Course site ((c, some r) :: row) last
  | aborted {site next last : Site} {c : Configuration} {cause : Failure} {note : ErrorNote}
    {row : List (Configuration × Option Result)} :
    (b.loop.generate parser b.settings.buildRoot c).exec (said (heading c) site)
        = (.error cause, next) →
      cause.note? = some note → Course (logged [aborted c.language note] next) row last →
      Course site ((c, none) :: row) last

def results (row : List (Configuration × Option Result)) : List Result := row.filterMap (·.2)

def abortedNames (row : List (Configuration × Option Result)) : List String :=
  (row.filter (·.2.isNone)).map (·.1.language)

/-- The source of the grammar is read and parsed, and its run fails for no declared cause. -/
def Spoils (c : Configuration) (files : Workspace) : Prop :=
  ∃ tree, sourceTree? parser files (c.session b.settings.buildRoot).source = some tree ∧
    b.loop.Spoils tree (c.session b.settings.buildRoot) files

section Grammars

variable {b parser} {c : Configuration} {site next last : Site} {cause : Failure}
  {row : List (Configuration × Option Result)}

theorem exec_sayAll (texts : List String) (site : Site) :
    (sayAll texts).exec site = (.ok (), said texts site) := by
  induction texts generalizing site with
  | nil => simp [sayAll, said]
  | cons text texts ih =>
    have hcons : sayAll (text :: texts) = say text >>= fun _ ↦ sayAll texts := rfl
    have hsay : (say text).exec site = (.ok (), said [text] site) := rfl
    rw [hcons, exec_bind_of_ok hsay, ih]
    simp [said]

theorem exec_grammar_of_ok {r : Result}
    (h : (b.loop.generate parser b.settings.buildRoot c).exec (said (heading c) site)
      = (.ok r, next)) : (b.grammar parser c).exec site = (.ok (some r), next) := by
  unfold grammar
  rw [exec_bind_of_ok (exec_sayAll _ site)]
  refine exec_tryCatch_of_ok ?_ _
  rw [map_eq_pure_bind, exec_bind_of_ok h]
  rfl

theorem exec_grammar_of_error
    (h : (b.loop.generate parser b.settings.buildRoot c).exec (said (heading c) site)
      = (.error cause, next)) :
    (b.grammar parser c).exec site = match cause.note? with
      | some note => (.ok none, logged [aborted c.language note] next)
      | none => (.error cause, next) := by
  unfold grammar
  rw [exec_bind_of_ok (exec_sayAll _ site), exec_tryCatch_of_error]
  · cases cause.note? <;> rfl
  · rw [map_eq_pure_bind, exec_bind_of_error h]

theorem Course.eq_of_nil (h : b.Course parser site [] next) : next = site := by
  cases h
  rfl

theorem Course.of_cons {found : Option Result} (h : b.Course parser site ((c, found) :: row) last) :
    ∃ next, (b.grammar parser c).exec site = (.ok found, next) ∧ b.Course parser next row last := by
  cases h with
  | result hgenerate hrest => exact ⟨_, exec_grammar_of_ok hgenerate, hrest⟩
  | aborted hgenerate hnote hrest =>
    have hgrammar := exec_grammar_of_error hgenerate
    rw [hnote] at hgrammar
    exact ⟨_, hgrammar, hrest⟩

theorem exec_generate_of_none (b : Batch) (c : Configuration) (site : Site)
    (h : sourceTree? parser site.files (c.session b.settings.buildRoot).source = none) :
    ∃ e next, next.files = site.files ∧
      (b.loop.generate parser b.settings.buildRoot c).exec site = (.error (.source e), next) := by
  rcases exec_sourceTree parser (c.session b.settings.buildRoot).source site with
    ⟨tree, _, htree, -⟩ | ⟨-, e, next, hfiles, hexec⟩
  · rw [h] at htree
    cases htree
  · exact ⟨e, next, hfiles, exec_bind_of_error hexec _⟩

theorem spoils_iff (b : Batch) (parser : Source.Parser) (c : Configuration) (site : Site) :
    b.Spoils parser c site.files ↔ ∃ cause last,
      (b.loop.generate parser b.settings.buildRoot c).exec site = (.error cause, last) ∧
        cause.note? = none := by
  have hgenerate : b.loop.generate parser b.settings.buildRoot c
      = sourceTree parser (c.session b.settings.buildRoot).source >>= fun tree ↦
        b.loop.run tree (c.session b.settings.buildRoot) := rfl
  unfold Spoils
  rw [hgenerate]
  rcases exec_sourceTree parser (c.session b.settings.buildRoot).source site with
    ⟨tree, next, htree, hfiles, hexec⟩ | ⟨hnone, e, next, -, hexec⟩
  · rw [exec_bind_of_ok hexec, htree, ← Loop.spoils_iff, hfiles]
    simp
  · rw [exec_bind_of_error hexec, hnone]
    refine iff_of_false nofun ?_
    rintro ⟨cause, last, heq, hnote⟩
    cases heq
    cases hnote

/-- What trying a grammar comes to: the next one follows, or the batch ends. -/
theorem exec_grammar_cases (b : Batch) (parser : Source.Parser) (c : Configuration) (site : Site) :
    (¬ b.Spoils parser c site.files ∧ ∃ found next,
        (b.grammar parser c).exec site = (.ok found, next) ∧
        ∀ row last, b.Course parser next row last → b.Course parser site ((c, found) :: row) last) ∨
      (b.Spoils parser c site.files ∧ ∃ cause last,
        (b.grammar parser c).exec site = (.error cause, last) ∧ cause.note? = none) := by
  have hspoils : b.Spoils parser c site.files ↔ _ := spoils_iff b parser c (said (heading c) site)
  match hgenerate : (b.loop.generate parser b.settings.buildRoot c).exec (said (heading c) site) with
  | (.ok r, next) =>
    refine Or.inl ⟨?_, some r, next, exec_grammar_of_ok hgenerate, fun _ _ ↦ .result hgenerate⟩
    rw [hspoils, hgenerate]
    simp
  | (.error cause, next) =>
    have hexec := exec_grammar_of_error hgenerate
    rw [hgenerate] at hspoils
    cases hnote : cause.note? with
    | some note =>
      rw [hnote] at hexec
      refine Or.inl ⟨?_, none, _, hexec, fun _ _ ↦ .aborted hgenerate hnote⟩
      rw [hspoils]
      rintro ⟨cause, _, heq, hnone⟩
      cases heq
      rw [hnote] at hnone
      cases hnone
    | none =>
      rw [hnote] at hexec
      exact Or.inr ⟨hspoils.2 ⟨cause, next, rfl, hnote⟩, cause, next, hexec, hnote⟩

theorem Course.exec_grammars (h : b.Course parser site row last) :
    (b.grammars parser (row.map Prod.fst)).exec site
      = (.ok (results row, abortedNames row), last) := by
  induction row generalizing site with
  | nil =>
    rw [h.eq_of_nil]
    rfl
  | cons p row ih =>
    obtain ⟨next, hgrammar, hrest⟩ := h.of_cons
    rw [List.map_cons, grammars, exec_bind_of_ok hgrammar, exec_bind_of_ok (ih hrest)]
    obtain ⟨c, _ | r⟩ := p <;> rfl

/-- A grammar without a source leaves the files as they are. -/
theorem Course.files_of_none {found : Option Result} (h : b.Course parser site [(c, found)] next)
    (hnone : sourceTree? parser site.files (c.session b.settings.buildRoot).source = none) :
    next.files = site.files := by
  obtain ⟨e, refused, hfiles, hrefused⟩ := exec_generate_of_none b c (said (heading c) site) hnone
  obtain ⟨between, hgrammar, hrest⟩ := h.of_cons
  rw [exec_grammar_of_error hrefused] at hgrammar
  cases hgrammar
  rw [hrest.eq_of_nil]
  exact hfiles

/-- A batch that comes to a grammar that spoils it ends there. -/
theorem Course.exec_grammars_of_spoils (h : b.Course parser site row next)
    (hspoils : b.Spoils parser c next.files) (cs : List Configuration) :
    ∃ cause last, (b.grammars parser (row.map Prod.fst ++ c :: cs)).exec site
      = (.error cause, last) ∧ cause.note? = none := by
  induction row generalizing site with
  | nil =>
    rw [h.eq_of_nil] at hspoils
    rcases exec_grammar_cases b parser c site with ⟨hnot, -⟩ | ⟨-, cause, last, hexec, hnote⟩
    · exact absurd hspoils hnot
    · exact ⟨cause, last, exec_bind_of_error hexec _, hnote⟩
  | cons p row ih =>
    obtain ⟨between, hgrammar, hrest⟩ := h.of_cons
    obtain ⟨cause, last, hexec, hnote⟩ := ih hrest
    refine ⟨cause, last, ?_, hnote⟩
    rw [List.map_cons, List.cons_append, grammars, exec_bind_of_ok hgrammar,
      exec_bind_of_error hexec]

/-- All grammars are tried, or the batch comes to one that spoils it. -/
theorem exists_course (b : Batch) (parser : Source.Parser) (cs : List Configuration)
    (site : Site) :
    (∃ row last, b.Course parser site row last ∧ row.map Prod.fst = cs) ∨
      ∃ row c rest next, cs = row.map Prod.fst ++ c :: rest ∧ b.Course parser site row next ∧
        b.Spoils parser c next.files := by
  induction cs generalizing site with
  | nil => exact Or.inl ⟨[], site, .nil site, rfl⟩
  | cons c cs ih =>
    rcases exec_grammar_cases b parser c site with ⟨-, found, next, -, hcons⟩ | ⟨hspoils, -⟩
    · rcases ih next with ⟨row, last, hcourse, rfl⟩ | ⟨row, c', rest, last, rfl, hcourse, hspoils⟩
      · exact Or.inl ⟨_, last, hcons row last hcourse, rfl⟩
      · exact Or.inr ⟨_, c', rest, last, rfl, hcons row last hcourse, hspoils⟩
    · exact Or.inr ⟨[], c, cs, site, rfl, .nil site, hspoils⟩

end Grammars

/-- What a batch gives at a site, and the site that it leaves behind. -/
def Step.exec {α : Type} (x : Step α) (site : Site) : Except Stop α × Site :=
  (ExceptT.run x).run site

section Steps

variable {α β : Type} {site next : Site} {e : Stop}

theorem exec_step_of_ok {x : Step α} {a : α} (h : x.exec site = (.ok a, next)) (f : α → Step β) :
    (x >>= f).exec site = (f a).exec next := by
  have hbind : (x >>= f).exec site
      = ExceptT.bindCont (m := StateM Site) f (x.exec site).1 (x.exec site).2 := rfl
  rw [hbind, h]
  rfl

theorem exec_step_of_error {x : Step α} (h : x.exec site = (.error e, next)) (f : α → Step β) :
    (x >>= f).exec site = (.error e, next) := by
  have hbind : (x >>= f).exec site
      = ExceptT.bindCont (m := StateM Site) f (x.exec site).1 (x.exec site).2 := rfl
  rw [hbind, h]
  rfl

theorem exec_get_step (f : Site → Step α) (site : Site) :
    ((getThe Site : Step Site) >>= f).exec site = (f site).exec site := rfl

theorem exec_lift (x : Run α) (site : Site) :
    (lift x).exec site = ((x.exec site).1.mapError Stop.failed, (x.exec site).2) := rfl

theorem exec_lift_of_ok {x : Run α} {a : α} (h : Run.exec x site = (.ok a, next)) :
    (lift x).exec site = (.ok a, next) := by
  rw [exec_lift, h]
  rfl

theorem exec_lift_of_error {x : Run α} {cause : Failure}
    (h : Run.exec x site = (.error cause, next)) :
    (lift x).exec site = (.error (.failed cause), next) := by
  rw [exec_lift, h]
  rfl

end Steps

section Batches

/-- What was printed and logged before the first grammar is tried. -/
def opened (site : Site) : Site :=
  logged (Source.ready :: Diagnostic.Classifier.bundledEntries)
    (logged (Configuration.load site.files b.settings.grammarsFile).trace (said banner site))

variable {b parser} {cs : List Configuration} {site : Site}

theorem exec_configurations?
    (hload : (Configuration.load site.files b.settings.grammarsFile).result = .ok cs) :
    b.configurations?.exec (said banner site) = (.ok (some cs),
      logged (Configuration.load site.files b.settings.grammarsFile).trace (said banner site)) := by
  have hfiles : (said banner site).files = site.files := rfl
  unfold configurations?
  rw [exec_get_step]
  simp only [hfiles]
  rw [exec_step_of_ok (exec_lift_of_ok (exec_logAll _ _)), hload]
  rfl

/-- Where a batch can start, it tries its grammars and prints the summary. -/
theorem exec_run (hload : (Configuration.load site.files b.settings.grammarsFile).result = .ok cs)
    (hparser : b.parser = .ok parser) {level : Int}
    (hlevel : threshold b.settings.logLevel = .ok level) (hcommand : b.settings.command ≠ []) :
    b.run.exec site = match (b.grammars parser cs).exec (b.opened site) with
      | (.ok (results, names), last) =>
        (.ok (if names.isEmpty && results.all Result.succeeded then 0 else 1),
          said (Summary.lines results names) last)
      | (.error cause, last) => (.error (.failed cause), last) := by
  have hready (site : Site) :
      (lift (Run.log Source.ready)).exec site = (.ok (), logged [Source.ready] site) := rfl
  have hentries (site : Site) :
      (lift (Run.logAll Diagnostic.Classifier.bundledEntries)).exec site
        = (.ok (), logged Diagnostic.Classifier.bundledEntries site) := rfl
  have hopened : logged Diagnostic.Classifier.bundledEntries (logged [Source.ready]
      (logged (Configuration.load site.files b.settings.grammarsFile).trace (said banner site)))
        = b.opened site := by
    simp [opened, logged]
  unfold run
  rw [hlevel]
  simp only
  rw [exec_step_of_ok (exec_lift_of_ok (exec_sayAll banner site)),
    exec_step_of_ok (exec_configurations? hload), hparser]
  simp only
  rw [exec_step_of_ok (hready _), if_neg (by simpa using hcommand), exec_step_of_ok (hentries _),
    hopened]
  match hgrammars : (b.grammars parser cs).exec (b.opened site) with
  | (.ok (results, names), last) =>
    rw [exec_step_of_ok (exec_lift_of_ok hgrammars)]
    simp only
    rw [exec_step_of_ok (exec_lift_of_ok (exec_sayAll _ last))]
    rfl
  | (.error cause, last) => rw [exec_step_of_error (exec_lift_of_error hgrammars)]

theorem exec_run_of_threshold {e : ThresholdError}
    (h : threshold b.settings.logLevel = .error e) :
    b.run.exec site = (.error (.threshold e), site) := by
  unfold run
  rw [h]
  rfl

theorem exec_run_of_noCommand
    (hload : (Configuration.load site.files b.settings.grammarsFile).result = .ok cs)
    (hparser : b.parser = .ok parser) {level : Int}
    (hlevel : threshold b.settings.logLevel = .ok level) (hcommand : b.settings.command = []) :
    (b.run.exec site).1 = .error .noCommand := by
  unfold run
  rw [hlevel]
  simp only
  rw [exec_step_of_ok (exec_lift_of_ok (exec_sayAll banner site)),
    exec_step_of_ok (exec_configurations? hload), hparser]
  simp only
  rw [hcommand]
  rfl

/-- The batch tries every grammar once and in order, prints the summary of the results and of the
grammars that were aborted, and ends with 1 if one was aborted or gave up, and else with 0. -/
def Finishes (b : Batch) (parser : Source.Parser) (cs : List Configuration) (site : Site) : Prop :=
  ∃ row last code, b.Course parser (b.opened site) row last ∧ row.map Prod.fst = cs ∧
    b.run.exec site
      = (.ok code, said (Summary.lines (results row) (abortedNames row)) last) ∧
    (code = 0 ∨ code = 1) ∧
    (code = 1 ↔ ∃ p ∈ row, ∀ r, p.2 = some r → r.phase ≠ .done)

theorem allSucceeded_iff (row : List (Configuration × Option Result)) :
    ((abortedNames row).isEmpty && (results row).all Result.succeeded) = true ↔
      ∀ p ∈ row, ∃ r, p.2 = some r ∧ r.phase = .done := by
  simp only [Bool.and_eq_true, List.isEmpty_iff, abortedNames, List.map_eq_nil_iff,
    List.filter_eq_nil_iff, List.all_eq_true, results, List.mem_filterMap, Result.succeeded,
    decide_eq_true_eq]
  constructor
  · rintro ⟨hsome, hdone⟩ p hp
    have hp' := hsome p hp
    rw [Bool.not_eq_true, Option.isNone_eq_false_iff] at hp'
    obtain ⟨r, hr⟩ := Option.isSome_iff_exists.1 hp'
    exact ⟨r, hr, hdone r ⟨p, hp, hr⟩⟩
  · intro h
    refine ⟨fun p hp ↦ ?_, ?_⟩
    · obtain ⟨r, hr, -⟩ := h p hp
      rw [hr]
      exact Bool.false_ne_true
    · rintro r ⟨p, hp, hr⟩
      obtain ⟨r', hr', hdone⟩ := h p hp
      rw [hr] at hr'
      cases hr'
      exact hdone

theorem Course.finishes {row : List (Configuration × Option Result)} {last : Site}
    (h : b.Course parser (b.opened site) row last)
    (hload : (Configuration.load site.files b.settings.grammarsFile).result
      = .ok (row.map Prod.fst))
    (hparser : b.parser = .ok parser) {level : Int}
    (hlevel : threshold b.settings.logLevel = .ok level) (hcommand : b.settings.command ≠ []) :
    b.Finishes parser (row.map Prod.fst) site := by
  have hrun := exec_run hload hparser hlevel hcommand
  rw [h.exec_grammars] at hrun
  refine ⟨row, last, _, h, rfl, hrun, ?_, ?_⟩
  · split
    · exact Or.inl rfl
    · exact Or.inr rfl
  · have hall := allSucceeded_iff row
    split
    · next hsucceeded =>
      refine iff_of_false Nat.zero_ne_one ?_
      rintro ⟨p, hp, hnot⟩
      obtain ⟨r, hr, hdone⟩ := hall.1 hsucceeded p hp
      exact hnot r hr hdone
    · next hsucceeded =>
      refine iff_of_true rfl ?_
      rw [hall] at hsucceeded
      push Not at hsucceeded
      exact hsucceeded

theorem Course.exec_run_of_spoils {row : List (Configuration × Option Result)}
    {c : Configuration} {rest : List Configuration} {next : Site}
    (h : b.Course parser (b.opened site) row next) (hspoils : b.Spoils parser c next.files)
    (hload : (Configuration.load site.files b.settings.grammarsFile).result
      = .ok (row.map Prod.fst ++ c :: rest))
    (hparser : b.parser = .ok parser) {level : Int}
    (hlevel : threshold b.settings.logLevel = .ok level) (hcommand : b.settings.command ≠ []) :
    ∃ cause last, b.run.exec site = (.error (.failed cause), last) ∧ cause.note? = none := by
  obtain ⟨cause, last, hexec, hnote⟩ := h.exec_grammars_of_spoils hspoils rest
  have hrun := exec_run hload hparser hlevel hcommand
  rw [hexec] at hrun
  exact ⟨cause, last, hrun, hnote⟩

theorem not_finishes_of_error {stop : Stop} (h : (b.run.exec site).1 = .error stop) :
    ¬ b.Finishes parser cs site := by
  rintro ⟨_, _, _, -, -, hrun, -⟩
  rw [hrun] at h
  cases h

/-- A batch whose grammars are loaded and whose parser is there tries them all and ends with the
exit code, unless its threshold is unknown, it has no command or it comes to a grammar that
spoils it; then it ends without one. -/
theorem finishes_iff
    (hload : (Configuration.load site.files b.settings.grammarsFile).result = .ok cs)
    (hparser : b.parser = .ok parser) :
    (b.Finishes parser cs site ↔
      (∃ level, threshold b.settings.logLevel = .ok level) ∧ b.settings.command ≠ [] ∧
        ∀ row c rest next, cs = row.map Prod.fst ++ c :: rest →
          b.Course parser (b.opened site) row next → ¬ b.Spoils parser c next.files) ∧
      (¬ b.Finishes parser cs site → ∃ stop, (b.run.exec site).1 = .error stop) := by
  have hends {p : Prop} (hp : ¬ p) (h : ∃ stop, (b.run.exec site).1 = .error stop) :
      (b.Finishes parser cs site ↔ p) ∧
        (¬ b.Finishes parser cs site → ∃ stop, (b.run.exec site).1 = .error stop) := by
    obtain ⟨stop, hstop⟩ := h
    exact ⟨iff_of_false (not_finishes_of_error hstop) hp, fun _ ↦ ⟨stop, hstop⟩⟩
  cases hlevel : threshold b.settings.logLevel with
  | error e =>
    refine hends ?_ ⟨.threshold e, by rw [exec_run_of_threshold hlevel]⟩
    rintro ⟨⟨_, h⟩, -⟩
    cases h
  | ok level =>
    by_cases hcommand : b.settings.command = []
    · exact hends (fun h ↦ h.2.1 hcommand)
        ⟨.noCommand, exec_run_of_noCommand hload hparser hlevel hcommand⟩
    rcases exists_course b parser cs (b.opened site) with
      ⟨row, last, hcourse, rfl⟩ | ⟨row, c, rest, next, rfl, hcourse, hspoils⟩
    · have hfinishes := hcourse.finishes hload hparser hlevel hcommand
      refine ⟨iff_of_true hfinishes ⟨⟨level, rfl⟩, hcommand, ?_⟩, fun h ↦ absurd hfinishes h⟩
      intro row' c rest next hrow hcourse' hspoils
      rw [hrow] at hload hfinishes
      obtain ⟨cause, _, hrun, -⟩ :=
        hcourse'.exec_run_of_spoils hspoils hload hparser hlevel hcommand
      exact not_finishes_of_error (congrArg Prod.fst hrun) hfinishes
    · obtain ⟨cause, _, hrun, -⟩ :=
        hcourse.exec_run_of_spoils hspoils hload hparser hlevel hcommand
      refine hends ?_ ⟨.failed cause, congrArg Prod.fst hrun⟩
      rintro ⟨-, -, hnot⟩
      exact hnot row c rest next rfl hcourse hspoils

end Batches

section Instances

deriving instance DecidableEq for Configuration

def grammarAt (source : String) : Configuration := { source := .ofText source, start := "a" }

/-- Two grammars are asked for. The source of the second one is there. -/
def pairFiles (others : List (Place × String)) : Workspace where
  files := (["grammars.yaml", "workspace"],
      "[{source: broken.abnf, start_rule: a}, {source: fine.abnf, start_rule: a}]") ::
    (["fine.abnf", "workspace"], "a = \"x\"") :: others

def brokenFile : Place × String := (["broken.abnf", "workspace"], "a = %xGG")

def spansOf (stop : Nat) (body : SpanTree) : SpanTree :=
  ⟨"rulelist", true, 0, stop, [⟨"rule", true, 0, stop, [⟨"rulename", true, 0, 1, []⟩,
    ⟨"defined_as", true, 1, 4, []⟩, ⟨"elements", true, 4, stop, [body]⟩]⟩]⟩

def brokenSpans : SpanTree :=
  spansOf 8 ⟨"num_val", true, 4, 8, [⟨"%", false, 4, 5, []⟩, ⟨"hex_val", true, 5, 8, []⟩]⟩

def fineSpans : SpanTree := spansOf 7 ⟨"quoted_string", true, 4, 7, []⟩

def pairParser (text : String) : Source.Parse where
  root := if text = brokenFile.2 then brokenSpans else fineSpans

/-- The generator is content with everything. -/
def pairBatch : Batch := ⟨{}, .ok pairParser, fun _ ↦ .ok { code := 0 }⟩

theorem load_pairFiles {others : List (Place × String)} (h : others = [] ∨ others = [brokenFile]) :
    (Configuration.load (pairFiles others) pairBatch.settings.grammarsFile).result
      = .ok [grammarAt "broken.abnf", grammarAt "fine.abnf"] := by
  have hload : ∀ others ∈ [[], [brokenFile]],
      (Configuration.load (pairFiles others) pairBatch.settings.grammarsFile).result.toOption
        = some [grammarAt "broken.abnf", grammarAt "fine.abnf"] := by
    decide +kernel
  have hsome := hload others (by simpa using h)
  cases hresult : (Configuration.load (pairFiles others) pairBatch.settings.grammarsFile).result with
  | ok cs =>
    rw [hresult] at hsome
    rw [Option.some.inj hsome]
  | error e =>
    rw [hresult] at hsome
    cases hsome

def brokenTree : SyntaxTree := SpanTree.resolve (Text.Utf8.encode brokenFile.2) brokenSpans

def fineTree : SyntaxTree := SpanTree.resolve (Text.Utf8.encode "a = \"x\"") fineSpans

theorem spoils_brokenFile :
    pairBatch.Spoils pairParser (grammarAt "broken.abnf") (pairFiles [brokenFile]) := by
  have hcompiled : (Compilation.definitions brokenTree false).result = .error (.notHex "GG") := rfl
  have hsource : sourceTree? pairParser (pairFiles [brokenFile]) (.ofText "broken.abnf")
      = some brokenTree := rfl
  exact ⟨brokenTree, hsource, (Loop.spoils_of_error hcompiled _).2 nofun⟩

/-- The digits of the first grammar are none. The second one is not tried. -/
theorem not_finishes_brokenFile :
    (Configuration.load (pairFiles [brokenFile]) pairBatch.settings.grammarsFile).result
        = .ok [grammarAt "broken.abnf", grammarAt "fine.abnf"] ∧
      pairBatch.parser = .ok pairParser ∧
      (∃ cause, (pairBatch.run.exec { files := pairFiles [brokenFile] }).1
        = .error (.failed cause)) ∧
      ¬ pairBatch.Finishes pairParser [grammarAt "broken.abnf", grammarAt "fine.abnf"]
        { files := pairFiles [brokenFile] } := by
  have hload := load_pairFiles (Or.inr rfl)
  have hlevel : threshold pairBatch.settings.logLevel = .ok 20 := by decide
  have hcommand : pairBatch.settings.command ≠ [] := by decide
  have hnil : pairBatch.Course pairParser (pairBatch.opened { files := pairFiles [brokenFile] }) []
      (pairBatch.opened { files := pairFiles [brokenFile] }) := .nil _
  obtain ⟨cause, last, hrun, -⟩ :=
    hnil.exec_run_of_spoils spoils_brokenFile hload rfl hlevel hcommand
  have herror := congrArg Prod.fst hrun
  exact ⟨hload, rfl, ⟨cause, herror⟩, not_finishes_of_error herror⟩

theorem not_spoils_fine : ¬ pairBatch.Spoils pairParser (grammarAt "fine.abnf") (pairFiles []) := by
  have hcompiled : (Compilation.definitions fineTree false).result
      = .ok [⟨"a", .text "x", [], false⟩] := rfl
  have hsource : sourceTree? pairParser (pairFiles []) (.ofText "fine.abnf") = some fineTree := rfl
  rintro ⟨tree, htree, hspoils⟩
  obtain rfl : fineTree = tree := Option.some.inj (hsource.symm.trans htree)
  obtain ⟨text, -, hadmits⟩ := (Loop.spoils_of_ok hcompiled _).1 hspoils
  refine hadmits ⟨{ pairFiles [] with folders := [["fine", "test", "build", "workspace"],
    ["test", "build", "workspace"], ["build", "workspace"]] }, rfl, ?_⟩
  exact ⟨["grammar.js", "fine", "test", "build", "workspace"], rfl, rfl⟩

/-- There is no source of the first grammar. It is aborted, and the second one is tried. -/
theorem finishes_pairFiles :
    (Configuration.load (pairFiles []) pairBatch.settings.grammarsFile).result
        = .ok [grammarAt "broken.abnf", grammarAt "fine.abnf"] ∧
      pairBatch.parser = .ok pairParser ∧
      pairBatch.Finishes pairParser [grammarAt "broken.abnf", grammarAt "fine.abnf"]
        { files := pairFiles [] } := by
  have hload := load_pairFiles (Or.inl rfl)
  have hlevel : threshold pairBatch.settings.logLevel = .ok 20 := by decide
  refine ⟨hload, rfl, (finishes_iff ?_ rfl).1.2 ⟨⟨20, hlevel⟩, by decide, ?_⟩⟩
  · exact hload
  have hnone : sourceTree? pairParser (pairFiles []) (.ofText "broken.abnf") = none := rfl
  intro row c rest next hrow hcourse hspoils
  match row with
  | [] =>
    obtain ⟨rfl, -⟩ := List.cons.inj hrow
    obtain ⟨tree, htree, -⟩ := hspoils
    rw [hcourse.eq_of_nil] at htree
    cases hnone.symm.trans htree
  | [(c', found)] =>
    obtain ⟨rfl, hrest⟩ := List.cons.inj hrow
    obtain ⟨rfl, -⟩ := List.cons.inj hrest
    rw [hcourse.files_of_none hnone] at hspoils
    exact not_spoils_fine hspoils
  | _ :: _ :: _ =>
    have hlength := congrArg List.length hrow
    simp at hlength

end Instances

end Batch

end AbnfCompiler.Generation
