import AbnfCompiler.Proofs.Generation.Batch
import AbnfCompiler.Proofs.Generation.Report
import AbnfCompiler.Proofs.Path

/-!
Where grammars are written. While a grammar is tried, no file is changed but the one that holds its
text, so that the text of another grammar stays exactly if it is at another place.
-/
namespace AbnfCompiler.Generation

open Log Run

section Frame

variable {α β : Type} {spot : Place}

/-- Whatever the run comes to, it changes no file but the one at the place. -/
def WritesOnly (spot : Place) (x : Run α) : Prop :=
  ∀ site : Site, site.files.KeepsBut spot (x.exec site).2.files

theorem WritesOnly.keepsBut {x : Run α} {y : Except Failure α} {site next : Site}
    (h : WritesOnly spot x) (hexec : x.exec site = (y, next)) :
    site.files.KeepsBut spot next.files := by
  have hsite := h site
  rwa [hexec] at hsite

theorem writesOnly_of_files {x : Run α} (h : ∀ site, (x.exec site).2.files = site.files) :
    WritesOnly spot x := by
  intro site
  rw [h site]
  exact .refl spot site.files

theorem writesOnly_pure (a : α) : WritesOnly spot (pure a : Run α) :=
  writesOnly_of_files fun _ ↦ rfl

theorem writesOnly_throw (e : Failure) : WritesOnly spot (throw e : Run α) :=
  writesOnly_of_files fun _ ↦ rfl

theorem writesOnly_log (entry : Entry) : WritesOnly spot (Run.log entry) :=
  writesOnly_of_files fun _ ↦ rfl

theorem writesOnly_logAll (entries : List Entry) : WritesOnly spot (Run.logAll entries) :=
  writesOnly_of_files fun _ ↦ rfl

theorem WritesOnly.bind {x : Run α} {f : α → Run β} (hx : WritesOnly spot x)
    (hf : ∀ a, WritesOnly spot (f a)) : WritesOnly spot (x >>= f) := by
  intro site
  match hexec : x.exec site with
  | (.ok a, next) =>
    rw [exec_bind_of_ok hexec]
    exact (hx.keepsBut hexec).trans (hf a next)
  | (.error e, next) =>
    rw [exec_bind_of_error hexec]
    exact hx.keepsBut hexec

theorem WritesOnly.tryCatch {x : Run α} {f : Failure → Run α} (hx : WritesOnly spot x)
    (hf : ∀ e, WritesOnly spot (f e)) : WritesOnly spot (tryCatch x f) := by
  intro site
  match hexec : x.exec site with
  | (.ok a, next) =>
    rw [exec_tryCatch_of_ok hexec]
    exact hx.keepsBut hexec
  | (.error e, next) =>
    rw [exec_tryCatch_of_error hexec]
    exact (hx.keepsBut hexec).trans (hf e next)

theorem writesOnly_relay (x : Traced Entry Failure α) : WritesOnly spot (Run.relay x) := by
  refine (writesOnly_logAll _).bind fun _ ↦ ?_
  split
  · exact writesOnly_pure _
  · exact writesOnly_throw _

end Frame

namespace Generator

variable {spot : Place}

theorem writesOnly_writeGrammar (folder : Path) (text filename : String) :
    WritesOnly (folder.join (.ofText filename)).place (writeGrammar folder text filename) := by
  intro site
  unfold writeGrammar
  rw [exec_get_bind]
  cases hensure : site.files.ensure folder with
  | error e =>
    rw [exec_bind_of_error (exec_change_error e site)]
    exact .refl _ _
  | ok ensured =>
    rw [exec_bind_of_ok (exec_change_ok ensured site), exec_get_bind]
    have hensured := Workspace.keepsBut_ensure (folder.join (.ofText filename)).place hensure
    cases hwrite : ensured.write (folder.join (.ofText filename)) text with
    | error fault => exact hensured
    | ok written => exact hensured.trans (Workspace.keepsBut_write hwrite)

theorem writesOnly_invoke (g : Generator) (folder : Path) (text : String) :
    WritesOnly spot (g.invoke folder text) := by
  refine writesOnly_of_files fun site ↦ ?_
  obtain ⟨next, hfiles, -, ⟨outcome, hexec⟩ | ⟨line, e, hexec⟩⟩ := g.exec_invoke folder text site
  · rw [hexec, hfiles]
  · rw [hexec, hfiles]

end Generator

namespace Loop

variable {c : Loop} {reports : List Entry} {ds : List Definition}
  {unsupported : List Unsupported} {tree : SyntaxTree} {s : Session} {spot : Place}

/-- The file for the grammars that are written into a folder. -/
def descriptor (c : Loop) (folder : Path) : Path := folder.join (.ofText c.filename)

theorem writesOnly_attempt (c : Loop) (reports : List Entry) (g : Grammar) (folder : Path) :
    WritesOnly (c.descriptor folder).place (c.attempt reports g folder) := by
  refine (writesOnly_logAll reports).bind fun _ ↦ (writesOnly_relay _).bind fun text ↦ ?_
  refine (Generator.writesOnly_writeGrammar folder text c.filename).bind fun path ↦ ?_
  exact (Generator.writesOnly_invoke c.generator folder text).bind fun outcome ↦ writesOnly_pure _

theorem writesOnly_turn (c : Loop) (reports : List Entry) (ds : List Definition)
    (unsupported : List Unsupported) (t : Turn) :
    WritesOnly (c.descriptor t.session.location).place (c.turn reports ds unsupported t) := by
  refine (writesOnly_log _).bind fun _ ↦ (writesOnly_attempt c reports _ _).bind fun answer ↦ ?_
  exact (writesOnly_logAll _).bind fun _ ↦ writesOnly_pure _

/-- The folder is the same in all turns. -/
theorem Retries.keepsBut {x y : Turn × Site} {row : List (Session × Diagnostic)}
    (h : c.Retries reports ds unsupported x row y) :
    y.1.session.location = x.1.session.location ∧
      x.2.files.KeepsBut (c.descriptor x.1.session.location).place y.2.files := by
  induction h with
  | nil x => exact ⟨rfl, .refl _ _⟩
  | @cons t t' site site' d row last hturn _ ih =>
    rw [location_of_turn_inr hturn] at ih
    exact ⟨ih.1, ((writesOnly_turn c reports ds unsupported t).keepsBut hturn).trans ih.2⟩

theorem writesOnly_run (c : Loop) (tree : SyntaxTree) (s : Session) :
    WritesOnly (c.descriptor s.location).place (c.run tree s) := by
  intro site
  cases hcompiled : (Compilation.definitions tree s.withCore).result with
  | error failure =>
    unfold run
    simp only [hcompiled]
    refine (writesOnly_log _).bind (fun _ ↦ ?_) site
    exact (writesOnly_logAll _).bind fun _ ↦ writesOnly_throw _
  | ok ds =>
    obtain ⟨row, t, before, hreaches, result, last, hturn, hrun⟩ := exists_reaches c site hcompiled
    obtain ⟨hlocation, hkeeps⟩ := Retries.keepsBut hreaches
    have hlast := (writesOnly_turn c _ ds _ t).keepsBut hturn
    rw [hlocation] at hlast
    rw [hrun]
    exact hkeeps.trans hlast

/-- A run with a result ends with the grammar of its session in the file. -/
theorem attempted_of_run {r : Result} {site next : Site}
    (h : (c.run tree s).exec site = (.ok r, next)) :
    ∃ ds before text, (Compilation.definitions tree s.withCore).result = .ok ds ∧
      r.session.location = s.location ∧ c.Attempted ds r.session before next text := by
  cases hcompiled : (Compilation.definitions tree s.withCore).result with
  | error failure =>
    obtain ⟨last, hrun, -⟩ := exec_run_of_error (c := c) hcompiled site
    rw [h] at hrun
    cases hrun
  | ok ds =>
    obtain ⟨row, t, before, hreaches, result, last, hturn, hrun⟩ := exists_reaches c site hcompiled
    rw [h] at hrun
    cases hrun
    obtain ⟨hlocation, -⟩ := Retries.keepsBut hreaches
    obtain ⟨text, hattempted, hsession, -⟩ := turn_eq_result (quiet_compilation _) hturn
    rw [← hsession] at hattempted hlocation
    exact ⟨ds, before, text, rfl, hlocation, hattempted⟩

end Loop

namespace Batch

variable {b : Batch} {parser : Source.Parser} {c c' : Configuration} {site next last : Site}
  {row : List (Configuration × Option Result)} {r : Result} {path : Path} {text : String}

/-- The file that the grammars of a configuration are written to. -/
def descriptor (b : Batch) (c : Configuration) : Path :=
  b.loop.descriptor (c.session b.settings.buildRoot).location

/-- The file holds the grammar of the session of a result, made of the source that was there. -/
def Holds (parser : Source.Parser) (c : Configuration) (r : Result) (site : Site) (path : Path)
    (last : Site) : Prop :=
  ∃ tree ds text, sourceTree? parser site.files c.source = some tree ∧
    (Compilation.definitions tree c.withCore).result = .ok ds ∧
    (r.session.grammar ds).render = .ok text ∧ last.files.content path = .ok text

theorem writesOnly_grammar (b : Batch) (parser : Source.Parser) (c : Configuration) :
    WritesOnly (b.descriptor c).place (b.grammar parser c) := by
  have hsource : WritesOnly (b.descriptor c).place
      (sourceTree parser (c.session b.settings.buildRoot).source) := by
    refine writesOnly_of_files fun site ↦ ?_
    rcases exec_sourceTree parser (c.session b.settings.buildRoot).source site with
      ⟨tree, next, -, hfiles, hexec⟩ | ⟨-, e, next, hfiles, hexec⟩
    · rw [hexec, hfiles]
    · rw [hexec, hfiles]
  have hsay : WritesOnly (b.descriptor c).place (sayAll (heading c)) :=
    writesOnly_of_files fun site ↦ by rw [exec_sayAll]; rfl
  have hgenerate := hsource.bind fun tree ↦
    Loop.writesOnly_run b.loop tree (c.session b.settings.buildRoot)
  refine hsay.bind fun _ ↦ WritesOnly.tryCatch ?_ fun cause ↦ ?_
  · rw [map_eq_pure_bind]
    exact hgenerate.bind fun r ↦ writesOnly_pure _
  · split
    · exact (writesOnly_log _).bind fun _ ↦ writesOnly_pure _
    · exact writesOnly_throw _

theorem generate_of_grammar_ok (h : (b.grammar parser c).exec site = (.ok (some r), next)) :
    (b.loop.generate parser b.settings.buildRoot c).exec (said (heading c) site)
      = (.ok r, next) := by
  match hgenerate :
    (b.loop.generate parser b.settings.buildRoot c).exec (said (heading c) site) with
  | (.ok r', last) =>
    rw [exec_grammar_of_ok hgenerate] at h
    cases h
    rfl
  | (.error cause, last) =>
    rw [exec_grammar_of_error hgenerate] at h
    split at h <;> cases h

theorem holds_of_grammar (h : (b.grammar parser c).exec site = (.ok (some r), next)) :
    Holds parser c r site (b.descriptor c) next := by
  have hgenerate := generate_of_grammar_ok h
  obtain ⟨tree, parsed, hparse, hrun⟩ := exec_bind_eq_ok.1 hgenerate
  obtain ⟨ds, before, text, hds, hlocation, hattempted⟩ := Loop.attempted_of_run hrun
  rcases exec_sourceTree parser (c.session b.settings.buildRoot).source (said (heading c) site) with
    ⟨tree', _, htree, -, hexec⟩ | ⟨-, e, _, -, hexec⟩
  · rw [hparse] at hexec
    cases hexec
    have hcontent := hattempted.content
    rw [hlocation] at hcontent
    exact ⟨tree, ds, text, htree, hds, hattempted.render, hcontent⟩
  · rw [hparse] at hexec
    cases hexec

/-- A file stays while grammars are tried that are written elsewhere. -/
theorem Course.content (h : b.Course parser site row last)
    (hrow : ∀ p ∈ row, (b.descriptor p.1).place ≠ path.place)
    (hcontent : site.files.content path = .ok text) : last.files.content path = .ok text := by
  induction row generalizing site with
  | nil =>
    rw [h.eq_of_nil]
    exact hcontent
  | cons p row ih =>
    obtain ⟨hp, hrow⟩ := List.forall_mem_cons.1 hrow
    obtain ⟨next, hgrammar, hrest⟩ := h.of_cons
    have hkeeps := (writesOnly_grammar b parser p.1).keepsBut hgrammar
    exact ih hrest hrow (hkeeps.content hp.symm hcontent)

theorem location_session (hc : c.location = none) (root : Path) :
    (c.session root).location = root.join (.ofText c.language) := by
  unfold Configuration.session
  rw [hc]
  rfl

/-- Two configurations without a location have different folders below every root exactly if their
languages, read as paths, do not meet. The file of the one stays as it is while the other one is
tried, if the two files are at different places, and at the same place it then holds the grammar of
the other one. So what a grammar came to stays as long as all that follow are written elsewhere.
Where the languages name folders and the files stay in these, all this asks for two languages. -/
theorem descriptor_kept (b : Batch) (parser : Source.Parser) (hc : c.location = none)
    (hc' : c'.location = none) :
    ((∀ root, (c.session root).location ≠ (c'.session root).location) ↔
      ¬ Path.Meet (.ofText c.language) (.ofText c'.language)) ∧
    (∀ site text, site.files.content (b.descriptor c) = .ok text →
      ((b.descriptor c').place ≠ (b.descriptor c).place →
        ((b.grammar parser c').exec site).2.files.content (b.descriptor c) = .ok text) ∧
      ((b.descriptor c').place = (b.descriptor c).place → ∀ r next,
        (b.grammar parser c').exec site = (.ok (some r), next) →
          Holds parser c' r site (b.descriptor c) next)) ∧
    (∀ site r next row last, (b.grammar parser c).exec site = (.ok (some r), next) →
      b.Course parser next row last →
      (∀ p ∈ row, (b.descriptor p.1).place ≠ (b.descriptor c).place) →
      Holds parser c r site (b.descriptor c) last) ∧
    (Path.IsFolderName c.language → Path.IsFolderName c'.language →
      Path.StaysBelow (.ofText b.settings.filename) →
        ((∀ root, (c.session root).location ≠ (c'.session root).location) ↔
          c.language ≠ c'.language) ∧
        ((b.descriptor c').place ≠ (b.descriptor c).place ↔ c.language ≠ c'.language)) := by
  have hlocations : (∀ root, (c.session root).location ≠ (c'.session root).location) ↔
      ¬ Path.Meet (.ofText c.language) (.ofText c'.language) := by
    simp only [location_session hc, location_session hc', ← Path.exists_join_eq_iff, not_exists,
      ne_eq]
  refine ⟨hlocations, fun site text hcontent ↦ ⟨fun hne ↦ ?_, fun heq r next hgrammar ↦ ?_⟩, ?_, ?_⟩
  · exact (writesOnly_grammar b parser c' site).content hne.symm hcontent
  · have hkeeps := (writesOnly_grammar b parser c').keepsBut hgrammar
    obtain ⟨tree, ds, text', htree, hds, hrender, hcontent'⟩ := holds_of_grammar hgrammar
    exact ⟨tree, ds, text', htree, hds, hrender,
      hkeeps.content_of_place_eq hcontent heq.symm hcontent'⟩
  · intro site r next row last hgrammar hcourse hrow
    obtain ⟨tree, ds, text, htree, hds, hrender, hcontent⟩ := holds_of_grammar hgrammar
    exact ⟨tree, ds, text, htree, hds, hrender, hcourse.content hrow hcontent⟩
  · intro hname hname' hfile
    have hplaces : (b.descriptor c').place = (b.descriptor c).place ↔ c'.language = c.language := by
      unfold descriptor Loop.descriptor
      rw [location_session hc, location_session hc']
      exact Path.place_beside_iff hname' hname hfile
    refine ⟨?_, hplaces.not.trans ne_comm⟩
    rw [hlocations, Path.meet_iff_of_isFolderName hname hname']

section Instances

/-- The files have different names, and so have the folders of the grammars. -/
theorem descriptor_kept_besides :
    (grammarAt "a/x.abnf").location = none ∧ (grammarAt "b/y.abnf").location = none ∧
    (∀ root, ((grammarAt "a/x.abnf").session root).location
      ≠ ((grammarAt "b/y.abnf").session root).location) ∧
    ∀ site text, site.files.content (pairBatch.descriptor (grammarAt "a/x.abnf")) = .ok text →
      ((pairBatch.grammar pairParser (grammarAt "b/y.abnf")).exec site).2.files.content
        (pairBatch.descriptor (grammarAt "a/x.abnf")) = .ok text := by
  have hx : (grammarAt "a/x.abnf").location = none := rfl
  have hy : (grammarAt "b/y.abnf").location = none := rfl
  obtain ⟨-, hkept, -, hnames⟩ := descriptor_kept pairBatch pairParser hx hy
  obtain ⟨hlocations, hplaces⟩ := hnames (by decide) (by decide) (by decide)
  refine ⟨hx, hy, hlocations.2 (by decide), fun site text hcontent ↦ ?_⟩
  exact (hkept site text hcontent).1 (hplaces.2 (by decide))

def twinFiles : Workspace where
  files := [(["grammars.yaml", "workspace"],
    "[{source: a/x.abnf, start_rule: a}, {source: b/x.abnf, start_rule: a}]")]

/-- Files of the same name in different folders have the same folder for their grammars. -/
theorem location_twinFiles :
    (Configuration.load twinFiles (.ofText "grammars.yaml")).result.toOption
        = some [grammarAt "a/x.abnf", grammarAt "b/x.abnf"] ∧
      (grammarAt "a/x.abnf").source ≠ (grammarAt "b/x.abnf").source ∧
      (grammarAt "a/x.abnf").location = none ∧ (grammarAt "b/x.abnf").location = none ∧
      ∀ root, ((grammarAt "a/x.abnf").session root).location
        = ((grammarAt "b/x.abnf").session root).location := by
  have hload : (Configuration.load twinFiles (.ofText "grammars.yaml")).result.toOption
      = some [grammarAt "a/x.abnf", grammarAt "b/x.abnf"] := by decide +kernel
  have hlanguage : (grammarAt "a/x.abnf").language = (grammarAt "b/x.abnf").language := by decide
  refine ⟨hload, by decide, rfl, rfl, fun root ↦ ?_⟩
  rw [location_session rfl, location_session rfl, hlanguage]

end Instances

end Batch

end AbnfCompiler.Generation
