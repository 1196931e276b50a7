import AbnfCompiler.Generation.Generator
import AbnfCompiler.Proofs.Workspace

/-!
What runs give and what they leave behind. Only a call of the generator adds to the calls, and
nothing but the writing of a grammar touches the files.
-/
namespace AbnfCompiler.Generation

variable {α β : Type} {site : Site}

namespace Run

/-- What a run gives at a site, and the site that it leaves behind. -/
def exec (x : Run α) (site : Site) : Except Failure α × Site := (ExceptT.run x).run site

theorem ext_exec {x y : Run α} (h : ∀ site, x.exec site = y.exec site) : x = y := funext h

@[simp] theorem exec_pure (a : α) (site : Site) : (pure a : Run α).exec site = (.ok a, site) := rfl

theorem exec_bind (x : Run α) (f : α → Run β) (site : Site) :
    (x >>= f).exec site = match x.exec site with
      | (.ok a, next) => (f a).exec next
      | (.error e, next) => (.error e, next) := by
  have h : (x >>= f).exec site
      = ExceptT.bindCont (m := StateM Site) f (x.exec site).1 (x.exec site).2 := rfl
  rw [h]
  rcases x.exec site with ⟨_ | _, next⟩ <;> rfl

theorem exec_bind_of_ok {x : Run α} {a : α} {next : Site} (h : x.exec site = (.ok a, next))
    (f : α → Run β) : (x >>= f).exec site = (f a).exec next := by
  rw [exec_bind, h]

theorem exec_bind_of_error {x : Run α} {e : Failure} {next : Site}
    (h : x.exec site = (.error e, next)) (f : α → Run β) :
    (x >>= f).exec site = (.error e, next) := by
  rw [exec_bind, h]

theorem exec_bind_eq_ok {x : Run α} {f : α → Run β} {b : β} {last : Site} :
    (x >>= f).exec site = (.ok b, last) ↔
      ∃ a next, x.exec site = (.ok a, next) ∧ (f a).exec next = (.ok b, last) := by
  rw [exec_bind]
  match hx : x.exec site with
  | (.ok a, next) =>
    constructor
    · exact fun h ↦ ⟨a, next, rfl, h⟩
    · rintro ⟨_, _, hok, h⟩
      cases hok
      exact h
  | (.error e, next) => exact iff_of_false nofun nofun

theorem exec_tryCatch_of_ok {x : Run α} {a : α} {next : Site} (h : x.exec site = (.ok a, next))
    (f : Failure → Run α) : (tryCatch x f).exec site = (.ok a, next) := by
  have htry : (tryCatch x f).exec site = (ExceptT.tryCatch (m := StateM Site) x f) site := rfl
  have hx : x site = (.ok a, next) := h
  rw [htry]
  simp only [ExceptT.tryCatch, ExceptT.mk, bind, StateT.bind, hx]
  rfl

theorem exec_tryCatch_of_error {x : Run α} {e : Failure} {next : Site}
    (h : x.exec site = (.error e, next)) (f : Failure → Run α) :
    (tryCatch x f).exec site = (f e).exec next := by
  have htry : (tryCatch x f).exec site = (ExceptT.tryCatch (m := StateM Site) x f) site := rfl
  have hx : x site = (.error e, next) := h
  rw [htry]
  simp only [ExceptT.tryCatch, ExceptT.mk, bind, StateT.bind, hx]
  rfl

@[simp] theorem exec_logAll (entries : List Log.Entry) (site : Site) :
    (logAll entries).exec site
      = (.ok (), { site with lines := site.lines ++ entries.map Line.logged }) := rfl

@[simp] theorem exec_log (entry : Log.Entry) (site : Site) :
    (log entry).exec site = (.ok (), { site with lines := site.lines ++ [.logged entry] }) := rfl

theorem exec_get_bind (f : Site → Run β) (site : Site) :
    ((getThe Site : Run Site) >>= f).exec site = (f site).exec site := rfl

theorem exec_change_ok (files : Workspace) (site : Site) :
    (change (.ok files)).exec site = (.ok (), { site with files }) := rfl

theorem exec_change_error (e : SystemError) (site : Site) :
    (change (.error e)).exec site = (.error (.file e), site) := rfl

theorem exec_change_eq_ok {x : Except SystemError Workspace} {next : Site}
    (h : (change x).exec site = (.ok (), next)) :
    ∃ files, x = .ok files ∧ next = { site with files } := by
  cases x with
  | ok files =>
    cases h
    exact ⟨files, rfl, rfl⟩
  | error e => cases h

end Run

namespace Generator

open Run

/-- A grammar is written exactly if the workspace admits it, and then it can be written again. -/
theorem exec_writeGrammar (folder : Path) (text filename : String) (site : Site) :
    ∃ next, next.calls = site.calls ∧
      ((site.files.Admits folder (folder.join (.ofText filename)) ∧
          next.files.Admits folder (folder.join (.ofText filename)) ∧
          ∃ path, (writeGrammar folder text filename).exec site = (.ok path, next)) ∨
        (¬ site.files.Admits folder (folder.join (.ofText filename)) ∧
          ∃ e, (writeGrammar folder text filename).exec site = (.error (.file e), next))) := by
  unfold writeGrammar
  rw [exec_get_bind]
  cases hensure : site.files.ensure folder with
  | error e =>
    refine ⟨site, rfl, Or.inr ⟨?_, e, exec_bind_of_error (exec_change_error e site) _⟩⟩
    rintro ⟨ensured, h, -⟩
    rw [hensure] at h
    cases h
  | ok ensured =>
    rw [exec_bind_of_ok (exec_change_ok ensured site), exec_get_bind]
    cases hwrite : ensured.write (folder.join (.ofText filename)) text with
    | error fault =>
      refine ⟨_, ?_, Or.inr ⟨?_, _, exec_bind_of_error (exec_change_error _ _) _⟩⟩
      · rfl
      · rintro ⟨w, h, hfile⟩
        obtain rfl : ensured = w := Except.ok.inj (hensure.symm.trans h)
        obtain ⟨written, hwritten⟩ := (Workspace.exists_write_iff _ _ text).2 hfile
        rw [hwrite] at hwritten
        cases hwritten
    | ok written =>
      have hfile := (Workspace.exists_write_iff _ _ text).1 ⟨written, hwrite⟩
      refine ⟨_, ?_, Or.inl ⟨⟨ensured, hensure, hfile⟩, ?_, _, rfl⟩⟩
      · rfl
      · exact .of_written hensure hwrite

/-- The entry for a call of the generator that gave an answer. -/
def callEntry (g : Generator) (folder : Path) (outcome : Outcome) : Log.Entry :=
  log.generatorCall (Text.commandLine g.command) folder.toText (some outcome.code) none
    (complaint outcome)

theorem exec_invoke_eq (g : Generator) (folder : Path) (text : String) (site : Site) :
    (g.invoke folder text).exec site
      = (match g.answers site.calls.length with
        | .ok outcome => do
          Run.log (callEntry g folder outcome)
          return outcome
        | .error e => do
          Run.log (log.generatorCall (Text.commandLine g.command) folder.toText none none e.message)
          throw (.generator (Text.commandLine g.command) e) : Run Outcome).exec
        { site with calls := site.calls ++ [⟨g.command, folder, text⟩] } := rfl

theorem exec_invoke (g : Generator) (folder : Path) (text : String) (site : Site) :
    ∃ next, next.files = site.files ∧ next.calls = site.calls ++ [⟨g.command, folder, text⟩] ∧
      ((∃ outcome, (g.invoke folder text).exec site = (.ok outcome, next)) ∨
        ∃ line e, (g.invoke folder text).exec site = (.error (.generator line e), next)) := by
  rw [exec_invoke_eq]
  cases g.answers site.calls.length with
  | ok o =>
    refine ⟨_, ?_, ?_, Or.inl ⟨o, rfl⟩⟩
    · rfl
    · rfl
  | error e =>
    refine ⟨_, ?_, ?_, Or.inr ⟨_, e, rfl⟩⟩
    · rfl
    · rfl

section Success

variable {g : Generator} {folder path : Path} {text filename : String} {outcome : Outcome}
  {next : Site}

theorem writeGrammar_eq_ok (h : (writeGrammar folder text filename).exec site = (.ok path, next)) :
    path = folder.join (.ofText filename) ∧ next.files.content path = .ok text ∧
      next.calls = site.calls ∧ next.lines = site.lines ++
        [.logged (log.entry .debug ("Wrote grammar descriptor to " ++ path.toText))] := by
  unfold writeGrammar at h
  rw [exec_get_bind] at h
  obtain ⟨_, ensured, hensure, h⟩ := exec_bind_eq_ok.1 h
  obtain ⟨files, -, rfl⟩ := exec_change_eq_ok hensure
  rw [exec_get_bind] at h
  obtain ⟨_, written, hwrite, h⟩ := exec_bind_eq_ok.1 h
  obtain ⟨files', hfiles, rfl⟩ := exec_change_eq_ok hwrite
  cases h
  refine ⟨rfl, ?_, rfl, rfl⟩
  cases hcontent : files.write (folder.join (.ofText filename)) text with
  | ok files'' =>
    rw [hcontent] at hfiles
    cases hfiles
    exact Workspace.content_write hcontent
  | error fault =>
    rw [hcontent] at hfiles
    cases hfiles

theorem invoke_eq_ok (h : (g.invoke folder text).exec site = (.ok outcome, next)) :
    next.files = site.files ∧ next.calls = site.calls ++ [⟨g.command, folder, text⟩] ∧
      next.lines = site.lines ++ [.logged (callEntry g folder outcome)] := by
  rw [exec_invoke_eq] at h
  cases hanswer : g.answers site.calls.length with
  | ok o =>
    rw [hanswer] at h
    cases h
    exact ⟨rfl, rfl, rfl⟩
  | error e =>
    rw [hanswer] at h
    cases h

end Success

end Generator

end AbnfCompiler.Generation
