import Mathlib.Data.List.Chain
import AbnfCompiler.Proofs.Generation.Replay
import AbnfCompiler.Proofs.Generation.Step
import AbnfCompiler.Proofs.Generation.Validity

/-!
The result of a run tells what happened: the attempts, the fixes between them and the session that
they lead to, the grammar that was written last, and the way through the states.
-/
namespace AbnfCompiler.Generation.Loop

open Log Run

variable {c : Loop} {reports : List Entry} {ds : List Definition} {unsupported : List Unsupported}
  {tree : SyntaxTree} {s : Session} {t t' : Turn} {site site' : Site} {d : Diagnostic} {r : Result}

section Route

/-- The state before an attempt, given the number of attempts before. -/
def entered (n : Nat) : Phase := if n = 0 then .idle else .diagnosing

def retrySteps (n : Nat) : List Step :=
  [⟨n + 1, entered n, .invoking⟩, ⟨n + 1, .invoking, .diagnosing⟩]

def lastSteps (n : Nat) : Phase → List Step
  | .done => [⟨n + 1, entered n, .invoking⟩, ⟨n + 1, .invoking, .done⟩]
  | _ => retrySteps n ++ [⟨n + 1, .diagnosing, .givenUp⟩]

/-- The way from the start to the last state, through some attempts that were retried. -/
def route (n : Nat) (last : Phase) : List Step :=
  (List.range n).flatMap retrySteps ++ lastSteps n last

theorem isChain_retries (n : Nat) :
    ((List.range n).flatMap retrySteps).IsChain (fun a b ↦ a.after = b.before) ∧
      ∀ a ∈ ((List.range n).flatMap retrySteps).getLast?, a.after = entered n := by
  induction n with
  | zero => simp
  | succ n ih =>
    obtain ⟨hchain, hlast⟩ := ih
    rw [List.range_succ, List.flatMap_append, List.isChain_append]
    refine ⟨⟨hchain, by simp [retrySteps], ?_⟩, by simp [retrySteps, entered]⟩
    simpa [retrySteps] using hlast

/-- Each change of state starts where the one before ended. -/
theorem isChain_route (n : Nat) (last : Phase) :
    (route n last).IsChain (fun a b ↦ a.after = b.before) := by
  obtain ⟨hchain, hlast⟩ := isChain_retries n
  rw [route, List.isChain_append]
  refine ⟨hchain, ?_, ?_⟩
  · cases last <;> simp [lastSteps, retrySteps]
  · cases last <;> simpa [lastSteps, retrySteps] using hlast

end Route

section Attempt

/-- The classifier does not write on the channel of the loop. -/
def LogsApart (c : Loop) : Prop := ∀ text, ∀ e ∈ (c.classify text).1, e.channel ≠ Step.channel

/-- The grammar of a session was written and given to the generator. -/
structure Attempted (c : Loop) (ds : List Definition) (s : Session) (site site' : Site)
    (text : String) : Prop where
  render : (s.grammar ds).render = .ok text
  content : site'.files.content (s.location.join (.ofText c.filename)) = .ok text
  calls : site'.calls = site.calls ++ [⟨c.generator.command, s.location, text⟩]

theorem relay_render_eq_ok {g : Grammar} {text : String}
    (h : (Run.relay (render g)).exec site = (.ok text, site')) :
    g.render = .ok text ∧ site'.files = site.files ∧ site'.calls = site.calls ∧
      site'.lines = site.lines ++ [.logged (renderedEntry g.name text)] := by
  unfold render at h
  cases hrender : g.render with
  | error e =>
    rw [hrender] at h
    cases h
  | ok rendered =>
    rw [hrender] at h
    cases h
    exact ⟨rfl, rfl, rfl, rfl⟩

theorem attempt_eq_ok {path : Path} {width : Nat} {outcome : Outcome} (hreports : Quiet reports)
    (h : (c.attempt reports (s.grammar ds) s.location).exec site
      = (.ok (path, width, outcome), site')) :
    ∃ text, c.Attempted ds s site site' text ∧ path = s.location.join (.ofText c.filename) ∧
      width = text.length ∧ steps site'.lines = steps site.lines := by
  unfold attempt at h
  obtain ⟨_, reported, hreport, h⟩ := exec_bind_eq_ok.1 h
  obtain ⟨text, rendered, hrender, h⟩ := exec_bind_eq_ok.1 h
  obtain ⟨_, written, hwrite, h⟩ := exec_bind_eq_ok.1 h
  obtain ⟨_, called, hcall, h⟩ := exec_bind_eq_ok.1 h
  cases h
  cases hreport
  obtain ⟨htext, -, hcalls, hlines⟩ := relay_render_eq_ok hrender
  obtain ⟨hpath, hcontent, hcalls', hlines'⟩ := Generator.writeGrammar_eq_ok hwrite
  obtain ⟨hfiles, hcalls'', hlines''⟩ := Generator.invoke_eq_ok hcall
  refine ⟨text, ⟨htext, ?_, ?_⟩, hpath, rfl, ?_⟩
  · rw [hfiles, ← hpath, hcontent]
  · rw [hcalls'', hcalls', hcalls]
  · have hrendered : Step.ofEntry? (renderedEntry (s.grammar ds).name text) = none := rfl
    have hwrote : Step.ofEntry? (Generator.log.entry .debug
        ("Wrote grammar descriptor to " ++ path.toText)) = none := rfl
    have hcalled : Step.ofEntry? (Generator.callEntry c.generator s.location outcome) = none := by
      refine if_neg ?_
      rw [Generator.callEntry, channel_generatorCall]
      decide
    rw [hlines'', hlines', hlines]
    simp only [steps_append, steps_logged, hreports.filterMap_eq]
    simp [steps, Step.ofLine?, hrendered, hwrote, hcalled]

end Attempt

section Turns

theorem turn_eq_ok {x : Result ⊕ Diagnostic × Turn} (hreports : Quiet reports)
    (h : (c.turn reports ds unsupported t).exec site = (.ok x, site')) :
    ∃ text outcome, c.Attempted ds t.session site site' text ∧
      (c.verdict ds unsupported t (t.session.location.join (.ofText c.filename)) text.length
        outcome).2 = x ∧
      steps site'.lines = steps site.lines ++ ⟨t.number, t.before, .invoking⟩ ::
        (c.verdict ds unsupported t (t.session.location.join (.ofText c.filename)) text.length
          outcome).1.filterMap Step.ofEntry? := by
  unfold turn at h
  obtain ⟨_, entered, henter, h⟩ := exec_bind_eq_ok.1 h
  obtain ⟨⟨path, width, outcome⟩, attempted, hattempt, h⟩ := exec_bind_eq_ok.1 h
  cases h
  cases henter
  obtain ⟨text, hattempted, rfl, rfl, hsteps⟩ := attempt_eq_ok hreports hattempt
  refine ⟨text, outcome, ⟨hattempted.render, hattempted.content, hattempted.calls⟩, rfl, ?_⟩
  have henter : steps [.logged (transition t.session.language t.number t.before .invoking)]
      = [⟨t.number, t.before, .invoking⟩] := by
    simp [steps, Step.ofLine?, ofEntry?_transition]
  rw [steps_append, steps_logged, hsteps, steps_append, henter, List.append_assoc]
  rfl

theorem LogsApart.quiet {text : String} {entries : List Entry} (h : c.LogsApart)
    (hclassify : c.classify text = (entries, d)) : entries.filterMap Step.ofEntry? = [] := by
  have hchannel := h text
  rw [hclassify] at hchannel
  exact (quiet_of_channel hchannel).filterMap_eq

/-- What a retried attempt leaves behind. -/
theorem turn_eq_retry (hreports : Quiet reports)
    (h : (c.turn reports ds unsupported t).exec site = (.ok (.inr (d, t')), site')) :
    t' = ⟨t'.session, t.number + 1,
        t.fixes ++ [⟨d.kind, Fix.addedRules t.session t'.session, t.number⟩], .diagnosing⟩ ∧
      t.session.fix? d (some (t.session.grammar ds)) = some t'.session ∧
      c.maxAttempts.any (· ≤ (t.number : Int)) = false ∧
      site'.calls.length = site.calls.length + 1 ∧
      (c.LogsApart → steps site'.lines = steps site.lines ++
        [⟨t.number, t.before, .invoking⟩, ⟨t.number, .invoking, .diagnosing⟩]) := by
  obtain ⟨text, outcome, hattempted, hverdict, hsteps⟩ := turn_eq_ok hreports h
  have hcalls : site'.calls.length = site.calls.length + 1 := by simp [hattempted.calls]
  rcases verdict_cases c ds unsupported t _ text.length outcome with
    hv | ⟨entries, d, hclassify, ⟨_, _, -, hv⟩ | ⟨next, hfix, hlimit, hv⟩⟩
  · rw [hv] at hverdict
    cases hverdict
  · rw [hv] at hverdict
    cases hverdict
  · rw [hv] at hverdict hsteps
    cases hverdict
    refine ⟨rfl, hfix, hlimit, hcalls, fun hapart ↦ ?_⟩
    have hfixed (f : Fix) : Step.ofEntry? (fixed t.session.language f) = none :=
      ofEntry?_extra rfl
    simp [hsteps, ofEntry?_transition, hapart.quiet hclassify, hfixed]

/-- What the last attempt leaves behind, and the result that is made of it. -/
theorem turn_eq_result (hreports : Quiet reports)
    (h : (c.turn reports ds unsupported t).exec site = (.ok (.inl r), site')) :
    ∃ text, c.Attempted ds t.session site site' text ∧
      r.session = t.session ∧ r.attempts = t.number ∧ r.fixes = t.fixes ∧
      r.path = some (t.session.location.join (.ofText c.filename)) ∧ r.unsupported = unsupported ∧
      ((r.phase = .done ∧ r.width = some (text.length : Int) ∧
          steps site'.lines = steps site.lines ++
            [⟨t.number, t.before, .invoking⟩, ⟨t.number, .invoking, .done⟩]) ∨
        (r.phase = .givenUp ∧ r.width = none ∧
          (c.LogsApart → steps site'.lines = steps site.lines ++
            [⟨t.number, t.before, .invoking⟩, ⟨t.number, .invoking, .diagnosing⟩,
              ⟨t.number, .diagnosing, .givenUp⟩]))) := by
  obtain ⟨text, outcome, hattempted, hverdict, hsteps⟩ := turn_eq_ok hreports h
  refine ⟨text, hattempted, ?_⟩
  -- The verdict ends the run either with a parser or with a diagnostic that is not mended.
  rcases verdict_cases c ds unsupported t _ text.length outcome with
    hv | ⟨entries, _, hclassify, ⟨entry, message, hentry, hv⟩ | ⟨next, hfix, hlimit, hv⟩⟩
  · rw [hv] at hverdict hsteps
    cases hverdict
    have hfinished (path : Path) (width : Nat) (attempt : Int) :
        Step.ofEntry? (finished t.session.language path width attempt) = none := ofEntry?_extra rfl
    refine ⟨rfl, rfl, rfl, rfl, rfl, Or.inl ⟨rfl, rfl, ?_⟩⟩
    simp [hsteps, ofEntry?_transition, hfinished]
  · rw [hv] at hverdict hsteps
    cases hverdict
    have hquiet : Step.ofEntry? entry = none := by
      rcases hentry with rfl | rfl
      · exact ofEntry?_extra rfl
      · exact ofEntry?_extra rfl
    refine ⟨rfl, rfl, rfl, rfl, rfl, Or.inr ⟨rfl, rfl, fun hapart ↦ ?_⟩⟩
    simp [hsteps, ofEntry?_transition, hapart.quiet hclassify, hquiet]
  · rw [hv] at hverdict
    cases hverdict

end Turns

section Runs

/-- What holds of a turn that a run has come to: the fixes count the attempts before, and they lead
from the first session to the one of the turn. -/
structure Tallies (c : Loop) (s : Session) (site : Site) (t : Turn) (site' : Site) : Prop where
  number : t.number = t.fixes.length + 1
  before : t.before = entered t.fixes.length
  attempts : ∀ i (h : i < t.fixes.length), t.fixes[i].attempt = i + 1
  calls : site'.calls.length = site.calls.length + t.fixes.length
  limit : ∀ m, c.maxAttempts = some m → t.fixes ≠ [] → (t.fixes.length : Int) < m
  replayed : t.fixes.foldl Fix.replay s = t.session
  kept : t.session = { s with inlined := t.session.inlined, conflicts := t.session.conflicts }
  steps : c.LogsApart →
    steps site'.lines = steps site.lines ++ (List.range t.fixes.length).flatMap retrySteps

theorem Tallies.start (c : Loop) (s : Session) (site : Site) :
    c.Tallies s site ⟨s, 1, [], .idle⟩ site where
  number := rfl
  before := rfl
  attempts := nofun
  calls := rfl
  limit _ _ h := absurd rfl h
  replayed := rfl
  kept := rfl
  steps _ := by simp

theorem Tallies.retry {start : Site} (hreports : Quiet reports) (h : c.Tallies s start t site)
    (hturn : (c.turn reports ds unsupported t).exec site = (.ok (.inr (d, t')), site')) :
    c.Tallies s start t' site' := by
  obtain ⟨ht', hfix, hlimit, hcalls, hsteps⟩ := turn_eq_retry hreports hturn
  have hnumber := h.number
  rw [ht']
  constructor
  case number => simp [hnumber]
  case before => simp [entered]
  case attempts =>
    intro i hi
    rw [List.getElem_append]
    split
    · next hlt => exact h.attempts i hlt
    · simp only [List.length_append, List.length_singleton] at hi
      simp [hnumber]
      omega
  case calls =>
    simp [hcalls, h.calls]
    omega
  case limit =>
    intro m hm _
    simp [hm] at hlimit
    simp
    omega
  case replayed => simp [h.replayed, Fix.replay_of_fix? hfix]
  case kept =>
    refine (Session.eq_of_fix? hfix).trans ?_
    rw [h.kept]
  case steps =>
    intro hapart
    simp [hsteps hapart, h.steps hapart, List.range_succ, retrySteps, hnumber, h.before]

theorem Tallies.retries {start : Site} {x y : Turn × Site} {row : List (Session × Diagnostic)}
    (hreports : Quiet reports) (h : c.Tallies s start x.1 x.2)
    (hretries : c.Retries reports ds unsupported x row y) : c.Tallies s start y.1 y.2 := by
  induction hretries with
  | nil x => exact h
  | cons hturn _ ih => exact ih (h.retry hreports hturn)

/-- The result of a run tells the truth about it. It counts the attempts and the fixes between
them; the fixes lead from the first session to that of the result; the file that it names holds the
grammar of this session, whose records and width it gives; and what was logged are the states from
the start to the last one. -/
theorem result_of_run (c : Loop) (h : (c.run tree s).exec site = (.ok r, site')) :
    (r.attempts = r.fixes.length + 1 ∧
      site'.calls.length = site.calls.length + r.fixes.length + 1 ∧
      (∀ i (hi : i < r.fixes.length), r.fixes[i].attempt = i + 1) ∧
      ∀ m, c.maxAttempts = some m → r.attempts ≤ max 1 m) ∧
    (r.fixes.foldl Fix.replay s = r.session ∧
      r.session = { s with inlined := r.session.inlined, conflicts := r.session.conflicts }) ∧
    (∃ ds text path, (Compilation.definitions tree r.session.withCore).result = .ok ds ∧
      (r.session.grammar ds).render = .ok text ∧
      path = r.session.location.join (.ofText c.filename) ∧ r.path = some path ∧
      site'.files.content path = .ok text ∧
      site'.calls.getLast? = some ⟨c.generator.command, r.session.location, text⟩ ∧
      r.unsupported
        = Compilation.unsupported (Compilation.definitions tree r.session.withCore).trace ∧
      r.width = if r.phase = .done then some (text.length : Int) else none) ∧
    (r.phase = .done ∨ r.phase = .givenUp) ∧
    (c.LogsApart → steps site'.lines = steps site.lines ++ route r.fixes.length r.phase) := by
  cases hcompiled : (Compilation.definitions tree s.withCore).result with
  | error failure =>
    obtain ⟨last, hrun, -⟩ := exec_run_of_error hcompiled site
    rw [h] at hrun
    cases hrun
  | ok ds =>
    obtain ⟨row, t, before, hreaches, result, last, hturn, hrun⟩ := exists_reaches c site hcompiled
    rw [h] at hrun
    cases hrun
    have hreports : Quiet ((Compilation.definitions tree s.withCore).trace.map
        (Compilation.Event.entry s.language)) := quiet_compilation _
    have htallies : c.Tallies s site t before := (Tallies.start c s site).retries hreports hreaches
    obtain ⟨text, hattempted, hsession, hattempts, hfixes, hpath, hunsupported, hend⟩ :=
      turn_eq_result hreports hturn
    have hkept := htallies.kept
    -- No fix touches the core rules, so that the tree compiles alike for both sessions.
    have hcore : t.session.withCore = s.withCore := by rw [hkept]
    have hnumber := htallies.number
    rw [hsession, hattempts, hfixes, hpath, hunsupported, hcore]
    refine ⟨⟨?_, ?_, htallies.attempts, ?_⟩, ⟨htallies.replayed, hkept⟩, ?_, ?_, ?_⟩
    · simp [hnumber]
    · simp [hattempted.calls, htallies.calls]
    · intro m hm
      by_cases hnone : t.fixes = []
      · have hone : t.number = 1 := by simp [hnumber, hnone]
        omega
      · have hlimit := htallies.limit m hm hnone
        omega
    · refine ⟨ds, text, _, hcompiled, hattempted.render, rfl, rfl, hattempted.content, ?_, rfl, ?_⟩
      · rw [hattempted.calls, List.getLast?_concat]
      · rcases hend with ⟨hphase, hwidth, -⟩ | ⟨hphase, hwidth, -⟩
        · rw [hphase, hwidth, if_pos rfl]
        · rw [hphase, hwidth, if_neg (by decide)]
    · exact hend.imp (fun h ↦ h.1) fun h ↦ h.1
    · intro hapart
      rcases hend with ⟨hphase, -, hsteps⟩ | ⟨hphase, -, hsteps⟩
      · simp [hphase, hsteps, htallies.steps hapart, route, lastSteps, hnumber, htallies.before]
      · simp [hphase, hsteps hapart, htallies.steps hapart, route, lastSteps, retrySteps, hnumber,
          htallies.before]

end Runs

section Instances

/-- A classifier for a generator that writes nothing but the names of a conflict. -/
def namesClassifier : Diagnostic.Classifier where
  matchers := [(.text "names", ⟨.text "names", [(.missingConflict,
    .group "rules" (Diagnostic.Bundled.oneOrMore Diagnostic.Bundled.notLineFeed))]⟩)]

/-- The generator asks for a conflict group and is content with the next grammar. -/
def namesLoop : Loop where
  generator := ⟨["generate"], fun n ↦
    .ok (if n = 0 then { code := 1, errors := "foo,bar" } else { code := 0 })⟩
  classify text := namesClassifier.classify text none

def namesTurn : Turn :=
  ⟨(pairSession []).withConflict ["foo", "bar"], 2, [⟨.missingConflict, ["bar", "foo"], 1⟩],
    .diagnosing⟩

def namesSite : Site :=
  ((namesLoop.turnOf pairDefinitions pairTree (pairSession []) ⟨pairSession [], 1, [], .idle⟩).exec
    {}).2

theorem result_namesLoop : ∃ r site',
    (namesLoop.run pairTree (pairSession [])).exec {} = (.ok r, site') ∧
      r.fixes = [⟨.missingConflict, ["bar", "foo"], 1⟩] ∧ r.attempts = 2 ∧
      site'.calls.length = 2 ∧ steps site'.lines = route 1 .done := by
  have hcompiled : (Compilation.definitions pairTree (pairSession []).withCore).result
      = .ok pairDefinitions := rfl
  have hfirst : ∃ d, (namesLoop.turnOf pairDefinitions pairTree (pairSession [])
      ⟨pairSession [], 1, [], .idle⟩).exec {} = (.ok (.inr (d, namesTurn)), namesSite) := ⟨_, rfl⟩
  have hsecond : ∃ r site', (namesLoop.turnOf pairDefinitions pairTree (pairSession [])
      namesTurn).exec namesSite = (.ok (.inl r), site') ∧ r.phase = .done ∧
        r.fixes = namesTurn.fixes := ⟨_, _, rfl, rfl, rfl⟩
  obtain ⟨d, hfirst⟩ := hfirst
  obtain ⟨r, site', hsecond, hphase, hfixes⟩ := hsecond
  have hreaches : namesLoop.Reaches pairDefinitions pairTree (pairSession []) {} _
      (namesTurn, namesSite) := .cons hfirst (.nil _)
  have hrun : (namesLoop.run pairTree (pairSession [])).exec {} = (.ok r, site') := by
    apply hreaches.exec_run hcompiled
    exact hsecond
  obtain ⟨⟨hattempts, hcalls, -⟩, -, -, -, hsteps⟩ := result_of_run namesLoop hrun
  have hapart : namesLoop.LogsApart := fun text ↦ channel_classify namesClassifier text none
  refine ⟨r, site', hrun, hfixes, ?_, ?_, ?_⟩
  · rw [hattempts, hfixes]
    rfl
  · rw [hcalls, hfixes]
    rfl
  · rw [hsteps hapart, hphase, hfixes]
    rfl

end Instances

end AbnfCompiler.Generation.Loop
