import AbnfCompiler.Generation.Loop
import AbnfCompiler.Proofs.Generation.Run

/-!
The feedback loop turn by turn. A turn is an attempt and what is made of the answer: the result, or
the diagnostic that the session was changed for and the next turn.
-/
namespace AbnfCompiler.Generation.Loop

open Log Run

/-- Where a turn starts. -/
structure Turn where
  session : Session
  number : Nat
  fixes : List Fix
  before : Phase

variable (c : Loop) (reports : List Entry) (ds : List Definition) (unsupported : List Unsupported)

/-- What is made of the answer of the generator, and what is logged about it. -/
def verdict (t : Turn) (path : Path) (width : Nat) (outcome : Outcome) :
    List Entry × (Result ⊕ Diagnostic × Turn) :=
  let s := t.session
  if outcome.succeeded then
    ([transition s.language t.number .invoking .done,
        finished s.language path width t.number],
      .inl ⟨s.language, .done, s, t.number, t.fixes, none, none, path, some width, unsupported⟩)
  else
    let (entries, d) := c.classify outcome.diagnosticText
    let entries := transition s.language t.number .invoking .diagnosing :: entries
    let gaveUp (message : String) (entry : Entry) :=
      (entries ++ [entry, transition s.language t.number .diagnosing .givenUp],
        Sum.inl ⟨s.language, .givenUp, s, t.number, t.fixes, d, message, path, none, unsupported⟩)
    match s.fix? d (some (s.grammar ds)) with
    | none =>
      let message := ((s.obstacle? d (some (s.grammar ds))).map Session.Obstacle.message).getD
        (resignation d)
      gaveUp message (Loop.gaveUp s.language t.number d message)
    | some next =>
      if c.maxAttempts.any (· ≤ (t.number : Int)) then
        let message := "Giving up after " ++ toString t.number ++ " attempts; last diagnostic: "
          ++ d.kind.tag
        gaveUp message (exhausted s.language t.number message)
      else
        let fix : Fix := ⟨d.kind, Fix.addedRules s next, t.number⟩
        (entries ++ [fixed s.language fix],
          .inr (d, ⟨next, t.number + 1, t.fixes ++ [fix], .diagnosing⟩))

def turn (t : Turn) : Run (Result ⊕ Diagnostic × Turn) := do
  Run.log (transition t.session.language t.number t.before .invoking)
  let (path, width, outcome) ← c.attempt reports (t.session.grammar ds) t.session.location
  let (entries, next) := c.verdict ds unsupported t path width outcome
  Run.logAll entries
  return next

/-- The loop takes a turn, and goes on with the next one if there is one. -/
theorem attemptsFrom_eq_turn (t : Turn) :
    c.attemptsFrom reports ds unsupported t.session t.number t.fixes t.before
      = c.turn reports ds unsupported t >>= fun
        | .inl result => pure result
        | .inr (_, t') =>
          c.attemptsFrom reports ds unsupported t'.session t'.number t'.fixes t'.before := by
  rw [attemptsFrom, turn, bind_assoc]
  apply bind_congr
  intro _
  rw [bind_assoc]
  apply bind_congr
  intro ⟨path, width, outcome⟩
  apply ext_exec
  intro site
  unfold verdict
  by_cases hok : outcome.succeeded
  · simp only [hok, ↓reduceIte, exec_bind, exec_log, exec_logAll, exec_pure, List.map_cons,
      List.map_nil, List.append_assoc, List.cons_append, List.nil_append]
  · simp only [hok, Bool.false_eq_true, ↓reduceIte]
    generalize c.classify outcome.diagnosticText = answer
    obtain ⟨entries, d⟩ := answer
    simp only [exec_bind, exec_log, exec_logAll]
    split
    · next hfix =>
      simp only [hfix, exec_bind, exec_log, exec_pure, List.map_cons, List.map_append,
        List.map_nil, List.append_assoc, List.cons_append, List.nil_append]
    · next next hfix =>
      simp only [hfix]
      split
      · simp only [exec_bind, exec_log, exec_pure, List.map_cons, List.map_append,
          List.map_nil, List.append_assoc, List.cons_append, List.nil_append]
      · simp only [exec_bind, exec_log, exec_pure, List.map_cons, List.map_append,
          List.map_nil, List.append_assoc, List.cons_append, List.nil_append]

section Steps

variable {c reports ds unsupported} {t t' : Turn} {site site' : Site}

/-- Everything that can be made of an answer: the parser is there, nothing more is tried, or the
session is changed for a next turn. -/
theorem verdict_cases (c : Loop) (ds : List Definition) (unsupported : List Unsupported) (t : Turn)
    (path : Path) (width : Nat) (outcome : Outcome) :
    c.verdict ds unsupported t path width outcome
      = ([transition t.session.language t.number .invoking .done,
          finished t.session.language path width t.number],
        .inl ⟨t.session.language, .done, t.session, t.number, t.fixes, none, none, path,
          some width, unsupported⟩) ∨
    ∃ entries d, c.classify outcome.diagnosticText = (entries, d) ∧
      ((∃ entry message, (entry = Loop.gaveUp t.session.language t.number d message ∨
            entry = exhausted t.session.language t.number message) ∧
          c.verdict ds unsupported t path width outcome
            = (transition t.session.language t.number .invoking .diagnosing :: entries
                ++ [entry, transition t.session.language t.number .diagnosing .givenUp],
              .inl ⟨t.session.language, .givenUp, t.session, t.number, t.fixes, d, message, path,
                none, unsupported⟩)) ∨
        ∃ next, t.session.fix? d (some (t.session.grammar ds)) = some next ∧
          c.maxAttempts.any (· ≤ (t.number : Int)) = false ∧
          c.verdict ds unsupported t path width outcome
            = (transition t.session.language t.number .invoking .diagnosing :: entries
                ++ [fixed t.session.language
                  ⟨d.kind, Fix.addedRules t.session next, t.number⟩],
              .inr (d, ⟨next, t.number + 1,
                t.fixes ++ [⟨d.kind, Fix.addedRules t.session next, t.number⟩], .diagnosing⟩))) := by
  unfold verdict
  by_cases hok : outcome.succeeded
  · exact Or.inl (if_pos hok)
  · refine Or.inr ⟨(c.classify outcome.diagnosticText).1, (c.classify outcome.diagnosticText).2,
      rfl, ?_⟩
    simp only [hok, Bool.false_eq_true, ↓reduceIte]
    split
    · exact Or.inl ⟨_, _, Or.inl rfl, rfl⟩
    · next next hfix =>
      split
      · exact Or.inl ⟨_, _, Or.inr rfl, rfl⟩
      · next hlimit => exact Or.inr ⟨next, hfix, Bool.eq_false_iff.2 hlimit, rfl⟩

theorem of_verdict_inr {path : Path} {width : Nat} {outcome : Outcome} {d : Diagnostic}
    (h : (c.verdict ds unsupported t path width outcome).2 = .inr (d, t')) :
    t.session.fix? d (some (t.session.grammar ds)) = some t'.session := by
  rcases verdict_cases c ds unsupported t path width outcome with
    hv | ⟨_, _, -, ⟨_, _, -, hv⟩ | ⟨next, hfix, -, hv⟩⟩
  · rw [hv] at h
    cases h
  · rw [hv] at h
    cases h
  · rw [hv] at h
    cases h
    exact hfix

theorem of_verdict_inl {path : Path} {width : Nat} {outcome : Outcome} {r : Result}
    (h : (c.verdict ds unsupported t path width outcome).2 = .inl r) :
    r.session = t.session ∧ (r.phase = .done ∨ r.phase = .givenUp) := by
  rcases verdict_cases c ds unsupported t path width outcome with
    hv | ⟨_, _, -, ⟨_, _, -, hv⟩ | ⟨_, -, -, hv⟩⟩
  · rw [hv] at h
    cases h
    exact ⟨rfl, Or.inl rfl⟩
  · rw [hv] at h
    cases h
    exact ⟨rfl, Or.inr rfl⟩
  · rw [hv] at h
    cases h

theorem exec_relay_render (g : Grammar) (site : Site) :
    ∃ next, next.files = site.files ∧ next.calls = site.calls ∧
      (Run.relay (render g)).exec site = (g.render.mapError .rendering, next) := by
  unfold render
  cases g.render with
  | error e => exact ⟨{ site with lines := site.lines ++ [] }, rfl, rfl, rfl⟩
  | ok text =>
    exact ⟨{ site with lines := site.lines ++ [.logged (renderedEntry g.name text)] }, rfl, rfl, rfl⟩

/-- The grammars of a folder can be written. -/
def Admits (c : Loop) (files : Workspace) (folder : Path) : Prop :=
  files.Admits folder (folder.join (.ofText c.filename))

/-- An attempt calls the generator at most once. It fails since its grammar cannot be rendered,
since the text cannot be written or since the generator cannot be run. -/
theorem exec_attempt (c : Loop) (reports : List Entry) (g : Grammar) (folder : Path) (site : Site) :
    ∃ next, next.calls.length ≤ site.calls.length + 1 ∧
      ((∃ e, g.render = .error e ∧
          (c.attempt reports g folder).exec site = (.error (.rendering e), next)) ∨
        ∃ text, g.render = .ok text ∧
          ((¬ c.Admits site.files folder ∧
              ∃ e, (c.attempt reports g folder).exec site = (.error (.file e), next)) ∨
            (c.Admits site.files folder ∧ c.Admits next.files folder ∧
              ((∃ answer, (c.attempt reports g folder).exec site = (.ok answer, next)) ∨
                ∃ line e, (c.attempt reports g folder).exec site
                  = (.error (.generator line e), next))))) := by
  obtain ⟨rendered, hfiles, hrendered, hrender⟩ :=
    exec_relay_render g { site with lines := site.lines ++ reports.map Line.logged }
  have hlog (f : Unit → Run (Path × Nat × Outcome)) : (Run.logAll reports >>= f).exec site
      = (f ()).exec { site with lines := site.lines ++ reports.map Line.logged } := rfl
  unfold attempt
  rw [hlog]
  cases htext : g.render with
  | error e =>
    rw [htext] at hrender
    exact ⟨rendered, by simp [hrendered], Or.inl ⟨e, rfl, exec_bind_of_error hrender _⟩⟩
  | ok text =>
    rw [htext] at hrender
    rw [exec_bind_of_ok hrender]
    simp only at hfiles
    obtain ⟨written, hwritten, ⟨hadmits, hagain, path, hwrite⟩ | ⟨hadmits, e, hwrite⟩⟩ :=
      Generator.exec_writeGrammar folder text c.filename rendered
    · rw [hfiles] at hadmits
      rw [exec_bind_of_ok hwrite]
      obtain ⟨called, hkept, hcalled, ⟨outcome, hinvoke⟩ | ⟨line, e, hinvoke⟩⟩ :=
        c.generator.exec_invoke folder text written
      · rw [← hkept] at hagain
        exact ⟨called, by simp [hcalled, hwritten, hrendered], Or.inr ⟨text, rfl, Or.inr
          ⟨hadmits, hagain, Or.inl ⟨_, exec_bind_of_ok hinvoke _⟩⟩⟩⟩
      · rw [← hkept] at hagain
        exact ⟨called, by simp [hcalled, hwritten, hrendered], Or.inr ⟨text, rfl, Or.inr
          ⟨hadmits, hagain, Or.inr ⟨line, e, exec_bind_of_error hinvoke _⟩⟩⟩⟩
    · rw [hfiles] at hadmits
      exact ⟨written, by simp [hwritten, hrendered], Or.inr ⟨text, rfl, Or.inl
        ⟨hadmits, e, exec_bind_of_error hwrite _⟩⟩⟩

/-- What is known of a turn whose end is given. -/
theorem turn_cases {x : Except Failure (Result ⊕ Diagnostic × Turn)}
    (h : (c.turn reports ds unsupported t).exec site = (x, site')) :
    site'.calls.length ≤ site.calls.length + 1 ∧
      ((∃ e, (t.session.grammar ds).render = .error e ∧ x = .error (.rendering e)) ∨
        ∃ text, (t.session.grammar ds).render = .ok text ∧
          ((¬ c.Admits site.files t.session.location ∧ ∃ e, x = .error (.file e)) ∨
            (c.Admits site.files t.session.location ∧ c.Admits site'.files t.session.location ∧
              ((∃ path width outcome, x = .ok (c.verdict ds unsupported t path width outcome).2) ∨
                ∃ line e, x = .error (.generator line e))))) := by
  have hlog (f : Unit → Run (Result ⊕ Diagnostic × Turn)) :
      (Run.log (transition t.session.language t.number t.before .invoking) >>= f).exec site
        = (f ()).exec { site with lines := site.lines ++
          [.logged (transition t.session.language t.number t.before .invoking)] } := rfl
  unfold turn at h
  rw [hlog] at h
  obtain ⟨next, hcalls, ⟨e, he, hexec⟩ | ⟨text, htext, ⟨hadmits, e, hexec⟩ |
    ⟨hadmits, hagain, ⟨⟨path, width, outcome⟩, hexec⟩ | ⟨line, e, hexec⟩⟩⟩⟩ :=
      exec_attempt c reports (t.session.grammar ds) t.session.location
        { site with lines := site.lines ++
          [.logged (transition t.session.language t.number t.before .invoking)] }
  · rw [exec_bind_of_error hexec] at h
    cases h
    exact ⟨hcalls, Or.inl ⟨e, he, rfl⟩⟩
  · rw [exec_bind_of_error hexec] at h
    cases h
    exact ⟨hcalls, Or.inr ⟨text, htext, Or.inl ⟨hadmits, e, rfl⟩⟩⟩
  · rw [exec_bind_of_ok hexec] at h
    cases h
    exact ⟨hcalls, Or.inr ⟨text, htext, Or.inr
      ⟨hadmits, hagain, Or.inl ⟨path, width, outcome, rfl⟩⟩⟩⟩
  · rw [exec_bind_of_error hexec] at h
    cases h
    exact ⟨hcalls, Or.inr ⟨text, htext, Or.inr ⟨hadmits, hagain, Or.inr ⟨line, e, rfl⟩⟩⟩⟩

end Steps

/-- Turns that each ended with the next one, with the sessions and the diagnostics that these were
changed for. -/
inductive Retries : Turn × Site → List (Session × Diagnostic) → Turn × Site → Prop
  | nil (x : Turn × Site) : Retries x [] x
  | cons {t t' : Turn} {site site' : Site} {d : Diagnostic} {row : List (Session × Diagnostic)}
    {last : Turn × Site} :
    (c.turn reports ds unsupported t).exec site = (.ok (.inr (d, t')), site') →
      Retries (t', site') row last → Retries (t, site) ((t.session, d) :: row) last

/-- The row of fixes along some turns. -/
inductive Fixes : Session → List (Session × Diagnostic) → Session → Prop
  | nil (s : Session) : Fixes s [] s
  | cons {s s' last : Session} {d : Diagnostic} {row : List (Session × Diagnostic)} :
    s.fix? d (some (s.grammar ds)) = some s' → Fixes s' row last → Fixes s ((s, d) :: row) last

section Retries

variable {c reports ds unsupported} {t t' : Turn} {site site' : Site} {d : Diagnostic}
  {row : List (Session × Diagnostic)}

theorem calls_turn_le {x : Except Failure (Result ⊕ Diagnostic × Turn)}
    (h : (c.turn reports ds unsupported t).exec site = (x, site')) :
    site'.calls.length ≤ site.calls.length + 1 := (turn_cases h).1

theorem of_turn_ok {x : Result ⊕ Diagnostic × Turn}
    (h : (c.turn reports ds unsupported t).exec site = (.ok x, site')) :
    (∃ text, (t.session.grammar ds).render = .ok text) ∧
      ∃ path width outcome, x = (c.verdict ds unsupported t path width outcome).2 := by
  obtain ⟨-, ⟨_, -, hx⟩ | ⟨text, htext, ⟨-, _, hx⟩ | ⟨-, -, ⟨path, width, outcome, hx⟩ |
    ⟨_, _, hx⟩⟩⟩⟩ := turn_cases h
  · cases hx
  · cases hx
  · exact ⟨⟨text, htext⟩, path, width, outcome, Except.ok.inj hx⟩
  · cases hx

theorem admits_of_turn_ok {x : Result ⊕ Diagnostic × Turn}
    (h : (c.turn reports ds unsupported t).exec site = (.ok x, site')) :
    c.Admits site.files t.session.location ∧ c.Admits site'.files t.session.location := by
  obtain ⟨-, ⟨_, -, hx⟩ | ⟨_, -, ⟨-, _, hx⟩ | ⟨hadmits, hagain, -⟩⟩⟩ := turn_cases h
  · cases hx
  · cases hx
  · exact ⟨hadmits, hagain⟩

theorem of_turn_inl {r : Result}
    (h : (c.turn reports ds unsupported t).exec site = (.ok (.inl r), site')) :
    r.session = t.session ∧ (r.phase = .done ∨ r.phase = .givenUp) := by
  obtain ⟨-, path, width, outcome, hverdict⟩ := of_turn_ok h
  exact of_verdict_inl hverdict.symm

theorem fix?_of_turn_inr
    (h : (c.turn reports ds unsupported t).exec site = (.ok (.inr (d, t')), site')) :
    t.session.fix? d (some (t.session.grammar ds)) = some t'.session := by
  obtain ⟨-, path, width, outcome, hverdict⟩ := of_turn_ok h
  exact of_verdict_inr hverdict.symm

theorem turn_rendering_iff {e : RenderError} :
    ((c.turn reports ds unsupported t).exec site).1 = .error (.rendering e) ↔
      (t.session.grammar ds).render = .error e := by
  obtain ⟨x, site', hturn⟩ : ∃ x site', (c.turn reports ds unsupported t).exec site = (x, site') :=
    ⟨_, _, rfl⟩
  rw [hturn]
  obtain ⟨-, ⟨e', he, rfl⟩ | ⟨text, htext, ⟨-, _, rfl⟩ | ⟨-, -, ⟨_, _, _, rfl⟩ |
    ⟨_, _, rfl⟩⟩⟩⟩ := turn_cases hturn
  · simp [he]
  · simp [htext]
  · simp [htext]
  · simp [htext]

theorem Retries.fixes {x y : Turn × Site} (h : c.Retries reports ds unsupported x row y) :
    Fixes ds x.1.session row y.1.session := by
  induction h with
  | nil x => exact .nil _
  | cons hturn _ ih => exact .cons (fix?_of_turn_inr hturn) ih

theorem Retries.calls_le {x y : Turn × Site} (h : c.Retries reports ds unsupported x row y) :
    y.2.calls.length ≤ x.2.calls.length + row.length := by
  induction h with
  | nil x => simp
  | cons hturn _ ih =>
    have := calls_turn_le hturn
    simp only [List.length_cons] at ih ⊢
    omega

theorem Retries.exec_attemptsFrom {x y : Turn × Site} {result : Except Failure Result}
    {last : Site} (h : c.Retries reports ds unsupported x row y)
    (hturn : (c.turn reports ds unsupported y.1).exec y.2 = (result.map .inl, last)) :
    (c.attemptsFrom reports ds unsupported x.1.session x.1.number x.1.fixes x.1.before).exec x.2
      = (result, last) := by
  induction h with
  | nil x =>
    rw [attemptsFrom_eq_turn]
    cases result with
    | ok r => exact exec_bind_of_ok hturn _
    | error e => exact exec_bind_of_error hturn _
  | cons hretry _ ih =>
    rw [attemptsFrom_eq_turn, exec_bind_of_ok hretry]
    exact ih hturn

/-- The loop is a row of retries and a last turn, which gives the result or fails. -/
theorem exists_retries (c : Loop) (reports : List Entry) (ds : List Definition)
    (unsupported : List Unsupported) (t : Turn) (site : Site) :
    ∃ row t' site', c.Retries reports ds unsupported (t, site) row (t', site') ∧
      ∃ result last, (c.turn reports ds unsupported t').exec site' = (result.map .inl, last) ∧
        (c.attemptsFrom reports ds unsupported t.session t.number t.fixes t.before).exec site
          = (result, last) := by
  suffices hend : ∃ row t' site', c.Retries reports ds unsupported (t, site) row (t', site') ∧
      ∃ (result : Except Failure Result) (last : Site),
        (c.turn reports ds unsupported t').exec site' = (result.map .inl, last) by
    obtain ⟨row, t', site', hretries, result, last, hturn⟩ := hend
    exact ⟨row, t', site', hretries, result, last, hturn, hretries.exec_attemptsFrom hturn⟩
  induction hroom : t.session.room (ds.map Definition.name) using Nat.strongRecOn
    generalizing t site with
  | _ room ih =>
    match hturn : (c.turn reports ds unsupported t).exec site with
    | (.error e, last) => exact ⟨[], t, site, .nil _, .error e, last, hturn⟩
    | (.ok (.inl r), last) => exact ⟨[], t, site, .nil _, .ok r, last, hturn⟩
    | (.ok (.inr (d, next)), site₁) =>
      have hless := Session.room_fix_lt (fix?_of_turn_inr hturn)
      rw [Session.ruleNames_grammar, hroom] at hless
      obtain ⟨row, t', site', hretries, hend⟩ := ih _ hless next site₁ rfl
      exact ⟨_, t', site', .cons hturn hretries, hend⟩

end Retries

section Runs

variable (tree : SyntaxTree) (s : Session)

def turnOf (t : Turn) : Run (Result ⊕ Diagnostic × Turn) :=
  let compiled := Compilation.definitions tree s.withCore
  c.turn (compiled.trace.map (Compilation.Event.entry s.language)) ds
    (Compilation.unsupported compiled.trace) t

/-- The turns that a run comes to, with the diagnostics of the turns before. -/
def Reaches (site : Site) (row : List (Session × Diagnostic)) (x : Turn × Site) : Prop :=
  let compiled := Compilation.definitions tree s.withCore
  c.Retries (compiled.trace.map (Compilation.Event.entry s.language)) ds
    (Compilation.unsupported compiled.trace) (⟨s, 1, [], .idle⟩, site) row x

variable {c tree s ds} {site : Site}

theorem run_eq_attemptsFrom (h : (Compilation.definitions tree s.withCore).result = .ok ds) :
    c.run tree s = c.attemptsFrom
      ((Compilation.definitions tree s.withCore).trace.map (Compilation.Event.entry s.language)) ds
      (Compilation.unsupported (Compilation.definitions tree s.withCore).trace) s 1 [] .idle := by
  rw [run]
  simp only [h]

/-- A tree that cannot be compiled is never given to the generator. -/
theorem exec_run_of_error {failure : Compilation.Failure}
    (h : (Compilation.definitions tree s.withCore).result = .error failure) (site : Site) :
    ∃ last, (c.run tree s).exec site = (.error (.compilation failure), last) ∧
      last.calls = site.calls := by
  rw [run]
  simp only [h]
  exact ⟨_, rfl, rfl⟩

theorem Reaches.exec_run {row : List (Session × Diagnostic)} {t : Turn} {site' last : Site}
    {result : Except Failure Result}
    (hds : (Compilation.definitions tree s.withCore).result = .ok ds)
    (h : c.Reaches ds tree s site row (t, site'))
    (hturn : (c.turnOf ds tree s t).exec site' = (result.map .inl, last)) :
    (c.run tree s).exec site = (result, last) := by
  rw [run_eq_attemptsFrom hds]
  exact Retries.exec_attemptsFrom h hturn

theorem exists_reaches (c : Loop) (site : Site)
    (h : (Compilation.definitions tree s.withCore).result = .ok ds) :
    ∃ row t site', c.Reaches ds tree s site row (t, site') ∧
      ∃ result last, (c.turnOf ds tree s t).exec site' = (result.map .inl, last) ∧
        (c.run tree s).exec site = (result, last) := by
  rw [run_eq_attemptsFrom h]
  exact exists_retries c _ ds _ ⟨s, 1, [], .idle⟩ site

end Runs

end AbnfCompiler.Generation.Loop
