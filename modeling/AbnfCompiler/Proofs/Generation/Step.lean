import AbnfCompiler.Generation.Loop

/-!
The changes of state of a loop, as they are read from what it logged.
-/
namespace AbnfCompiler.Generation

open Log

/-- A change of the state, with the number of the attempt. -/
structure Step where
  attempt : Int
  before : Phase
  after : Phase
deriving DecidableEq, Repr

def Phase.named? (name : String) : Option Phase := Phase.all.find? (·.name == name)

theorem Phase.named?_name (p : Phase) : named? p.name = some p := by
  cases p <;> rfl

namespace Step

/-- The channel of the loop. -/
def channel : String := "abnf_ts.services.feedback"

def ofFields? (fields : Fields) : Option Step :=
  match fields.lookup "attempt", fields.lookup "from_state", fields.lookup "phase" with
  | some (.int attempt), some (.text before), some (.text after) => do
    return ⟨attempt, ← Phase.named? before, ← Phase.named? after⟩
  | _, _, _ => none

def ofEntry? (e : Entry) : Option Step := if e.channel = channel then ofFields? e.fields else none

def ofLine? : Line → Option Step
  | .said _ => none
  | .logged e => ofEntry? e

end Step

/-- The changes of state among some lines. -/
def steps (lines : List Line) : List Step := lines.filterMap Step.ofLine?

section Lines

variable {language : String} {entries : List Entry}

theorem steps_append (xs ys : List Line) : steps (xs ++ ys) = steps xs ++ steps ys :=
  List.filterMap_append

theorem steps_logged (entries : List Entry) :
    steps (entries.map .logged) = entries.filterMap Step.ofEntry? :=
  List.filterMap_map

/-- None of the entries is about a change of state. -/
def Quiet (entries : List Entry) : Prop := ∀ e ∈ entries, Step.ofEntry? e = none

theorem Quiet.filterMap_eq (h : Quiet entries) : entries.filterMap Step.ofEntry? = [] :=
  List.filterMap_eq_nil_iff.2 h

theorem quiet_of_channel (h : ∀ e ∈ entries, e.channel ≠ Step.channel) : Quiet entries :=
  fun e he ↦ if_neg (h e he)

theorem ofEntry?_transition (number : Int) (before after : Phase) :
    Step.ofEntry? (Loop.transition language number before after)
      = some ⟨number, before, after⟩ := by
  have hfields : (Loop.transition language number before after).fields
      = [("grammar", .text language), ("attempt", .int number), ("phase", .text after.name),
        ("from_state", .text before.name)] := rfl
  have hchannel : (Loop.transition language number before after).channel = Step.channel := rfl
  rw [Step.ofEntry?, if_pos hchannel, hfields]
  simp [Step.ofFields?, List.lookup_cons, Phase.named?_name]

theorem quiet_compilation (events : List Compilation.Event) :
    Quiet (events.map (Compilation.Event.entry language)) := by
  apply quiet_of_channel
  intro e he
  obtain ⟨event, -, rfl⟩ := List.mem_map.1 he
  have hchannel : (event.entry language).channel = "abnf_ts.translator.rule_translator" := by
    cases event <;> rfl
  rw [hchannel]
  decide

theorem channel_generatorCall (c : Channel) (command cwd : String) (code : Option Int)
    (duration : Option Data.Value) (error : String) :
    (c.generatorCall command cwd code duration error).channel = c.name := by
  unfold Channel.generatorCall
  simp only
  split <;> rfl

/-- Entries of the loop itself with other fields than those of a change of state. -/
theorem ofEntry?_extra {level : Level} {message : String} {extra : Fields}
    (h : (Fields.update [("grammar", .text language)] extra).lookup "from_state" = none) :
    Step.ofEntry? ((Loop.log language).entry level message extra) = none := by
  have hfields : ((Loop.log language).entry level message extra).fields
      = Fields.update [("grammar", .text language)] extra := rfl
  unfold Step.ofEntry?
  split
  · rw [hfields, Step.ofFields?, h]
    split
    · next hstate _ => cases hstate
    · rfl
  · rfl

theorem channel_diagnose (text : String) (patterns : List (Diagnostic.Kind × Pattern)) :
    ∀ e ∈ (Diagnostic.Matcher.diagnose text patterns).1,
      e.channel = Diagnostic.Matcher.log.name := by
  induction patterns with
  | nil => simp [Diagnostic.Matcher.diagnose]
  | cons row patterns ih =>
    unfold Diagnostic.Matcher.diagnose
    split
    · exact ih
    · split
      · exact List.forall_mem_cons.2 ⟨rfl, ih⟩
      · simp

theorem channel_classifyWith (text : String) (matchers : List Diagnostic.Matcher) :
    ∀ e ∈ (Diagnostic.Classifier.classifyWith text matchers).1, e.channel ≠ Step.channel := by
  have hmatcher : Diagnostic.Matcher.log.name ≠ Step.channel := by decide
  have hclassifier : Diagnostic.Classifier.log.name ≠ Step.channel := by decide
  induction matchers with
  | nil => simp [Diagnostic.Classifier.classifyWith]
  | cons m matchers ih =>
    have hentries : ∀ e ∈ (Diagnostic.Matcher.diagnose text m.patterns).1,
        e.channel ≠ Step.channel := fun e he ↦ by rwa [channel_diagnose text m.patterns e he]
    unfold Diagnostic.Classifier.classifyWith
    split
    · next entries d hdiagnose =>
      rw [hdiagnose] at hentries
      exact List.forall_mem_append.2 ⟨hentries, List.forall_mem_singleton.2 hclassifier⟩
    · next entries hdiagnose =>
      rw [hdiagnose] at hentries
      exact List.forall_mem_append.2 ⟨hentries, ih⟩

/-- Classifiers have channels of their own. -/
theorem channel_classify (k : Diagnostic.Classifier) (text : String)
    (generator : Option Data.Value) :
    ∀ e ∈ (k.classify text generator).1, e.channel ≠ Step.channel :=
  channel_classifyWith text _

end Lines

end AbnfCompiler.Generation
