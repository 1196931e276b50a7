import AbnfCompiler.Diagnostic.Classifier
import AbnfCompiler.Proofs.Pattern.Search

/-!
What the bundled classifier makes of a report on a rule that matches the empty string, and of one
that asks for a conflict. The names in backticks are read back as they were written.
-/
namespace AbnfCompiler.Diagnostic

open Pattern Matcher

variable {text symbol : String} {before after cs : List Char} {w : Way}

theorem takeWhile_ne_append {mark : Char} (h : mark ∉ cs) (rest : List Char) :
    (cs ++ mark :: rest).takeWhile (· ≠ mark) = cs := by
  have hcs : ∀ c ∈ cs, decide (c ≠ mark) = true := by
    intro c hc
    exact decide_eq_true (ne_of_mem_of_not_mem hc h)
  rw [List.takeWhile_append_of_pos hcs, List.takeWhile_cons_of_neg (by simp), List.append_nil]

theorem notBacktick_iff (c : Char) : setHas true [.range 0x60 0x60] c ↔ c ≠ '\x60' :=
  setHas_iff_ne '\x60' Text.isCaseless_backtick c

theorem notLineFeed_iff (c : Char) : setHas true [.range 0x0A 0x0A] c ↔ c ≠ '\n' :=
  setHas_iff_ne '\n' Text.isCaseless_lineFeed c

section EmptyMatch

/-- What the generator writes about a rule that matches the empty string. -/
def emptyMatchReport (symbol : String) : String :=
  "The rule `" ++ symbol ++ "` matches the empty string"

theorem toList_emptyMatchReport (symbol : String) (after : List Char) :
    (emptyMatchReport symbol).toList ++ after = "The rule ".toList ++ '\x60' ::
      (symbol.toList ++ '\x60' :: (" matches the empty string".toList ++ after)) := by
  simp [emptyMatchReport]

/-- The report can begin nowhere before the last characters in front of the first backtick. -/
theorem ways_emptyMatch_eq_nil (hbefore : '\x60' ∉ before) (hne : before ≠ []) (prior : Option Char)
    (rest : List Char) :
    Bundled.emptyMatch.ways prior (before ++ ("The rule ".toList ++ '\x60' :: rest)) = [] := by
  rw [List.eq_nil_iff_forall_not_mem]
  intro w hw
  obtain ⟨u, hu, v, hv, -⟩ := mem_ways_sequence.1 hw
  obtain ⟨x, hx, -, -, -⟩ := mem_ways_sequence.1 hv
  obtain ⟨hspells, hsplit⟩ := of_mem_ways_text hu
  obtain ⟨c, hc, -, hrest⟩ := of_mem_ways_letter hx
  rw [Text.isCaseless_backtick.sameLetter_iff (c := '\x60')] at hc
  have hphrase : '\x60' ∉ "The rule ".toList := by decide
  have htaken : '\x60' ∉ u.taken :=
    (hspells.mem_iff '\x60' Text.isCaseless_backtick).not.2 hphrase
  have hstart : '\x60' ∉ before ++ "The rule ".toList := by
    rw [List.mem_append]
    exact not_or.2 ⟨hbefore, hphrase⟩
  rw [hrest, hc, ← List.append_assoc] at hsplit
  have heq := congrArg (List.takeWhile (· ≠ '\x60')) hsplit
  rw [takeWhile_ne_append hstart, takeWhile_ne_append htaken] at heq
  have hlength := congrArg List.length heq
  rw [List.length_append, ← hspells.length_eq] at hlength
  have hpos := List.length_pos_of_ne_nil hne
  omega

theorem search_emptyMatch (htext : text.toList = before ++ ((emptyMatchReport symbol).toList ++ after))
    (hbefore : '\x60' ∉ before) (hsymbol : '\x60' ∉ symbol.toList) (hne : symbol ≠ "") :
    ∃ w, Bundled.emptyMatch.search text = some w ∧ w.groups = [("rule", symbol)] := by
  rw [toList_emptyMatchReport] at htext
  have hrun : ∀ c ∈ symbol.toList, setHas true [.range 0x60 0x60] c := by
    intro c hc
    exact (notBacktick_iff c).2 (ne_of_mem_of_not_mem hc hsymbol)
  have hstop (rest : List Char) : ∀ c ∈ ('\x60' :: rest).head?,
      setHas true [.range 0x60 0x60] c = false := by
    rintro _ ⟨⟩
    exact Bool.eq_false_iff.2 fun h ↦ (notBacktick_iff _).1 h rfl
  have hname : symbol.toList ≠ [] := fun hnil ↦ hne (String.toList_inj.1 hnil)
  have hfirst (prior : Option Char) := (first_text (spells_self "The rule ".toList) prior _).sequence
    ((first_letter (Text.sameLetter_self '\x60') _ _).sequence
      (((first_oneOrMore hname hrun (hstop _) _).group "rule").sequence
        ((first_letter (Text.sameLetter_self '\x60') _ _).sequence
          ((first_text (spells_self " matches the empty string".toList) _ after).sequence
            (first_empty _ _)))))
  refine ⟨_, search_eq_some htext ?_ hfirst, ?_⟩
  · intro a b hsplit hb prior
    refine ways_emptyMatch_eq_nil (fun hmem ↦ hbefore ?_) hb prior _
    rw [hsplit]
    exact List.mem_append_right _ hmem
  · simp [Way.followedBy, Way.named]

end EmptyMatch

section MissingConflict

/-- What the generator writes in front of rules that are in conflict. -/
def conflictPhrase : String := "Add a conflict for these rules:"

/-- What may stand between names in backticks, such as commas and blanks. -/
def IsGap (cs : List Char) : Prop := '\x60' ∉ cs ∧ '\n' ∉ cs

instance : DecidablePred IsGap := fun cs ↦ inferInstanceAs (Decidable ('\x60' ∉ cs ∧ '\n' ∉ cs))

/-- Names in backticks, with a gap behind each of them. -/
def quotedRow (row : List (String × List Char)) : List Char :=
  row.flatMap fun (name, gap) ↦ '\x60' :: (name.toList ++ '\x60' :: gap)

/-- Where the text asks for a conflict the first time, in whatever letter case, the rest of the line
lists the names. -/
inductive AsksForConflict (names : List String) (text : String) : Prop
  | intro {before found lead rest : List Char} {row : List (String × List Char)} :
      text.toList = before ++ (found ++ (lead ++ quotedRow row ++ rest)) →
      Spells conflictPhrase.toList found →
      (∀ a b c, text.toList = a ++ (b ++ c) → Spells conflictPhrase.toList b →
        before.length ≤ a.length) →
      IsGap lead → (∀ entry ∈ row, IsGap entry.2) → row.map Prod.fst = names →
      (∀ c ∈ rest.head?, c = '\n') → AsksForConflict names text

/-- Names that can be read back from between backticks, all of them in one line. -/
def Quotable (name : String) : Prop := name ≠ "" ∧ IsGap name.toList

theorem backquotedFrom_none (h : '\x60' ∉ cs) (rest : List Char) :
    backquotedFrom none (cs ++ rest) = backquotedFrom none rest := by
  induction cs with
  | nil => rfl
  | cons c cs ih =>
    rw [List.mem_cons, not_or] at h
    rw [List.cons_append, backquotedFrom, if_neg (Ne.symm h.1), ih h.2]

theorem backquotedFrom_some {taken name : List Char} (h : '\x60' ∉ name)
    (hne : taken ++ name ≠ []) (rest : List Char) :
    backquotedFrom (some taken) (name ++ '\x60' :: rest)
      = String.ofList (taken ++ name) :: backquotedFrom none rest := by
  induction name generalizing taken with
  | nil =>
    rw [List.append_nil] at hne ⊢
    obtain ⟨a, as, rfl⟩ := List.exists_cons_of_ne_nil hne
    rw [List.nil_append, backquotedFrom, if_pos rfl]
  | cons c name ih =>
    rw [List.mem_cons, not_or] at h
    have hstep : backquotedFrom (some taken) (c :: (name ++ '\x60' :: rest))
        = backquotedFrom (some (taken ++ [c])) (name ++ '\x60' :: rest) := by
      cases taken with
      | nil => rw [backquotedFrom, if_neg (Ne.symm h.1), List.nil_append]
      | cons a as => rw [backquotedFrom, if_neg (Ne.symm h.1), List.cons_append]
    rw [List.cons_append, hstep, ih h.2 (by simp), List.append_assoc, List.singleton_append]

theorem backquotedFrom_quotedRow {row : List (String × List Char)}
    (hrow : ∀ entry ∈ row, Quotable entry.1 ∧ IsGap entry.2) :
    backquotedFrom none (quotedRow row) = row.map Prod.fst := by
  induction row with
  | nil => rfl
  | cons entry row ih =>
    obtain ⟨name, gap⟩ := entry
    obtain ⟨⟨⟨hne, hname⟩, hgap⟩, hrow⟩ := List.forall_mem_cons.1 hrow
    have hchars : name.toList ≠ [] := fun hnil ↦ hne (String.toList_inj.1 hnil)
    have hsplit : quotedRow ((name, gap) :: row)
        = '\x60' :: (name.toList ++ '\x60' :: (gap ++ quotedRow row)) := by
      simp [quotedRow]
    rw [hsplit, backquotedFrom, if_pos rfl, backquotedFrom_some hname.1 hchars,
      backquotedFrom_none hgap.1, ih hrow, List.nil_append, String.ofList_toList, List.map_cons]

theorem not_mem_quotedRow {row : List (String × List Char)}
    (hrow : ∀ entry ∈ row, Quotable entry.1 ∧ IsGap entry.2) : '\n' ∉ quotedRow row := by
  intro hmem
  obtain ⟨⟨name, gap⟩, hentry, hmem⟩ := List.mem_flatMap.1 hmem
  obtain ⟨⟨-, hname⟩, hgap⟩ := hrow _ hentry
  simp only [List.mem_cons, List.mem_append] at hmem
  rcases hmem with hmem | hmem | hmem | hmem
  · cases hmem
  · exact hname.2 hmem
  · cases hmem
  · exact hgap.2 hmem

theorem search_missingConflict {names : List String} (h : AsksForConflict names text)
    (hne : names ≠ []) (hnames : ∀ n ∈ names, Quotable n) :
    ∃ w line, Bundled.missingConflict.search text = some w ∧ w.groups = [("rules", line)] ∧
      backquoted line = names := by
  obtain ⟨htext, hfound, hearliest, hlead, hgaps, rfl, hrest⟩ := h
  rename_i before found lead rest row
  have hrow : ∀ entry ∈ row, Quotable entry.1 ∧ IsGap entry.2 := fun entry hentry ↦
    ⟨hnames _ (List.mem_map_of_mem hentry), hgaps entry hentry⟩
  have hline : '\n' ∉ lead ++ quotedRow row := by
    rw [List.mem_append]
    exact not_or.2 ⟨hlead.2, not_mem_quotedRow hrow⟩
  have hlong : lead ++ quotedRow row ≠ [] := by
    cases row with
    | nil => exact absurd rfl hne
    | cons entry row => simp [quotedRow]
  have hrun : ∀ c ∈ lead ++ quotedRow row, setHas true [.range 0x0A 0x0A] c := by
    intro c hc
    exact (notLineFeed_iff c).2 (ne_of_mem_of_not_mem hc hline)
  have hstop : ∀ c ∈ rest.head?, setHas true [.range 0x0A 0x0A] c = false := by
    intro c hc
    exact Bool.eq_false_iff.2 fun h ↦ (notLineFeed_iff c).1 h (hrest c hc)
  have hfirst (prior : Option Char) := (first_text hfound prior _).sequence
    (((first_oneOrMore hlong hrun hstop _).group "rules").sequence (first_empty _ _))
  refine ⟨_, String.ofList (lead ++ quotedRow row), search_eq_some htext ?_ hfirst, ?_, ?_⟩
  · intro a b hsplit hb prior
    rw [List.eq_nil_iff_forall_not_mem]
    intro w hw
    obtain ⟨u, hu, -⟩ := mem_ways_sequence.1 hw
    obtain ⟨hspells, hu⟩ := of_mem_ways_text hu
    rw [hsplit, List.append_assoc, hu] at htext
    have hle := hearliest a u.taken u.rest htext hspells
    rw [hsplit, List.length_append] at hle
    have hpos := List.length_pos_of_ne_nil hb
    omega
  · simp [Way.followedBy, Way.named]
  · rw [backquoted, String.toList_ofList, backquotedFrom_none hlead.1,
      backquotedFrom_quotedRow hrow]

end MissingConflict

section Classify

theorem classify_bundled {d : Diagnostic}
    (h : (diagnose text Bundled.patterns).2 = some d) :
    (Classifier.bundled.classify text none).2 = d := by
  have hpair : diagnose text Bundled.patterns = ((diagnose text Bundled.patterns).1, some d) :=
    Prod.ext rfl h
  change (Classifier.classifyWith text [Bundled.matcher]).2 = d
  rw [Classifier.classifyWith, Bundled.matcher, hpair]

theorem rulesOf_rule (h : w.groups = [("rule", symbol)]) (hne : symbol ≠ "") :
    rulesOf w = [symbol] := by
  have hrules : w.group? "rules" = none := by rw [Way.group?, h]; rfl
  have hrule : w.group? "rule" = some symbol := by rw [Way.group?, h]; rfl
  unfold rulesOf
  rw [hrules, hrule]
  split <;> simp_all

theorem rulesOf_rules {line : String} (h : w.groups = [("rules", line)])
    (hne : backquoted line ≠ []) : rulesOf w = backquoted line := by
  have hrules : w.group? "rules" = some line := by rw [Way.group?, h]; rfl
  have hrule : w.group? "rule" = none := by rw [Way.group?, h]; rfl
  have hline : line ≠ "" := by
    rintro rfl
    exact hne rfl
  have hlist : ruleList line = backquoted line := by
    unfold ruleList
    split
    · next hnil => exact absurd hnil hne
    · rfl
  unfold rulesOf
  rw [hrules, hrule]
  split <;> simp_all

/-- A report on a rule that matches the empty string, behind a text without backticks. -/
theorem classify_emptyMatchReport {before after : String} (hbefore : '\x60' ∉ before.toList)
    (hsymbol : Quotable symbol) :
    (Classifier.bundled.classify (before ++ emptyMatchReport symbol ++ after) none).2
      = ⟨.emptyMatch, [symbol], before ++ emptyMatchReport symbol ++ after⟩ := by
  have htext : (before ++ emptyMatchReport symbol ++ after).toList
      = before.toList ++ ((emptyMatchReport symbol).toList ++ after.toList) := by simp
  obtain ⟨w, hsearch, hgroups⟩ := search_emptyMatch htext hbefore hsymbol.2.1 hsymbol.1
  apply classify_bundled
  rw [Bundled.patterns, diagnose, hsearch]
  simp only [rulesOf_rule hgroups hsymbol.1]

theorem classify_conflict {names : List String} (h : AsksForConflict names text) (hne : names ≠ [])
    (hnames : ∀ n ∈ names, Quotable n) (hempty : Bundled.emptyMatch.search text = none) :
    (Classifier.bundled.classify text none).2 = ⟨.missingConflict, names, text⟩ := by
  obtain ⟨w, line, hsearch, hgroups, hline⟩ := search_missingConflict h hne hnames
  have hrules : rulesOf w = names := by
    rw [rulesOf_rules hgroups (by rw [hline]; exact hne), hline]
  obtain ⟨n, ns, rfl⟩ := List.exists_cons_of_ne_nil hne
  apply classify_bundled
  rw [Bundled.patterns, diagnose, hempty]
  simp only [diagnose, hsearch, hrules]

end Classify

end AbnfCompiler.Diagnostic
