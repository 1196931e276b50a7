import AbnfCompiler.Proofs.Grammar.Script
import AbnfCompiler.Proofs.Script.Language

/-!
The whole text of a grammar, line by line: what every line of it adds to the script.
-/
namespace AbnfCompiler.Grammar

open RuleName Script

variable (g : Grammar)

def bodyText (r : Rule) : String := g.nativeText r.body.spelled

def bodyTerm (r : Rule) : Term := .function (g.term r.body.spelled)

def helperText (r : Rule) : String := "const " ++ helper r.name ++ " = $ => " ++ g.bodyText r ++ ";"

def entryText (comments : List String) (r : Rule) : String :=
  "\n".intercalate (comments.map commentLine ++
    [indent ++ g.symbol r.name ++ ": $ => " ++ g.bodyText r])

/-- The text of a grammar that can be presented. -/
def text : String :=
  let helpers := (g.rules.filter Rule.inlined).map g.helperText
  let entries :=
    (withHeading (g.rules.filter fun r ↦ !r.inlined)).map fun (cs, r) ↦ g.entryText cs r
  let start := indent ++ entryRule ++ ": $ => " ++ g.reference g.start
  "\n".intercalate
    (helpers ++ (if helpers = [] then [] else [""])
      ++ ["module.exports = grammar(\x7b", "  name: " ++ Text.jsonText g.name ++ ",", ""]
      ++ g.conflictLines
      ++ ["  rules: \x7b", ",\n\n".intercalate (start :: entries), "  \x7d", "\x7d);"]) ++ "\n"

variable {g : Grammar} {r : Rule} {ss : List (Target × Term)}

section Text

theorem mapM_eq_ok {ε α β : Type} {f : α → Except ε β} {h : α → β} {xs : List α}
    (hf : ∀ x ∈ xs, f x = .ok (h x)) : xs.mapM f = .ok (xs.map h) := by
  induction xs with
  | nil => rfl
  | cons x xs ih =>
    rw [List.forall_mem_cons] at hf
    rw [List.mapM_cons, hf.1, ih hf.2]
    rfl

theorem exists_of_mapM_eq_ok {ε α β : Type} {f : α → Except ε β} {xs : List α} {ys : List β}
    (h : xs.mapM f = .ok ys) : ∀ x ∈ xs, ∃ y, f x = .ok y := by
  induction xs generalizing ys with
  | nil => exact fun x hx ↦ absurd hx List.not_mem_nil
  | cons x xs ih =>
    rw [List.mapM_cons] at h
    obtain ⟨y, hy, h⟩ := except_bind_eq_ok.1 h
    obtain ⟨ys', hys, -⟩ := except_bind_eq_ok.1 h
    exact List.forall_mem_cons.2 ⟨⟨y, hy⟩, ih hys⟩

theorem mem_of_mem_withHeading {rs : List Rule} {cs : List String}
    (h : (cs, r) ∈ withHeading rs) :
    r ∈ rs ∧ ∀ c ∈ cs, c = CoreRules.heading ∨ c ∈ r.comments := by
  induction rs with
  | nil => cases h
  | cons r' rs ih =>
    rw [withHeading] at h
    split at h
    · rcases List.mem_cons.1 h with heq | h
      · cases heq
        exact ⟨List.mem_cons_self .., fun c hc ↦ List.mem_cons.1 hc⟩
      · obtain ⟨r'', hr'', heq⟩ := List.mem_map.1 h
        cases heq
        exact ⟨List.mem_cons_of_mem _ hr'', fun c hc ↦ Or.inr hc⟩
    · rcases List.mem_cons.1 h with heq | h
      · cases heq
        exact ⟨List.mem_cons_self .., fun c hc ↦ Or.inr hc⟩
      · exact (ih h).imp_left (List.mem_cons_of_mem _)

theorem map_snd_withHeading (rs : List Rule) : (withHeading rs).map Prod.snd = rs := by
  induction rs with
  | nil => rfl
  | cons r rs ih =>
    rw [withHeading]
    split
    · rw [List.map_cons, List.map_map]
      exact congrArg (r :: ·) (List.map_id _)
    · rw [List.map_cons, ih]

theorem expressionText_body (h : r.body.spelledOut = .ok r.body.spelled) :
    g.expressionText r.body = .ok (g.bodyText r) :=
  expressionText_eq_ok.2 ⟨_, h, rfl⟩

theorem render_eq_text (hvalid : g.flaw? = none)
    (hspelled : ∀ r ∈ g.rules, r.body.spelledOut = .ok r.body.spelled) :
    g.render = .ok g.text := by
  have hhelpers : (g.rules.filter Rule.inlined).mapM g.helperLine
      = .ok ((g.rules.filter Rule.inlined).map g.helperText) := by
    apply mapM_eq_ok
    intro r hr
    rw [helperLine, expressionText_body (hspelled r (List.mem_of_mem_filter hr))]
    rfl
  have hentries : (withHeading (g.rules.filter fun r ↦ !r.inlined)).mapM
        (fun (cs, r) ↦ g.ruleEntry cs r)
      = .ok ((withHeading (g.rules.filter fun r ↦ !r.inlined)).map
          fun (cs, r) ↦ g.entryText cs r) := by
    apply mapM_eq_ok
    intro (cs, r) hr
    have hmem := List.mem_of_mem_filter (mem_of_mem_withHeading hr).1
    simp only
    rw [ruleEntry, expressionText_body (hspelled r hmem)]
    rfl
  rw [render, hvalid]
  simp only
  rw [hhelpers, except_ok_bind, hentries]
  rfl

theorem spelledOut_of_expressionText {body : String} (h : g.expressionText r.body = .ok body) :
    r.body.spelledOut = .ok r.body.spelled := by
  obtain ⟨e, he, -⟩ := expressionText_eq_ok.1 h
  rw [Expression.spelled, he]

/-- The lines of a grammar that is rendered hold the body of every rule. -/
theorem spelledOut_of_lines {helpers entries : List String}
    (hhelpers : (g.rules.filter Rule.inlined).mapM g.helperLine = .ok helpers)
    (hentries : (withHeading (g.rules.filter fun r ↦ !r.inlined)).mapM
      (fun (cs, r) ↦ g.ruleEntry cs r) = .ok entries) (hr : r ∈ g.rules) :
    r.body.spelledOut = .ok r.body.spelled := by
  by_cases hinlined : r.inlined
  · obtain ⟨line, hline⟩ := exists_of_mapM_eq_ok hhelpers r (List.mem_filter.2 ⟨hr, hinlined⟩)
    obtain ⟨body, hbody, -⟩ := except_bind_eq_ok.1 hline
    exact spelledOut_of_expressionText hbody
  · have hmem : r ∈ (withHeading (g.rules.filter fun r ↦ !r.inlined)).map Prod.snd := by
      rw [map_snd_withHeading, List.mem_filter]
      exact ⟨hr, by rw [Bool.eq_false_iff.2 hinlined]; rfl⟩
    obtain ⟨⟨cs, r⟩, hentry, rfl⟩ := List.mem_map.1 hmem
    obtain ⟨entry, hentry⟩ := exists_of_mapM_eq_ok hentries (cs, r) hentry
    obtain ⟨body, hbody, -⟩ := except_bind_eq_ok.1 hentry
    exact spelledOut_of_expressionText hbody

/-- What is rendered is the text of a valid grammar, all of whose bodies can be spelled out. -/
theorem render_eq_ok {t : String} : g.render = .ok t ↔ g.flaw? = none ∧
    (∀ r ∈ g.rules, r.body.spelledOut = .ok r.body.spelled) ∧ t = g.text := by
  constructor
  · intro h
    have hrender := h
    rw [render] at h
    split at h
    · cases h
    · next hvalid =>
      obtain ⟨helpers, hhelpers, h⟩ := except_bind_eq_ok.1 (mapError_eq_ok.1 h)
      obtain ⟨entries, hentries, -⟩ := except_bind_eq_ok.1 h
      have hspelled : ∀ r ∈ g.rules, r.body.spelledOut = .ok r.body.spelled :=
        fun _ ↦ spelledOut_of_lines hhelpers hentries
      rw [render_eq_text hvalid hspelled] at hrender
      exact ⟨hvalid, hspelled, (Except.ok.inj hrender).symm⟩
  · rintro ⟨hvalid, hspelled, rfl⟩
    exact render_eq_text hvalid hspelled

theorem Presentable.spelledOut_body (hg : g.Presentable) (hr : r ∈ g.rules) :
    r.body.spelledOut = .ok r.body.spelled :=
  (Expression.spelledOut_eq_ok (hg.writable r hr)).1

theorem Presentable.render_eq (hg : g.Presentable) : g.render = .ok g.text :=
  render_eq_text hg.valid fun _ ↦ hg.spelledOut_body

end Text

section Lines

theorem Presentable.reads_body (hg : g.Presentable) (hr : r ∈ g.rules) :
    Reads (g.bodyText r).toList (g.term r.body.spelled) := by
  have hspelled := (Expression.spelledOut_eq_ok (hg.writable r hr)).2
  exact g.reads_nativeText hspelled.writable fun n hn ↦
    hg.isPlain_normal (hg.defined r hr n (hspelled.references n hn))

theorem Presentable.moves_helper (hg : g.Presentable) (hr : r ∈ g.rules) :
    Moves ((g.helperText r).toList ++ ['\n']) ⟨ss, [], .statement⟩
      ⟨ss ++ [(.constant (helper r.name), g.bodyTerm r)], [], .statement⟩ := by
  have hchars : (g.helperText r).toList ++ ['\n'] = "const ".toList ++ ((helper r.name).toList ++
      ' ' :: ("= $ => ".toList ++ ((g.bodyText r).toList ++ ';' :: ['\n']))) := by
    simp [helperText]
  have hall := isNameChar_helper (hg.isPlain_normal_name hr)
  have hpath := pathOf_of_not_mem fun hdot ↦ ne_dot_of_isNameChar (hall _ hdot) rfl
  rw [String.ofList_toList] at hpath
  have hconst : Moves "const ".toList ⟨ss, [], .statement⟩ ⟨ss, [], .name⟩ :=
    ⟨[.path ["const"]], rfl, rfl⟩
  have hname : Leads (helper r.name).toList ⟨ss, [], .name⟩
      ⟨ss, [], .equals (.constant (helper r.name))⟩ :=
    leads_token (lexes_word (by simp [helper]) fun c hc ↦ isWordChar_of_isNameChar (hall c hc))
      (by rw [hpath]; rfl)
  have hequals : Moves (' ' :: "= $ => ".toList) ⟨ss, [], .equals (.constant (helper r.name))⟩
      ⟨ss, [.function, .statement (.constant (helper r.name))], .term⟩ :=
    ⟨[.sign '=', .path ["$"], .arrow], rfl, rfl⟩
  have hend : Moves (';' :: ['\n'])
      ⟨ss, [.function, .statement (.constant (helper r.name))], .done (g.term r.body.spelled)⟩
      ⟨ss ++ [(.constant (helper r.name), g.bodyTerm r)], [], .statement⟩ :=
    ⟨[.sign ';'], rfl, rfl⟩
  rw [hchars]
  exact hconst.append (hname.append rfl (hequals.append ((hg.reads_body hr _ _).append rfl hend)))

theorem Presentable.moves_helpers (hg : g.Presentable) {rs : List Rule} (h : ∀ r ∈ rs, r ∈ g.rules)
    (ss : List (Target × Term)) :
    Moves ((rs.map g.helperText).flatMap fun line ↦ line.toList ++ ['\n']) ⟨ss, [], .statement⟩
      ⟨ss ++ rs.map fun r ↦ (.constant (helper r.name), g.bodyTerm r), [], .statement⟩ := by
  induction rs generalizing ss with
  | nil =>
    rw [List.map_nil, List.map_nil, List.append_nil]
    exact ⟨[], rfl, rfl⟩
  | cons r rs ih =>
    rw [List.forall_mem_cons] at h
    have hrest := ih h.2 (ss ++ [(.constant (helper r.name), g.bodyTerm r)])
    rw [List.append_assoc] at hrest
    rw [List.map_cons, List.flatMap_cons]
    exact (hg.moves_helper h.1).append hrest

theorem scan_comment {cs : List Char} (h : ∀ c ∈ cs, ¬ isLineBreak c) :
    scan .comment cs = some (.comment, []) := by
  refine scan_taken (fun _ ↦ .comment) ?_ h []
  intro _ c hc
  rw [step, if_neg hc]

/-- Without its last blanks a line of comment still begins with the slashes. -/
theorem toList_commentLine (comment : String) : ∃ rest, (∀ c ∈ rest, c = ' ' ∨ c ∈ comment.toList) ∧
    (commentLine comment).toList = "    //".toList ++ rest := by
  refine ⟨((' ' :: comment.toList).reverse.dropWhile Text.isBlank).reverse, fun c hc ↦ ?_, ?_⟩
  · have hmem := (List.dropWhile_sublist _).subset (List.mem_reverse.1 hc)
    exact List.mem_cons.1 (List.mem_reverse.1 hmem)
  · have hchars : (indent ++ "// " ++ comment).toList
        = "    //".toList ++ ' ' :: comment.toList := by
      simp [indent]
    rw [commentLine, Text.stripEnd, String.toList_ofList, hchars, List.reverse_append,
      List.dropWhile_append]
    split
    · next hempty =>
      rw [List.isEmpty_iff.1 hempty]
      rfl
    · rw [List.reverse_append, List.reverse_reverse]

theorem closed_commentLine {comment : String} (h : ∀ c ∈ comment.toList, ¬ isLineBreak c) :
    Closed ((commentLine comment).toList ++ ['\n']) [] := by
  obtain ⟨rest, hrest, hchars⟩ := toList_commentLine comment
  have hslashes : scan .plain "    //".toList = some (.comment, []) := rfl
  have hbreak : ∀ c ∈ rest, ¬ isLineBreak c := by
    intro c hc
    rcases hrest c hc with rfl | hc
    · decide
    · exact h c hc
  rw [Closed, hchars, List.append_assoc, scan_append hslashes, scan_append (scan_comment hbreak)]
  rfl

end Lines

section Entries

theorem intercalate_concat {α : Type} (sep : List α) (ls : List (List α)) (l : List α) :
    sep.intercalate (ls ++ [l]) = (ls.flatMap fun x ↦ x ++ sep) ++ l := by
  induction ls with
  | nil => simp
  | cons x ls ih =>
    rw [List.cons_append, List.intercalate_cons_of_ne_nil (by simp), ih, List.flatMap_cons]
    simp only [List.append_assoc]

/-- The characters are an entry of an object, whose value is a function. -/
def ReadsEntry (cs : List Char) (entry : String × Term) : Prop :=
  ∃ t, entry.2 = .function t ∧ ∀ ss stack es, Leads cs ⟨ss, stack, .key es⟩
    ⟨ss, .function :: .entry es entry.1 :: stack, .done t⟩

theorem readsEntry_of_reads {key body : String} {t : Term} (hne : key.toList ≠ [])
    (hkey : ∀ c ∈ key.toList, isNameChar c) (hbody : Reads body.toList t) :
    ReadsEntry (indent ++ key ++ ": $ => " ++ body).toList (key, .function t) := by
  refine ⟨t, rfl, fun ss stack es ↦ ?_⟩
  have hchars : (indent ++ key ++ ": $ => " ++ body).toList
      = ("    ".toList ++ (key.toList ++ ':' :: " $ => ".toList)) ++ body.toList := by
    simp [indent]
  have hpath := pathOf_of_not_mem fun hdot ↦ ne_dot_of_isNameChar (hkey _ hdot) rfl
  rw [String.ofList_toList] at hpath
  have hindent : Moves "    ".toList ⟨ss, stack, .key es⟩ ⟨ss, stack, .key es⟩ := ⟨[], rfl, rfl⟩
  have hname : Leads key.toList ⟨ss, stack, .key es⟩ ⟨ss, stack, .colon es key⟩ :=
    leads_token (lexes_word hne fun c hc ↦ isWordChar_of_isNameChar (hkey c hc))
      (by rw [hpath]; rfl)
  have hcolon : Moves (':' :: " $ => ".toList) ⟨ss, stack, .colon es key⟩
      ⟨ss, .function :: .entry es key :: stack, .term⟩ :=
    ⟨[.sign ':', .path ["$"], .arrow], rfl, rfl⟩
  rw [hchars]
  exact (hindent.append (hname.append rfl hcolon)).append_leads (hbody _ _)

theorem ReadsEntry.withComments {comments : List String} {line : String} {entry : String × Term}
    (h : ReadsEntry line.toList entry)
    (hcomments : ∀ comment ∈ comments, ∀ c ∈ comment.toList, ¬ isLineBreak c) :
    ReadsEntry ("\n".intercalate (comments.map commentLine ++ [line])).toList entry := by
  obtain ⟨t, ht, hleads⟩ := h
  refine ⟨t, ht, fun ss stack es ↦ ?_⟩
  have hclosed : Closed ((comments.map fun c ↦ (commentLine c).toList).flatMap
      fun x ↦ x ++ ['\n']) [] := by
    clear hleads
    induction comments with
    | nil => rfl
    | cons comment comments ih =>
      rw [List.forall_mem_cons] at hcomments
      exact (closed_commentLine hcomments.1).append (ih hcomments.2)
  have hskip : Moves _ ⟨ss, stack, .key es⟩ ⟨ss, stack, .key es⟩ := ⟨[], hclosed, rfl⟩
  rw [String.toList_intercalate, List.map_append, List.map_map, List.map_singleton]
  change Leads (['\n'].intercalate _) _ _
  rw [intercalate_concat]
  exact hskip.append_leads (hleads ss stack es)

/-- Entries with commas and an empty line between them, up to the bracket that closes the object. -/
theorem moves_entries {texts : List (List Char)} {entries : List (String × Term)}
    (h : List.Forall₂ ReadsEntry texts entries) (hne : texts ≠ []) (ss : List (Target × Term))
    (stack : List Frame) (es : List (String × Term)) :
    Moves ([',', '\n', '\n'].intercalate texts ++ '\n' :: "  \x7d\n".toList)
      ⟨ss, stack, .key es⟩ ⟨ss, stack, .done (.object (es ++ entries))⟩ := by
  induction h generalizing es with
  | nil => exact absurd rfl hne
  | @cons a entry texts entries ha h ih =>
    obtain ⟨key, value⟩ := entry
    obtain ⟨t, rfl, hleads⟩ := ha
    cases h with
    | nil =>
      rw [List.intercalate_singleton]
      exact (hleads ss stack es).append rfl ⟨[.sign '\x7d'], rfl, rfl⟩
    | cons hb h =>
      have hcomma : Moves [',', '\n', '\n'] ⟨ss, .function :: .entry es key :: stack, .done t⟩
          ⟨ss, stack, .key (es ++ [(key, .function t)])⟩ := ⟨[.sign ','], rfl, rfl⟩
      have hrest := hcomma.append (ih (List.cons_ne_nil _ _) (es ++ [(key, .function t)]))
      rw [List.append_assoc] at hrest
      rw [List.intercalate_cons_cons, List.append_assoc, List.append_assoc]
      exact (hleads ss stack es).append rfl hrest

end Entries

section Conflicts

def groupTerm (g : Grammar) (group : List String) : Term :=
  .list (group.map fun name ↦ .path ["$", g.symbol name])

def conflictFields (g : Grammar) : List (String × Term) :=
  if g.conflicts = [] then [] else [("conflicts", .function (.list (g.conflicts.map g.groupTerm)))]

theorem Presentable.reads_group (hg : g.Presentable) {group : List String}
    (h : ∀ name ∈ group, (g.resolve? name).isSome) :
    List.Forall₂ Reads ((group.map fun name ↦ "$." ++ g.symbol name).map String.toList)
      (group.map fun name ↦ .path ["$", g.symbol name]) := by
  induction group with
  | nil => exact .nil
  | cons name group ih =>
    rw [List.forall_mem_cons] at h
    have hread := reads_property (g.isNameChar_symbol (hg.isPlain_normal h.1)).2
    rw [String.ofList_toList] at hread
    refine .cons ?_ (ih h.2)
    rw [String.toList_append]
    exact hread

theorem Presentable.moves_conflictLine (hg : g.Presentable) {group : List String}
    (h : ∀ name ∈ group, (g.resolve? name).isSome) (stack : List Frame) (ts : List Term) :
    Moves ((g.conflictLine group).toList ++ ['\n']) ⟨ss, .list ts :: stack, .term⟩
      ⟨ss, .list (ts ++ [g.groupTerm group]) :: stack, .term⟩ := by
  have hchars : (g.conflictLine group).toList ++ ['\n'] = "    ".toList ++
      (('[' :: ([',', ' '].intercalate
        ((group.map fun name ↦ "$." ++ g.symbol name).map String.toList) ++ [']'])) ++
      ',' :: ['\n']) := by
    simp [conflictLine, indent, String.toList_intercalate]
  have hindent : Moves "    ".toList ⟨ss, .list ts :: stack, .term⟩
      ⟨ss, .list ts :: stack, .term⟩ := ⟨[], rfl, rfl⟩
  have hgroup := Reads.list (hg.reads_group h) ss (.list ts :: stack)
  have hcomma : Moves (',' :: ['\n']) ⟨ss, .list ts :: stack, .done (g.groupTerm group)⟩
      ⟨ss, .list (ts ++ [g.groupTerm group]) :: stack, .term⟩ := ⟨[.sign ','], rfl, rfl⟩
  rw [hchars]
  exact hindent.append (hgroup.append rfl hcomma)

theorem Presentable.moves_conflictLines (hg : g.Presentable) (stack : List Frame)
    (es : List (String × Term)) :
    Moves (g.conflictLines.flatMap fun line ↦ line.toList ++ ['\n']) ⟨ss, stack, .key es⟩
      ⟨ss, stack, .key (es ++ g.conflictFields)⟩ := by
  rw [conflictLines, conflictFields]
  split
  · rw [List.append_nil]
    exact ⟨[], rfl, rfl⟩
  have hdefined : ∀ group ∈ g.conflicts, ∀ name ∈ group, (g.resolve? name).isSome := by
    intro group hgroup name hname
    obtain ⟨r, hr, -⟩ := (flaw?_eq_none.1 hg.valid).2.2 group hgroup name hname
    exact Option.isSome_of_eq_some hr
  have hgroups (groups : List (List String)) (stack : List Frame) (ts : List Term)
      (h : ∀ group ∈ groups, ∀ name ∈ group, (g.resolve? name).isSome) :
      Moves ((groups.map g.conflictLine).flatMap fun line ↦ line.toList ++ ['\n'])
        ⟨ss, .list ts :: stack, .term⟩
        ⟨ss, .list (ts ++ groups.map g.groupTerm) :: stack, .term⟩ := by
    induction groups generalizing ts with
    | nil =>
      rw [List.map_nil, List.map_nil, List.append_nil]
      exact ⟨[], rfl, rfl⟩
    | cons group groups ih =>
      rw [List.forall_mem_cons] at h
      have hrest := ih (ts ++ [g.groupTerm group]) h.2
      rw [List.append_assoc] at hrest
      rw [List.map_cons, List.flatMap_cons]
      exact (hg.moves_conflictLine h.1 _ _).append hrest
  have hopen : Moves ("  conflicts: $ => [".toList ++ ['\n']) ⟨ss, stack, .key es⟩
      ⟨ss, .list [] :: .function :: .entry es "conflicts" :: stack, .term⟩ :=
    ⟨[.path ["conflicts"], .sign ':', .path ["$"], .arrow, .sign '['], rfl, rfl⟩
  have hclose (ts : List Term) : Moves ("  ],\n\n".toList)
      ⟨ss, .list ts :: .function :: .entry es "conflicts" :: stack, .term⟩
      ⟨ss, stack, .key (es ++ [("conflicts", .function (.list ts))])⟩ :=
    ⟨[.sign ']', .sign ','], rfl, rfl⟩
  have hall := hopen.append ((hgroups g.conflicts _ [] hdefined).append (hclose _))
  rw [List.cons_append, List.flatMap_cons, List.flatMap_append]
  exact hall

end Conflicts

section Script

/-- The symbols with their expressions: the entry rule, then all rules that are not inlined. -/
def sources (g : Grammar) : List (String × Expression) :=
  (entryRule, .reference g.start) ::
    (g.rules.filter fun r ↦ !r.inlined).map fun r ↦ (g.symbol r.name, r.body)

def entries (g : Grammar) : List (String × Term) :=
  g.sources.map fun (symbol, e) ↦ (symbol, .function (g.term e.spelled))

def helpers (g : Grammar) : List (String × Term) :=
  (g.rules.filter Rule.inlined).map fun r ↦ (helper r.name, g.bodyTerm r)

def fields (g : Grammar) : List (String × Term) :=
  ("name", .text ((Codepoint.ofText g.name).map fun c ↦ Char.ofNat c.val)) :: g.conflictFields
    ++ [("rules", .object g.entries)]

def script (g : Grammar) : List (Target × Term) :=
  g.helpers.map (fun (f, t) ↦ (.constant f, t)) ++ [(.exports, .call "grammar" [.object g.fields])]

theorem Presentable.readsEntry (hg : g.Presentable) {comments : List String} (hr : r ∈ g.rules)
    (hcomments : ∀ c ∈ comments, c = CoreRules.heading ∨ c ∈ r.comments) :
    ReadsEntry (g.entryText comments r).toList (g.symbol r.name, g.bodyTerm r) := by
  obtain ⟨hne, hkey⟩ := g.isNameChar_symbol (hg.isPlain_normal_name hr)
  apply (readsEntry_of_reads hne hkey (hg.reads_body hr)).withComments
  intro comment hmem
  rcases hcomments comment hmem with rfl | hmem
  · have hheading : CoreRules.heading.toList.all fun c ↦ !isLineBreak c := rfl
    simpa using hheading
  · exact hg.comments r hr comment hmem

theorem Presentable.forall₂_readsEntry (hg : g.Presentable) :
    List.Forall₂ ReadsEntry
      (((indent ++ entryRule ++ ": $ => " ++ g.reference g.start) ::
        (withHeading (g.rules.filter fun r ↦ !r.inlined)).map fun (cs, r) ↦ g.entryText cs r).map
          String.toList) g.entries := by
  obtain ⟨start, hstart⟩ := (flaw?_eq_none.1 hg.valid).2.1
  refine .cons (readsEntry_of_reads (List.cons_ne_nil _ _) (List.all_eq_true.1 rfl)
    (g.reads_reference (hg.isPlain_normal (Option.isSome_of_eq_some hstart)))) ?_
  have hrules (f : Rule → String × Expression) (rs : List Rule) :
      rs.map f = (withHeading rs).map (f ∘ Prod.snd) := by
    rw [← List.map_map, map_snd_withHeading]
  rw [hrules, List.map_map, List.map_map, List.forall₂_map_left_iff, List.forall₂_map_right_iff,
    List.forall₂_same]
  rintro ⟨cs, r⟩ hmem
  obtain ⟨hr, hcs⟩ := mem_of_mem_withHeading hmem
  exact hg.readsEntry (List.mem_of_mem_filter hr) hcs

theorem closed_jsonText (s : String) :
    Closed (Text.jsonText s).toList
      [.text ((Codepoint.ofText s).map fun c ↦ Char.ofNat c.val)] :=
  closed_jsonString fun _ ↦ Codepoint.isSurrogate_of_mem_ofText

theorem moves_opening (s : String) :
    Moves ((["module.exports = grammar(\x7b", "  name: " ++ Text.jsonText s ++ ",", ""]).flatMap
        fun line ↦ line.toList ++ ['\n']) ⟨ss, [], .statement⟩
      ⟨ss, [.call "grammar" [], .statement .exports],
        .key [("name", .text ((Codepoint.ofText s).map fun c ↦ Char.ofNat c.val))]⟩ := by
  have hchars :
      (["module.exports = grammar(\x7b", "  name: " ++ Text.jsonText s ++ ",", ""]).flatMap
        (fun line ↦ line.toList ++ ['\n'])
        = "module.exports = grammar(\x7b\n  name: ".toList ++
          ((Text.jsonText s).toList ++ ",\n\n".toList) := by
    simp
  have hopen : Moves "module.exports = grammar(\x7b\n  name: ".toList ⟨ss, [], .statement⟩
      ⟨ss, [.entry [] "name", .call "grammar" [], .statement .exports], .term⟩ :=
    ⟨[.path ["module", "exports"], .sign '=', .path ["grammar"], .sign '(', .sign '\x7b',
      .path ["name"], .sign ':'], rfl, rfl⟩
  have hend (t : Term) : Moves ",\n\n".toList
      ⟨ss, [.entry [] "name", .call "grammar" [], .statement .exports], .done t⟩
      ⟨ss, [.call "grammar" [], .statement .exports], .key [("name", t)]⟩ :=
    ⟨[.sign ','], rfl, rfl⟩
  rw [hchars]
  exact hopen.append (Moves.append ⟨_, closed_jsonText s, rfl⟩ (hend _))

/-- The lines of the rules, and those after them. -/
theorem moves_rules {texts : List String}
    (h : List.Forall₂ ReadsEntry (texts.map String.toList) g.entries) (es : List (String × Term)) :
    Moves ((["  rules: \x7b", ",\n\n".intercalate texts, "  \x7d", "\x7d);"]).flatMap
        fun line ↦ line.toList ++ ['\n'])
      ⟨ss, [.call "grammar" [], .statement .exports], .key es⟩
      ⟨ss ++ [(.exports, .call "grammar" [.object (es ++ [("rules", .object g.entries)])])], [],
        .statement⟩ := by
  have hchars : (["  rules: \x7b", ",\n\n".intercalate texts, "  \x7d", "\x7d);"]).flatMap
      (fun line ↦ line.toList ++ ['\n'])
        = "  rules: \x7b\n".toList ++
          (([',', '\n', '\n'].intercalate (texts.map String.toList) ++ '\n' :: "  \x7d\n".toList) ++
          "\x7d);\n".toList) := by
    simp [String.toList_intercalate]
  have hne : texts.map String.toList ≠ [] := by
    intro hnil
    rw [hnil] at h
    cases h
  have hopen : Moves "  rules: \x7b\n".toList
      ⟨ss, [.call "grammar" [], .statement .exports], .key es⟩
      ⟨ss, [.entry es "rules", .call "grammar" [], .statement .exports], .key []⟩ :=
    ⟨[.path ["rules"], .sign ':', .sign '\x7b'], rfl, rfl⟩
  have hend (t : Term) : Moves "\x7d);\n".toList
      ⟨ss, [.entry es "rules", .call "grammar" [], .statement .exports], .done t⟩
      ⟨ss ++ [(.exports, .call "grammar" [.object (es ++ [("rules", t)])])], [], .statement⟩ :=
    ⟨[.sign '\x7d', .sign ')', .sign ';'], rfl, rfl⟩
  rw [hchars]
  exact hopen.append ((moves_entries h hne ss _ []).append (hend _))

theorem toList_lines {lines : List String} (hne : lines ≠ []) :
    ("\n".intercalate lines ++ "\n").toList = lines.flatMap fun line ↦ line.toList ++ ['\n'] := by
  obtain ⟨init, last, rfl⟩ := lines.eq_nil_or_concat'.resolve_left hne
  rw [String.toList_append, String.toList_intercalate, List.map_append, List.map_singleton,
    List.flatMap_append, List.flatMap_singleton]
  change ['\n'].intercalate _ ++ ['\n'] = _
  rw [intercalate_concat, List.flatMap_map, List.append_assoc]

/-- The text is read as the script. -/
theorem Presentable.statements?_text (hg : g.Presentable) : statements? g.text = some g.script := by
  have hinlined : ∀ r ∈ g.rules.filter Rule.inlined, r ∈ g.rules := fun _ ↦ List.mem_of_mem_filter
  have hblank (lines : List String) (s : State) :
      Moves ((if lines = [] then [] else [""]).flatMap fun line ↦ line.toList ++ ['\n']) s s := by
    split
    · exact ⟨[], rfl, rfl⟩
    · exact ⟨[], rfl, rfl⟩
  have hmoves := ((((hg.moves_helpers hinlined []).append
    (hblank ((g.rules.filter Rule.inlined).map g.helperText) _)).append
      (moves_opening g.name)).append (hg.moves_conflictLines _ _)).append
        (moves_rules hg.forall₂_readsEntry _)
  rw [← List.flatMap_append, ← List.flatMap_append, ← List.flatMap_append, ← List.flatMap_append,
    ← toList_lines (by simp)] at hmoves
  rw [script, helpers, List.map_map]
  exact statements?_of_moves hmoves

end Script

end AbnfCompiler.Grammar
