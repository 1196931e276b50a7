import AbnfCompiler.Proofs.Grammar.Presentation

/-!
The names in the text of a grammar. The text is a row of pieces: keys and constants that define
rules, references to rules, and plain text between them. Whatever a rule is, hidden or inlined, its
references are written as its definition is.
-/
namespace AbnfCompiler

/-- A piece of the text of a grammar. A key is that of an entry among the rules. -/
inductive Piece
  | plain (text : String)
  | reference (name : String)
  | constant (rule : String)
  | key (rule : String)
  | entryKey
deriving DecidableEq, Repr

namespace Piece

def reference? : Piece → Option String
  | reference name => some name
  | _ => none

def constant? : Piece → Option String
  | constant rule => some rule
  | _ => none

def key? : Piece → Option String
  | key rule => some rule
  | _ => none

/-- The rows one after the other, with a separator between them. -/
def joined (separator : String) (rows : List (List Piece)) : List Piece :=
  [plain separator].intercalate rows

def call (function : String) (arguments : List (List Piece)) : List Piece :=
  plain (function ++ "(") :: joined ", " arguments ++ [plain ")"]

def isName : Piece → Bool
  | plain _ => false
  | _ => true

/-- The pieces that are names. -/
def names (ps : List Piece) : List Piece := ps.filter isName

@[simp] theorem names_nil : names [] = [] := rfl

@[simp] theorem names_plain_cons (text : String) (ps : List Piece) :
    names (plain text :: ps) = names ps := rfl

@[simp] theorem names_append (ps qs : List Piece) : names (ps ++ qs) = names ps ++ names qs :=
  List.filter_append ..

theorem names_joined (separator : String) (rows : List (List Piece)) :
    names (joined separator rows) = rows.flatMap names := by
  induction rows with
  | nil => rfl
  | cons row rows ih =>
    cases rows with
    | nil => rw [joined, List.intercalate_singleton, List.flatMap_singleton]
    | cons row' rows =>
      rw [joined, List.intercalate_cons_cons, ← joined, names_append, names_append,
        names_plain_cons, names_nil, List.append_nil, List.flatMap_cons, ih]

theorem names_call (function : String) (arguments : List (List Piece)) :
    names (call function arguments) = arguments.flatMap names := by
  rw [call, List.cons_append, names_plain_cons, names_append, names_joined, names_plain_cons,
    names_nil, List.append_nil]

theorem filterMap_names {β : Type} {f : Piece → Option β} (hf : ∀ text, f (plain text) = none)
    (ps : List Piece) : (names ps).filterMap f = ps.filterMap f := by
  rw [names, List.filterMap_filter]
  refine List.filterMap_congr fun p _ ↦ ?_
  cases p with
  | plain text => exact (hf text).symm
  | _ => rfl

end Piece

namespace Expression

open Piece

mutual

def pieces : Expression → List Piece
  | .reference name => [.reference name]
  | .literal value => [.plain (Text.jsonString value)]
  | .charClass range =>
    [.plain ("/[" ++ Grammar.classMember range.low ++ "-" ++ Grammar.classMember range.high
      ++ "]/")]
  | .sequence items => Piece.call "seq" (piecesAll items)
  | .choice items => Piece.call "choice" (piecesAll items)
  | .repetition element bounds =>
    Piece.call (if bounds.least = 1 then "repeat1" else "repeat") [pieces element]
  | .optional element => Piece.call "optional" [pieces element]

def piecesAll : List Expression → List (List Piece)
  | [] => []
  | e :: es => pieces e :: piecesAll es

end

mutual

theorem names_pieces : ∀ e : Expression, names e.pieces = e.references.map .reference
  | .reference _ => rfl
  | .literal _ => rfl
  | .charClass _ => rfl
  | .sequence items => by rw [pieces, names_call, names_piecesAll, references]
  | .choice items => by rw [pieces, names_call, names_piecesAll, references]
  | .repetition element bounds => by
    rw [pieces, names_call, List.flatMap_singleton, names_pieces, references]
  | .optional element => by
    rw [pieces, names_call, List.flatMap_singleton, names_pieces, references]

theorem names_piecesAll : ∀ es : List Expression,
    (piecesAll es).flatMap names = (referencesAll es).map .reference
  | [] => rfl
  | e :: es => by
    rw [piecesAll, List.flatMap_cons, names_pieces, names_piecesAll, referencesAll, List.map_append]

end

end Expression

namespace Grammar

open RuleName Piece

variable (g : Grammar)

/-- How a piece is written. -/
def write : Piece → String
  | .plain text => text
  | .reference name => g.reference name
  | .constant rule => helper rule
  | .key rule => g.symbol rule
  | .entryKey => entryRule

def written (ps : List Piece) : String := String.join (ps.map g.write)

def helperPieces (r : Rule) : List Piece :=
  .plain "const " :: .constant r.name :: .plain " = $ => " :: r.body.spelled.pieces ++ [.plain ";"]

def entryPieces (comments : List String) (r : Rule) : List Piece :=
  joined "\n" ((comments.map fun comment ↦ [.plain (commentLine comment)]) ++
    [.plain indent :: .key r.name :: .plain ": $ => " :: r.body.spelled.pieces])

def startPieces : List Piece :=
  [.plain indent, .entryKey, .plain ": $ => ", .reference g.start]

def groupPieces (group : List String) : List Piece :=
  .plain (indent ++ "[") :: joined ", " (group.map fun name ↦ [.reference name]) ++ [.plain "],"]

def conflictPieces : List (List Piece) :=
  if g.conflicts = [] then []
  else
    [.plain "  conflicts: $ => ["] :: g.conflicts.map groupPieces ++ [[.plain "  ],"], [.plain ""]]

/-- The pieces of the text. -/
def pieces : List Piece :=
  let helpers := (g.rules.filter Rule.inlined).map helperPieces
  let entries :=
    (withHeading (g.rules.filter fun r ↦ !r.inlined)).map fun (cs, r) ↦ entryPieces cs r
  joined "\n"
    (helpers ++ (if helpers = [] then [] else [[.plain ""]])
      ++ [[.plain "module.exports = grammar(\x7b"],
        [.plain ("  name: " ++ Text.jsonText g.name ++ ",")], [.plain ""]]
      ++ g.conflictPieces
      ++ [[.plain "  rules: \x7b"], joined ",\n\n" (g.startPieces :: entries), [.plain "  \x7d"],
        [.plain "\x7d);"]]) ++ [.plain "\n"]

/-- The names in the order in which the text refers to them, each as often as it does. -/
def occurrences : List String :=
  (g.rules.filter Rule.inlined).flatMap (fun r ↦ r.body.occurrences) ++ g.conflicts.flatten ++
    g.start :: (g.rules.filter fun r ↦ !r.inlined).flatMap fun r ↦ r.body.occurrences

section Written

@[simp] theorem written_nil : g.written [] = "" := rfl

@[simp] theorem written_cons (p : Piece) (ps : List Piece) :
    g.written (p :: ps) = g.write p ++ g.written ps := by
  rw [written, List.map_cons, String.join_cons, ← written]

@[simp] theorem written_append (ps qs : List Piece) :
    g.written (ps ++ qs) = g.written ps ++ g.written qs := by
  induction ps with
  | nil => rw [List.nil_append, written_nil, String.empty_append]
  | cons p ps ih => rw [List.cons_append, written_cons, ih, written_cons, String.append_assoc]

theorem map_written {α : Type} {as : List α} {row : α → List Piece} {line : α → String}
    (h : ∀ a ∈ as, g.written (row a) = line a) : (as.map row).map g.written = as.map line := by
  rw [List.map_map]
  refine List.map_congr_left fun a ha ↦ ?_
  rw [Function.comp_apply, h a ha]

theorem written_joined (sep : String) (rows : List (List Piece)) :
    g.written (joined sep rows) = sep.intercalate (rows.map g.written) := by
  induction rows with
  | nil => rfl
  | cons row rows ih =>
    cases rows with
    | nil => rw [joined, List.intercalate_singleton, List.map_singleton,
        String.intercalate_singleton]
    | cons row' rows =>
      rw [joined, List.intercalate_cons_cons, ← joined, written_append, written_append, ih,
        written_cons, written_nil, String.append_empty]
      exact String.intercalate_cons_cons.symm

theorem written_call (function : String) (arguments : List (List Piece)) :
    g.written (Piece.call function arguments) = call function (arguments.map g.written) := by
  rw [Piece.call, List.cons_append, written_cons, written_append, written_joined, written_cons,
    written_nil, String.append_empty, call, String.append_assoc]
  rfl

mutual

theorem written_nativePieces : ∀ e : Expression, g.written e.pieces = g.nativeText e
  | .reference name => by
    rw [Expression.pieces, written_cons, written_nil, String.append_empty, write, nativeText]
  | .literal value => by
    rw [Expression.pieces, written_cons, written_nil, String.append_empty, write, nativeText]
  | .charClass range => by
    rw [Expression.pieces, written_cons, written_nil, String.append_empty, write, nativeText]
  | .sequence items => by
    rw [Expression.pieces, written_call, written_nativePiecesAll, nativeText]
  | .choice items => by
    rw [Expression.pieces, written_call, written_nativePiecesAll, nativeText]
  | .repetition element bounds => by
    rw [Expression.pieces, written_call, List.map_singleton, written_nativePieces, nativeText]
  | .optional element => by
    rw [Expression.pieces, written_call, List.map_singleton, written_nativePieces, nativeText]

theorem written_nativePiecesAll : ∀ es : List Expression,
    (Expression.piecesAll es).map g.written = g.nativeTexts es
  | [] => rfl
  | e :: es => by
    rw [Expression.piecesAll, List.map_cons, written_nativePieces, written_nativePiecesAll,
      nativeTexts]

end

theorem written_helper (r : Rule) : g.written (helperPieces r) = g.helperText r := by
  simp only [helperPieces, List.cons_append, written_cons, written_append, written_nativePieces,
    written_nil, String.append_empty, write, helperText, bodyText, String.append_assoc]

theorem written_entry (comments : List String) (r : Rule) :
    g.written (entryPieces comments r) = g.entryText comments r := by
  have hcomments : (comments.map fun c ↦ [Piece.plain (commentLine c)]).map g.written
      = comments.map commentLine := by
    refine g.map_written fun c _ ↦ ?_
    rw [written_cons, written_nil, String.append_empty, write]
  rw [entryPieces, written_joined, List.map_append, hcomments, entryText]
  simp only [List.map_singleton, written_cons, written_nativePieces, write, bodyText,
    String.append_assoc]

theorem written_start :
    g.written g.startPieces = indent ++ entryRule ++ ": $ => " ++ g.reference g.start := by
  simp only [startPieces, written_cons, written_nil, write, String.append_empty,
    String.append_assoc]

variable {g}

/-- A member of a conflict group is not inlined, so that it is written as a reference. -/
theorem written_group {group : List String} (h : ∀ name ∈ group, g.isInlined name = false) :
    g.written (groupPieces group) = g.conflictLine group := by
  have hmembers : (group.map fun name ↦ [Piece.reference name]).map g.written
      = group.map fun name ↦ "$." ++ g.symbol name := by
    refine g.map_written fun name hname ↦ ?_
    rw [written_cons, written_nil, String.append_empty, write, reference, h name hname,
      if_neg Bool.false_ne_true]
  rw [groupPieces, List.cons_append, written_cons, written_append, written_joined, hmembers,
    written_cons, written_nil, String.append_empty, conflictLine, String.append_assoc]
  rfl

theorem isInlined_of_mem_conflicts (h : g.flaw? = none) {group : List String}
    (hgroup : group ∈ g.conflicts) {name : String} (hname : name ∈ group) :
    g.isInlined name = false := by
  obtain ⟨r, hr, hinlined⟩ := (flaw?_eq_none.1 h).2.2 group hgroup name hname
  rw [isInlined, hr, Option.any_some, hinlined]

theorem written_conflicts (h : g.flaw? = none) :
    g.conflictPieces.map g.written = g.conflictLines := by
  have hgroups : (g.conflicts.map groupPieces).map g.written = g.conflicts.map g.conflictLine :=
    g.map_written fun group hgroup ↦
      written_group fun name ↦ isInlined_of_mem_conflicts h hgroup
  rw [conflictPieces, conflictLines]
  split
  · rfl
  · rw [List.map_append, List.map_cons, hgroups]
    simp only [List.map_cons, List.map_nil, written_cons, written_nil, write, String.append_empty]

theorem written_pieces (h : g.flaw? = none) : g.written g.pieces = g.text := by
  have hhelpers (rs : List Rule) : (rs.map helperPieces).map g.written = rs.map g.helperText :=
    g.map_written fun r _ ↦ g.written_helper r
  have hentries (rows : List (List String × Rule)) :
      (rows.map fun (cs, r) ↦ entryPieces cs r).map g.written
        = rows.map fun (cs, r) ↦ g.entryText cs r :=
    g.map_written fun row _ ↦ g.written_entry row.1 row.2
  have hblank (rs : List Rule) : (if rs.map helperPieces = [] then [] else [[Piece.plain ""]]).map
      g.written = if rs.map g.helperText = [] then [] else [""] := by
    cases rs with
    | nil => rfl
    | cons r rs => rfl
  rw [pieces, text, written_append, written_joined]
  simp only [List.map_append, List.map_cons, List.map_nil, hhelpers, hblank, hentries,
    written_conflicts h, written_joined, written_start, written_cons, written_nil, write,
    String.append_empty]

end Written

section Names

def bodyNames (r : Rule) : List Piece := r.body.spelled.references.map .reference

theorem names_helper (r : Rule) : names (helperPieces r) = .constant r.name :: bodyNames r := by
  change Piece.constant r.name :: names (r.body.spelled.pieces ++ [.plain ";"]) = _
  rw [names_append, Expression.names_pieces, names_plain_cons, names_nil, List.append_nil,
    bodyNames]

theorem names_entry (comments : List String) (r : Rule) :
    names (entryPieces comments r) = .key r.name :: bodyNames r := by
  have hcomments : (comments.map fun c ↦ [Piece.plain (commentLine c)]).flatMap names = [] := by
    rw [List.flatMap_map, List.flatMap_eq_nil_iff]
    exact fun _ _ ↦ rfl
  rw [entryPieces, names_joined, List.flatMap_append, hcomments, List.nil_append,
    List.flatMap_singleton, bodyNames, ← Expression.names_pieces]
  rfl

theorem names_group (group : List String) : names (groupPieces group) = group.map .reference := by
  have hmembers : (group.map fun name ↦ [Piece.reference name]).flatMap names
      = group.map .reference := by
    rw [List.flatMap_map, List.map_eq_flatMap]
    rfl
  rw [groupPieces, List.cons_append, names_plain_cons, names_append, names_joined, hmembers,
    names_plain_cons, names_nil, List.append_nil]

variable (g : Grammar)

theorem names_conflicts : g.conflictPieces.flatMap names = g.conflicts.flatten.map .reference := by
  rw [conflictPieces]
  split
  · next h =>
    rw [h]
    rfl
  · rw [List.flatMap_append, List.flatMap_cons, List.flatMap_map,
      List.flatMap_congr fun group _ ↦ names_group group, List.map_flatten,
      List.flatMap_def]
    exact List.append_nil _

theorem flatMap_entries (rs : List Rule) :
    ((withHeading rs).map fun (cs, r) ↦ entryPieces cs r).flatMap names
      = rs.flatMap fun r ↦ .key r.name :: bodyNames r := by
  calc ((withHeading rs).map fun (cs, r) ↦ entryPieces cs r).flatMap names
    _ = (withHeading rs).flatMap fun row ↦ .key row.2.name :: bodyNames row.2 := by
      rw [List.flatMap_map, List.flatMap_congr fun row _ ↦ names_entry row.1 row.2]
    _ = ((withHeading rs).map Prod.snd).flatMap fun r ↦ .key r.name :: bodyNames r := by
      rw [List.flatMap_map]
    _ = rs.flatMap fun r ↦ .key r.name :: bodyNames r := by
      rw [map_snd_withHeading]

/-- All names in the text: the constants with their bodies, the conflicts, the entry with the start
rule, and the keys with their bodies. -/
theorem names_text : names g.pieces =
    ((g.rules.filter Rule.inlined).flatMap fun r ↦ .constant r.name :: bodyNames r) ++
      g.conflicts.flatten.map .reference ++ .entryKey :: .reference g.start ::
        (g.rules.filter fun r ↦ !r.inlined).flatMap fun r ↦ .key r.name :: bodyNames r := by
  have hblank (rs : List Rule) :
      (if rs.map helperPieces = [] then [] else [[Piece.plain ""]]).flatMap names = [] := by
    split
    · rfl
    · rfl
  have hhelpers (rs : List Rule) : (rs.map helperPieces).flatMap names
      = rs.flatMap fun r ↦ .constant r.name :: bodyNames r := by
    rw [List.flatMap_map, List.flatMap_congr fun r _ ↦ names_helper r]
  rw [pieces, names_append, names_joined]
  simp only [List.flatMap_append, List.flatMap_cons, List.flatMap_nil, hhelpers, hblank,
    names_conflicts, names_joined, flatMap_entries, names_plain_cons, names_nil, List.nil_append,
    List.append_nil, List.append_assoc]
  rfl

section Find

variable {β : Type} {f : Piece → Option β}

/-- What is found at the definitions: nothing else but a reference and plain text is in between. -/
theorem filterMap_definitions (hplain : ∀ text, f (.plain text) = none)
    (href : ∀ name, f (.reference name) = none) : g.pieces.filterMap f =
      ((g.rules.filter Rule.inlined).filterMap fun r ↦ f (.constant r.name)) ++
        ((f .entryKey).toList ++
          (g.rules.filter fun r ↦ !r.inlined).filterMap fun r ↦ f (.key r.name)) := by
  have hnames (ns : List String) : (ns.map Piece.reference).filterMap f = [] := by
    rw [List.filterMap_map, List.filterMap_eq_nil_iff]
    exact fun name _ ↦ href name
  have hrules (p : Rule → Piece) (rs : List Rule) :
      (rs.flatMap fun r ↦ p r :: bodyNames r).filterMap f = rs.filterMap fun r ↦ f (p r) := by
    rw [List.filterMap_flatMap, List.filterMap_eq_flatMap_toList]
    refine List.flatMap_congr fun r _ ↦ ?_
    rw [List.filterMap_cons, bodyNames, hnames]
    cases f (p r) with
    | none => rfl
    | some b => rfl
  rw [← filterMap_names hplain, names_text, List.filterMap_append, List.filterMap_append, hrules,
    hnames, List.append_nil, List.filterMap_cons, List.filterMap_cons_none (href _), hrules]
  cases f .entryKey with
  | none => rfl
  | some b => rfl

end Find

theorem filterMap_constant? :
    g.pieces.filterMap constant? = (g.rules.filter Rule.inlined).map Rule.name := by
  rw [filterMap_definitions g (fun _ ↦ rfl) fun _ ↦ rfl]
  simp [constant?]

theorem filterMap_key? :
    g.pieces.filterMap key? = (g.rules.filter fun r ↦ !r.inlined).map Rule.name := by
  rw [filterMap_definitions g (fun _ ↦ rfl) fun _ ↦ rfl]
  simp [key?]

theorem filterMap_reference? (hspelled : ∀ r ∈ g.rules, r.body.spelledOut = .ok r.body.spelled) :
    g.pieces.filterMap reference? = g.occurrences := by
  have hnames (ns : List String) : (ns.map Piece.reference).filterMap reference? = ns := by
    rw [List.filterMap_map]
    exact List.filterMap_some
  have hrules (p : Rule → Piece) (hp : ∀ r, reference? (p r) = none) (q : Rule → Bool) :
      ((g.rules.filter q).flatMap fun r ↦ p r :: bodyNames r).filterMap reference?
        = (g.rules.filter q).flatMap fun r ↦ r.body.occurrences := by
    rw [List.filterMap_flatMap]
    refine List.flatMap_congr fun r hr ↦ ?_
    rw [List.filterMap_cons_none (hp r), bodyNames, hnames]
    exact (Expression.references_spelledOut (hspelled r (List.mem_of_mem_filter hr))).1
  rw [← filterMap_names fun _ ↦ rfl, names_text, List.filterMap_append, List.filterMap_append,
    hrules _ fun _ ↦ rfl, hnames, List.filterMap_cons_none rfl,
    List.filterMap_cons_some (show reference? (.reference g.start) = some g.start from rfl),
    hrules _ fun _ ↦ rfl]
  rfl

end Names

section Consistency

variable {g : Grammar} {r : Rule}

/-- A rule is defined once, as a constant or under a key, and every reference to it, in whatever
spelling of its name, is written as its definition is. -/
structure Consistent (g : Grammar) (r : Rule) : Prop where
  reference : ∀ name, normal name = normal r.name → g.write (.reference name) =
    if r.inlined then g.write (.constant r.name) ++ "($)" else "$." ++ g.write (.key r.name)
  constant : g.write (.constant r.name) = "inline_" ++ normal r.name
  key : g.write (.key r.name) = (if r.hidden then "_" else "") ++ normal r.name
  constants : ((g.pieces.filterMap constant?).filter fun n ↦ normal n = normal r.name)
    = if r.inlined then [r.name] else []
  keys : ((g.pieces.filterMap key?).filter fun n ↦ normal n = normal r.name)
    = if r.inlined then [] else [r.name]
  conflicts : r.inlined → ∀ group ∈ g.conflicts, ∀ name ∈ group, normal name ≠ normal r.name

/-- Of rules with distinct names, at most one has the name of a given rule. -/
theorem filter_names {rs : List Rule} (hnodup : (rs.map fun r ↦ normal r.name).Nodup)
    (hr : r ∈ rs) (p : Rule → Bool) :
    ((rs.filter p).map Rule.name).filter (fun n ↦ normal n = normal r.name)
      = if p r then [r.name] else [] := by
  -- Neither the rules before nor those after it have its name.
  obtain ⟨before, after, rfl⟩ := List.append_of_mem hr
  rw [List.map_append, List.map_cons, List.nodup_middle, List.nodup_cons, List.mem_append,
    not_or] at hnodup
  have hothers {others : List Rule} (h : normal r.name ∉ others.map fun r ↦ normal r.name) :
      ((others.filter p).map Rule.name).filter (fun n ↦ normal n = normal r.name) = [] := by
    rw [List.filter_eq_nil_iff]
    intro n hn hsame
    obtain ⟨r', hr', rfl⟩ := List.mem_map.1 hn
    rw [decide_eq_true_eq] at hsame
    exact h (List.mem_map.2 ⟨r', List.mem_of_mem_filter hr', hsame⟩)
  rw [List.filter_append, List.map_append, List.filter_append, hothers hnodup.1.1, List.nil_append,
    List.filter_cons]
  split
  · rw [List.map_cons, List.filter_cons_of_pos (p := fun n ↦ normal n = normal r.name)
      (decide_eq_true rfl), hothers hnodup.1.2]
  · exact hothers hnodup.1.2

theorem symbol_name (hvalid : g.flaw? = none) (hr : r ∈ g.rules) :
    g.symbol r.name = if r.hidden then RuleName.hidden r.name else normal r.name := by
  have hresolve := (resolve?_eq_some_iff (flaw?_eq_none.1 hvalid).1).2 ⟨hr, rfl⟩
  rw [symbol, isHidden, hresolve, Option.any_some]

theorem consistent (hvalid : g.flaw? = none) (hr : r ∈ g.rules) : g.Consistent r := by
  have hnodup := (flaw?_eq_none.1 hvalid).1
  have hresolve {name : String} (h : normal name = normal r.name) : g.resolve? name = some r :=
    (resolve?_eq_some_iff hnodup).2 ⟨hr, h.symm⟩
  constructor
  case reference =>
    intro name hname
    have hhelper : helper name = helper r.name := by rw [helper, helper, hname]
    have hsymbol : g.symbol name = g.symbol r.name := by
      rw [← symbol_normal, hname, symbol_normal]
    rw [write, Grammar.reference, isInlined, hresolve hname, Option.any_some, hhelper, hsymbol]
    rfl
  case constant => rfl
  case key =>
    rw [write, symbol_name hvalid hr]
    cases r.hidden with
    | false => exact String.empty_append.symm
    | true => exact String.toList_inj.1 (by rw [RuleName.hidden]; simp [hiddenMark])
  case constants => rw [filterMap_constant?, filter_names hnodup hr]
  case keys =>
    rw [filterMap_key?, filter_names hnodup hr]
    cases r.inlined with
    | false => rfl
    | true => rfl
  case conflicts =>
    intro hinlined group hgroup name hname hsame
    have hmember := isInlined_of_mem_conflicts hvalid hgroup hname
    rw [isInlined, hresolve hsame, Option.any_some, hinlined] at hmember
    cases hmember

/-- What is rendered refers to every rule as it defines it, wherever the grammar names the rule. -/
theorem consistent_of_render {text : String} (h : g.render = .ok text) :
    text = g.written g.pieces ∧ g.pieces.filterMap reference? = g.occurrences ∧
      ∀ r ∈ g.rules, g.Consistent r ∧
        ∀ name, name ∈ r.body.occurrences ↔ name ∈ r.body.references := by
  obtain ⟨hvalid, hspelled, rfl⟩ := render_eq_ok.1 h
  refine ⟨(written_pieces hvalid).symm, g.filterMap_reference? hspelled, fun r hr ↦ ?_⟩
  exact ⟨consistent hvalid hr, (Expression.references_spelledOut (hspelled r hr)).2⟩

section Instances

def wordGrammar : Grammar where
  name := "words"
  start := "word-list"
  rules := [
    { name := "word_list"
      body := .repetition (.reference "a-word") ⟨2, some 3, by simp⟩
      hidden := true },
    { name := "a-word", body := .sequence [.reference "a_gap", .reference "Word-List"] },
    { name := "a_gap", body := .optional (.reference " a-word"), hidden := true, inlined := true }]
  conflicts := [["word-list", "a_word"]]

def wordText : String :=
  "const inline_a_gap = $ => optional($.a_word);\n\nmodule.exports = grammar(\x7b\n" ++
  "  name: \"words\",\n\n  conflicts: $ => [\n    [$._word_list, $.a_word],\n  ],\n\n" ++
  "  rules: \x7b\n    source_file: $ => $._word_list,\n\n" ++
  "    _word_list: $ => seq($.a_word, $.a_word, optional($.a_word)),\n\n" ++
  "    a_word: $ => seq(inline_a_gap($), $.Word_List)\n  \x7d\n\x7d);\n"

def wordOccurrences : List String :=
  [" a-word", "word-list", "a_word", "word-list", "a-word", "a-word", "a-word", "a_gap",
    "Word-List"]

/-- A hidden start, an inlined rule that is hidden as well, and names in several spellings. -/
theorem consistent_wordGrammar : wordGrammar.render = .ok wordText ∧
    wordText = wordGrammar.written wordGrammar.pieces ∧
    wordGrammar.pieces.filterMap reference? = wordOccurrences ∧
    ∀ r ∈ wordGrammar.rules, wordGrammar.Consistent r := by
  have hrender : wordGrammar.render = .ok wordText := by decide +kernel
  have hoccurrences : wordGrammar.occurrences = wordOccurrences := rfl
  obtain ⟨hwritten, hrefs, hrules⟩ := consistent_of_render hrender
  exact ⟨hrender, hwritten, hrefs.trans hoccurrences, fun r hr ↦ (hrules r hr).1⟩

end Instances

end Consistency

end Grammar

end AbnfCompiler
