import AbnfCompiler.Data.Json
import AbnfCompiler.Text.Numeral
import AbnfCompiler.Text.Split

/-!
Tokens of a grammar script, read character by character: names joined by dots, strings, classes of
one range, signs and arrows. White space and comments stand between them.
-/
namespace AbnfCompiler.Script

inductive Token
  | path (names : List String)
  | text (value : List Char)
  | range (low high : Nat)
  | sign (c : Char)
  | arrow
deriving DecidableEq, Repr

/-- What was read of a token that is not complete. -/
inductive Mode
  | plain
  | word (cs : List Char)
  | equals
  | slash
  | comment
  | text (cs : List Char)
  | escape (cs : List Char)
  | range (cs : List Char)
deriving DecidableEq, Repr

def isWordChar (c : Char) : Bool := c.isAlphanum || c == '_' || c == '$' || c == '.'

def isLineBreak (c : Char) : Bool := c == '\n' || c == '\r' || c == '\u2028' || c == '\u2029'

def isSpace (c : Char) : Bool := c == ' ' || c == '\t' || isLineBreak c

def signs : List Char := ['(', ')', '[', ']', '\x7b', '\x7d', ',', ':', ';']

def pathOf (cs : List Char) : Token := .path ((Text.pieces '.' cs).map String.ofList)

/-- The text of a string, given the characters between its quotes. -/
def text? (cs : List Char) : Option Token :=
  match Data.Json.stringBody (cs ++ ['"']) with
  | some (value, []) => some (.text value)
  | _ => none

def number? (digits : List Char) : Option Nat :=
  if digits = [] then none else (digits.mapM Data.Json.digit?).map (Text.ofDigits 16)

/-- A code point in a class, with what follows it. -/
def code? : List Char → Option (Nat × List Char)
  | '\\' :: 'u' :: '\x7b' :: cs =>
    match cs.dropWhile (· != '\x7d') with
    | _ :: rest => (number? (cs.takeWhile (· != '\x7d'))).map (·, rest)
    | [] => none
  | '\\' :: 'u' :: a :: b :: c :: d :: rest => (number? [a, b, c, d]).map (·, rest)
  | _ => none

/-- The range of a class, given the characters between its slashes. -/
def range? : List Char → Option Token
  | '[' :: cs => do
    let (low, rest) ← code? cs
    match rest with
    | '-' :: rest =>
      let (high, rest) ← code? rest
      if rest = [']'] then some (.range low high) else none
    | _ => none
  | _ => none

def start (c : Char) : Option (Mode × List Token) :=
  if isWordChar c then some (.word [c], [])
  else if isSpace c then some (.plain, [])
  else if signs.contains c then some (.plain, [.sign c])
  else if c = '"' then some (.text [], [])
  else if c = '/' then some (.slash, [])
  else if c = '=' then some (.equals, [])
  else none

def before (ts : List Token) (x : Option (Mode × List Token)) : Option (Mode × List Token) :=
  x.map fun (mode, us) ↦ (mode, ts ++ us)

/-- What a further character leads to, with the tokens that it completes. -/
def step : Mode → Char → Option (Mode × List Token)
  | .plain, c => start c
  | .word cs, c =>
    if isWordChar c then some (.word (cs ++ [c]), []) else before [pathOf cs] (start c)
  | .equals, c => if c = '>' then some (.plain, [.arrow]) else before [.sign '='] (start c)
  | .slash, c => some (if c = '/' then .comment else .range [c], [])
  | .comment, c => some (if isLineBreak c then .plain else .comment, [])
  | .text cs, c =>
    if c = '"' then (text? cs).map fun t ↦ (.plain, [t])
    else some (if c = '\\' then .escape cs else .text (cs ++ [c]), [])
  | .escape cs, c => some (.text (cs ++ ['\\', c]), [])
  | .range cs, c =>
    if c = '/' then (range? cs).map fun t ↦ (.plain, [t]) else some (.range (cs ++ [c]), [])

def scan : Mode → List Char → Option (Mode × List Token)
  | mode, [] => some (mode, [])
  | mode, c :: cs => (step mode c).bind fun (next, ts) ↦ before ts (scan next cs)

/-- The tokens that are complete at the end of a text, if it may end here. -/
def Mode.pending? : Mode → Option (List Token)
  | .plain | .comment => some []
  | .word cs => some [pathOf cs]
  | _ => none

def tokens? (s : String) : Option (List Token) := do
  let (mode, ts) ← scan .plain s.toList
  return ts ++ (← mode.pending?)

example : tokens? "a: $ => seq($.b_1, \"\\u00e9\", /[\\u0041-\\u005A]/) // c" =
    some [.path ["a"], .sign ':', .path ["$"], .arrow, .path ["seq"], .sign '(',
      .path ["$", "b_1"], .sign ',', .text ['é'], .sign ',', .range 0x41 0x5A, .sign ')'] := by
  cbv

section Scanning

variable {mode next : Mode} {as bs cs : List Char} {ts us : List Token}

theorem before_before (ts us : List Token) (x : Option (Mode × List Token)) :
    before ts (before us x) = before (ts ++ us) x := by
  cases x with
  | none => rfl
  | some x => simp [before]

theorem before_nil (x : Option (Mode × List Token)) : before [] x = x := by
  cases x <;> rfl

theorem scan_cons {c : Char} (h : step mode c = some (next, ts)) (cs : List Char) :
    scan mode (c :: cs) = before ts (scan next cs) := by
  rw [scan, h, Option.bind_some]

theorem scan_append (h : scan mode as = some (next, ts)) (bs : List Char) :
    scan mode (as ++ bs) = before ts (scan next bs) := by
  induction as generalizing mode ts with
  | nil =>
    cases h
    rw [List.nil_append, before_nil]
  | cons a as ih =>
    rw [scan] at h
    obtain ⟨⟨m, t₁⟩, hstep, h⟩ := Option.bind_eq_some_iff.1 h
    obtain ⟨⟨last, t₂⟩, hrest, h⟩ := Option.map_eq_some_iff.1 h
    cases h
    rw [List.cons_append, scan_cons hstep, ih hrest, before_before]

/-- The characters are these tokens, and no token is left open. -/
def Closed (cs : List Char) (ts : List Token) : Prop := scan .plain cs = some (.plain, ts)

/-- The characters are these tokens if nothing follows that could belong to the last one. -/
def Lexes (cs : List Char) (ts : List Token) : Prop :=
  ∃ mode us vs, scan .plain cs = some (mode, us) ∧ mode.pending? = some vs ∧ mode ≠ .comment ∧
    ts = us ++ vs

theorem Closed.lexes (h : Closed cs ts) : Lexes cs ts :=
  ⟨.plain, ts, [], h, rfl, nofun, (List.append_nil ts).symm⟩

theorem Closed.append (ha : Closed as ts) (hb : Closed bs us) : Closed (as ++ bs) (ts ++ us) := by
  rw [Closed, scan_append ha, hb]
  rfl

theorem Closed.append_lexes (ha : Closed as ts) (hb : Lexes bs us) :
    Lexes (as ++ bs) (ts ++ us) := by
  obtain ⟨mode, vs, ws, hscan, hpending, hne, rfl⟩ := hb
  refine ⟨mode, ts ++ vs, ws, ?_, hpending, hne, (List.append_assoc ..).symm⟩
  rw [scan_append ha, hscan]
  rfl

/-- A character that belongs to no name completes a pending one. -/
theorem scan_of_pending {c : Char} (hpending : mode.pending? = some us) (hne : mode ≠ .comment)
    (hc : isWordChar c = false) (cs : List Char) :
    scan mode (c :: cs) = before us (scan .plain (c :: cs)) := by
  match mode, hpending, hne with
  | .plain, hpending, _ =>
    cases hpending
    rw [before_nil]
  | .word ws, hpending, _ =>
    cases hpending
    rw [scan, scan, step, step, hc]
    simp only [Bool.false_eq_true, ↓reduceIte]
    cases start c with
    | none => rfl
    | some x =>
      obtain ⟨next, ts⟩ := x
      simp only [before, Option.map_some, Option.bind_some, Option.map_map]
      rfl

theorem Lexes.append {c : Char} (ha : Lexes as ts) (hc : isWordChar c = false)
    (hb : Closed (c :: bs) us) : Closed (as ++ c :: bs) (ts ++ us) := by
  obtain ⟨mode, vs, ws, hscan, hpending, hne, rfl⟩ := ha
  rw [Closed, scan_append hscan, scan_of_pending hpending hne hc, hb, List.append_assoc]
  rfl

/-- A mode that takes some characters one by one takes a row of them. -/
theorem scan_taken (mode : List Char → Mode) {p : Char → Prop} {ws : List Char}
    (hstep : ∀ cs c, p c → step (mode cs) c = some (mode (cs ++ [c]), [])) (h : ∀ c ∈ ws, p c)
    (cs : List Char) : scan (mode cs) ws = some (mode (cs ++ ws), []) := by
  induction ws generalizing cs with
  | nil => rw [List.append_nil]; rfl
  | cons w ws ih =>
    rw [List.forall_mem_cons] at h
    rw [scan_cons (hstep cs w h.1), ih h.2, List.append_assoc]
    rfl

theorem scan_word {ws : List Char} (h : ∀ c ∈ ws, isWordChar c) (cs : List Char) :
    scan (.word cs) ws = some (.word (cs ++ ws), []) := by
  refine scan_taken .word ?_ h cs
  intro cs c hc
  rw [step, if_pos hc]

theorem lexes_word (hne : cs ≠ []) (h : ∀ c ∈ cs, isWordChar c) : Lexes cs [pathOf cs] := by
  cases cs with
  | nil => exact absurd rfl hne
  | cons c cs =>
    rw [List.forall_mem_cons] at h
    have hstep : step .plain c = some (.word [c], []) := by rw [step, start, if_pos h.1]
    exact ⟨.word (c :: cs), [], [pathOf (c :: cs)],
      by rw [scan_cons hstep, scan_word h.2]; rfl, rfl, nofun, rfl⟩

end Scanning

end AbnfCompiler.Script
