import AbnfCompiler.Data.Yaml.Quoted

/-!
Tokens of a document. Indentation opens and closes blocks. Whether a scalar or a bracket starts a
key shows only at the colon behind it, and then the tokens for the key are put before it; a key
has to stand on one line and be of moderate length.
-/
namespace AbnfCompiler.Data.Yaml

inductive Token
  | documentStart
  | documentEnd
  | listStart
  | mapStart
  | blockEnd
  | item
  | key
  | value
  | openList
  | closeList
  | openMap
  | closeMap
  | comma
  | plain (text : String)
  | quoted (text : String)
deriving DecidableEq, Repr

/-- A place where a key may have started: the number of tokens before it. -/
structure KeyStart where
  number : Nat
  required : Bool
  index : Nat
  line : Nat
  column : Nat
deriving Repr

/-- What was read so far. The places of possible keys are kept for every level of brackets, the
innermost first. -/
structure Scanner where
  cursor : Cursor
  tokens : List Token := []
  indent : Int := -1
  outerIndents : List Int := []
  keyAllowed : Bool := true
  keyStart : Option KeyStart := none
  outerKeyStarts : List (Option KeyStart) := []
deriving Repr

namespace Scanner

variable (s : Scanner)

def inFlow : Bool := !s.outerKeyStarts.isEmpty

def emit (t : Token) : Scanner := { s with tokens := s.tokens ++ [t] }

def advance (n : Nat) : Scanner := { s with cursor := s.cursor.advance n }

/-- Opens a block at a column that is further in. -/
def isDeeper (column : Nat) : Bool := s.indent < column

def deepen (column : Nat) : Scanner :=
  { s with indent := column, outerIndents := s.indent :: s.outerIndents }

/-- Closes blocks that are further in than a column. -/
def closeBlocks (column : Int) : List Int → Scanner → Scanner
  | [], s => s
  | outer :: more, s =>
    if column < s.indent then
      closeBlocks column more { s.emit .blockEnd with indent := outer, outerIndents := more }
    else s

def unwind (column : Int) : Scanner :=
  if s.inFlow then s else closeBlocks column s.outerIndents s

/-- Characters that may lie between the start of a key and its colon. -/
def keyLimit : Nat := 1024

/-- Forgets the start of a key, unless there has to be a key. -/
def forgetKey : Option Scanner :=
  if s.keyStart.any KeyStart.required then none else some { s with keyStart := none }

/-- Forgets a start of a key that lies on another line or too far back. -/
def fresh? (c : Cursor) : Option KeyStart → Option (Option KeyStart)
  | none => some none
  | some k =>
    if k.line ≠ c.line ∨ keyLimit < c.index - k.index then
      if k.required then none else some none
    else some (some k)

def forgetStaleKeys : Option Scanner := do
  let keyStart ← fresh? s.cursor s.keyStart
  let outerKeyStarts ← s.outerKeyStarts.mapM (fresh? s.cursor)
  return { s with keyStart, outerKeyStarts }

def noteKey : Option Scanner :=
  if s.keyAllowed then do
    let s ← s.forgetKey
    let c := s.cursor
    let required := !s.inFlow && s.indent == (c.column : Int)
    return { s with keyStart := some ⟨s.tokens.length, required, c.index, c.line, c.column⟩ }
  else some s

/-- Skips spaces, comments and line breaks. -/
def skipGaps : Nat → Scanner → Scanner
  | 0, s => s
  | fuel + 1, s =>
    let c := s.cursor.skip (· == ' ')
    let c := if c.peek? = some '#' then c.skip (!isBreak ·) else c
    match c.lineBreak? with
    | some (_, c) =>
      skipGaps fuel { s with cursor := c, keyAllowed := s.keyAllowed || !s.inFlow }
    | none => { s with cursor := c }

def documentMark (t : Token) : Option Scanner := do
  let s ← (s.unwind (-1)).forgetKey
  return ({ s with keyAllowed := false }.advance 3).emit t

def opened (t : Token) : Option Scanner := do
  let s ← s.noteKey
  let s := s.emit t |>.advance 1
  return { s with keyAllowed := true, keyStart := none,
                  outerKeyStarts := s.keyStart :: s.outerKeyStarts }

def closed (t : Token) : Option Scanner := do
  let s ← s.forgetKey
  match s.outerKeyStarts with
  | [] => none
  | outer :: more =>
    return { s.emit t |>.advance 1 with
      keyAllowed := false, keyStart := outer, outerKeyStarts := more }

def commaToken : Option Scanner := do
  let s ← s.forgetKey
  return { s.emit .comma |>.advance 1 with keyAllowed := true }

def openBlock (t : Token) : Scanner :=
  if s.isDeeper s.cursor.column then (s.deepen s.cursor.column).emit t else s

def itemToken : Option Scanner :=
  if s.inFlow || !s.keyAllowed then none
  else do
    let s ← (s.openBlock .listStart).forgetKey
    return { s.emit .item |>.advance 1 with keyAllowed := true }

/-- An explicit mark before a key. -/
def keyToken : Option Scanner :=
  if !s.inFlow && !s.keyAllowed then none
  else do
    let s := if s.inFlow then s else s.openBlock .mapStart
    let s ← s.forgetKey
    return { s.emit .key |>.advance 1 with keyAllowed := !s.inFlow }

/-- A colon. Behind a possible key, the tokens for the key are put before it. -/
def valueToken : Option Scanner :=
  match s.keyStart with
  | some k =>
    let before := s.tokens.take k.number
    let after := s.tokens.drop k.number
    let s :=
      if !s.inFlow && s.isDeeper k.column then
        { s.deepen k.column with tokens := before ++ Token.mapStart :: .key :: after }
      else { s with tokens := before ++ Token.key :: after }
    some { s.emit .value |>.advance 1 with keyStart := none, keyAllowed := false }
  | none =>
    if !s.inFlow && !s.keyAllowed then none
    else
      let s := if s.inFlow then s else s.openBlock .mapStart
      some { s.emit .value |>.advance 1 with keyAllowed := !s.inFlow }

def quotedToken (double : Bool) : Option Scanner := do
  let s ← s.noteKey
  let (text, cursor) ← quoted? double s.cursor
  return { s.emit (.quoted text) with cursor, keyAllowed := false }

def plainToken : Option Scanner := do
  let s ← s.noteKey
  let (text, cursor, broken) :=
    plainFrom s.inFlow (s.indent + 1).toNat (s.cursor.rest.length + 1) s.cursor
  return { s.emit (.plain (String.ofList text)) with cursor, keyAllowed := broken }

/-- Characters that start no plain scalar. -/
def marks : List Char :=
  ['-', '?', ':', ',', '[', ']', '\x7b', '\x7d', '#', '&', '*', '!', '|', '>', '\x27', '"', '%',
   '@', '\x60']

def startsPlain (ch : Char) (rest : List Char) : Bool :=
  !isSpaceOrBreak ch && !marks.contains ch
    || !Cursor.atGap rest && (ch == '-' || !s.inFlow && (ch == '?' || ch == ':'))

/-- Reads one token and whatever belongs to it. Anchors, tags, directives and block scalars are
not read. -/
def token : Option Scanner := do
  let s ← s.forgetStaleKeys
  let s := s.unwind s.cursor.column
  match s.cursor.rest with
  | [] => none
  | ch :: rest =>
    if s.cursor.column = 0 ∧ s.cursor.atMark Cursor.documentStart then
      s.documentMark .documentStart
    else if s.cursor.column = 0 ∧ s.cursor.atMark Cursor.documentEnd then
      s.documentMark .documentEnd
    else if ch = '[' then s.opened .openList
    else if ch = '\x7b' then s.opened .openMap
    else if ch = ']' then s.closed .closeList
    else if ch = '\x7d' then s.closed .closeMap
    else if ch = ',' then s.commaToken
    else if ch = '-' ∧ Cursor.atGap rest then s.itemToken
    else if ch = '?' ∧ (s.inFlow ∨ Cursor.atGap rest) then s.keyToken
    else if ch = ':' ∧ (s.inFlow ∨ Cursor.atGap rest) then s.valueToken
    else if ch = '\x27' then s.quotedToken false
    else if ch = '"' then s.quotedToken true
    else if s.startsPlain ch rest then s.plainToken
    else none

/-- Reads all tokens; each takes at least one character. -/
def run : Nat → Scanner → Option Scanner
  | 0, _ => none
  | fuel + 1, s =>
    let s := skipGaps (s.cursor.rest.length + 1) s
    if s.cursor.rest.isEmpty then do
      let s ← s.forgetStaleKeys
      (s.unwind (-1)).forgetKey
    else do
      let s ← s.token
      run fuel s

end Scanner

/-- Characters that may stand in a document. -/
def isAllowed (c : Char) : Bool :=
  let n := c.toNat
  n == 0x09 || n == 0x0A || n == 0x0D || (0x20 ≤ n && n ≤ 0x7E) || n == 0x85
    || (0xA0 ≤ n && n ≤ 0xD7FF) || (0xE000 ≤ n && n ≤ 0xFFFD) || 0x10000 ≤ n

def Token.ofText? (text : String) : Option (List Token) :=
  let cs := match text.toList with
    | '\uFEFF' :: cs => cs
    | cs => cs
  if cs.all isAllowed then
    (Scanner.run (cs.length + 1) { cursor := ⟨cs, 0, 0, 0⟩ }).map Scanner.tokens
  else none

end AbnfCompiler.Data.Yaml
