import AbnfCompiler.Data.Yaml.Cursor

/-!
Plain and quoted scalars as they are written. A single line break within a scalar stands for a
space, and the first of several is dropped.
-/
namespace AbnfCompiler.Data.Yaml

/-- Line breaks and the blanks that satisfy `p` before, between and behind them. None may be
followed by a mark between documents. -/
def breaks? (p : Char → Bool) : Nat → Cursor → Option (List Char × Cursor)
  | 0, c => some ([], c)
  | fuel + 1, c =>
    if c.atDocumentMark then none
    else
      let c := c.skip p
      match c.lineBreak? with
      | none => some ([], c)
      | some (b, c) => do
        let (bs, c) ← breaks? p fuel c
        return (b :: bs, c)

/-- The text for a line break and those that follow it. -/
def folded (first : Char) (more : List Char) : List Char :=
  if first ≠ '\n' then first :: more else if more = [] then [' '] else more

/-! ### Quoted scalars -/

def simpleEscape? : Char → Option Char
  | '0' => some '\x00'
  | 'a' => some '\x07'
  | 'b' => some '\x08'
  | 't' | '\t' => some '\t'
  | 'n' => some '\n'
  | 'v' => some '\x0b'
  | 'f' => some '\x0c'
  | 'r' => some '\r'
  | 'e' => some '\x1b'
  | ' ' => some ' '
  | '"' => some '"'
  | '\\' => some '\\'
  | '/' => some '/'
  | 'N' => some '\u0085'
  | '_' => some '\u00a0'
  | 'L' => some '\u2028'
  | 'P' => some '\u2029'
  | _ => none

def escapeLength? : Char → Option Nat
  | 'x' => some 2
  | 'u' => some 4
  | 'U' => some 8
  | _ => none

def hexValue? (c : Char) : Option Nat :=
  if c.isDigit then some (c.toNat - '0'.toNat)
  else if 'a' ≤ c ∧ c ≤ 'f' then some (c.toNat - 'a'.toNat + 10)
  else if 'A' ≤ c ∧ c ≤ 'F' then some (c.toNat - 'A'.toNat + 10)
  else none

def escape? (c : Cursor) : Option (List Char × Cursor) :=
  match c.rest with
  | [] => none
  | ch :: rest =>
    match simpleEscape? ch, escapeLength? ch with
    | some e, _ => some ([e], c.next)
    | none, some n => do
      let digits ← (rest.take n).mapM hexValue?
      if digits.length = n then
        return ([Char.ofNat (digits.foldl (fun m d ↦ m * 16 + d) 0)], c.advance (n + 1))
      else none
    | none, none => do
      let (_, c) ← c.lineBreak?
      breaks? (fun ch ↦ ch == ' ' || ch == '\t') (c.rest.length + 1) c

/-- The body of a quoted scalar behind its opening quote. -/
def quotedBody? (double : Bool) : Nat → Cursor → Option (List Char × Cursor)
  | 0, _ => none
  | fuel + 1, c =>
    let continue? (text : List Char) (c : Cursor) : Option (List Char × Cursor) :=
      (quotedBody? double fuel c).map fun (more, c) ↦ (text ++ more, c)
    match c.rest with
    | [] => none
    | ch :: rest =>
      if double && ch == '"' then some ([], c.next)
      else if !double && ch == '\x27' then
        if rest.head? = some '\x27' then continue? ['\x27'] (c.advance 2) else some ([], c.next)
      else if double && ch == '\\' then do
        let (text, c) ← escape? c.next
        continue? text c
      else if isSpaceOrBreak ch then
        let (blanks, c) := c.span fun ch ↦ ch == ' ' || ch == '\t'
        match c.lineBreak? with
        | none => if c.rest.isEmpty then none else continue? blanks c
        | some (b, c) => do
          let (bs, c) ← breaks? (fun ch ↦ ch == ' ' || ch == '\t') (c.rest.length + 1) c
          continue? (folded b bs) c
      else continue? [ch] c.next

def quoted? (double : Bool) (c : Cursor) : Option (String × Cursor) :=
  (quotedBody? double (c.rest.length + 1) c.next).map fun (cs, c) ↦ (String.ofList cs, c)

/-! ### Plain scalars -/

def flowMarks : List Char := [',', '?', '[', ']', '\x7b', '\x7d']

def keyEndMarks : List Char := [',', '[', ']', '\x7b', '\x7d']

/-- How many characters belong to a plain scalar before the next blank. -/
def plainLength (flow : Bool) : List Char → Nat
  | [] => 0
  | ch :: rest =>
    if isSpaceOrBreak ch
        || (ch == ':' && (Cursor.atGap rest || flow && rest.head?.any keyEndMarks.contains))
        || (flow && flowMarks.contains ch) then 0
    else plainLength flow rest + 1

/-- The gap behind a part of a plain scalar: the text it stands for, the place behind it, and
whether it holds a line break. Before a mark between documents it stands for nothing. -/
def plainGap (c : Cursor) : List Char × Cursor × Bool :=
  let (blanks, c) := c.span (· == ' ')
  match c.lineBreak? with
  | none => (blanks, c, false)
  | some (b, c) =>
    match breaks? (· == ' ') (c.rest.length + 1) c with
    | some (bs, c) => (folded b bs, c, true)
    | none => ([], c, true)

/-- A plain scalar: its text, the place behind it, and whether the last gap holds a line break.
Outside of brackets, lines have to be indented by `indent`. -/
def plainFrom (flow : Bool) (indent : Nat) : Nat → Cursor → List Char × Cursor × Bool
  | 0, c => ([], c, false)
  | fuel + 1, c =>
    let n := plainLength flow c.rest
    let text := c.rest.take n
    let (gap, after, broken) := plainGap (c.advance n)
    if gap = [] ∨ after.peek? = some '#' ∨ (!flow ∧ after.column < indent)
        ∨ plainLength flow after.rest = 0 then
      (text, after, broken)
    else
      let (more, after, brokenLater) := plainFrom flow indent fuel after
      (text ++ gap ++ more, after, brokenLater)

end AbnfCompiler.Data.Yaml
