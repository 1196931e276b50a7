import AbnfCompiler.Text.Blank

/-!
Files of variables: a name, an equals sign and a value on each line. Values may stand in quotes,
`export` may stand before a name, and `#` starts a comment. Lines that read otherwise are passed
over. In a value, a name in braces behind a dollar sign stands for a variable.
-/
namespace AbnfCompiler.Data.Dotenv

/-- Blanks within a line. -/
def isInline (c : Char) : Bool := Text.isBlank c && c != '\n' && c != '\r'

def isLineEnd (c : Char) : Bool := c == '\n' || c == '\r'

def restOfLine (cs : List Char) : List Char := (cs.dropWhile (!isLineEnd ·)).drop 1

/-- A name and its value; both may be missing. -/
structure Binding where
  name : Option String
  value : Option String
deriving Repr, DecidableEq

/-- What a part of a line reads, with the rest of the text; a failure tells where it stopped. -/
abbrev Reading (α : Type) := Except (List Char) (α × List Char)

def skipExport (cs : List Char) : List Char :=
  let word := "export".toList
  if word.isPrefixOf cs ∧ (cs.drop word.length).head?.any isInline then
    (cs.drop word.length).dropWhile isInline
  else cs

def isNamePart (c : Char) : Bool := c != '=' && c != '#' && !Text.isBlank c

def name (cs : List Char) : Reading (Option String) :=
  match cs with
  | '#' :: _ => .ok (none, cs)
  | '\x27' :: more =>
    match more.takeWhile (· ≠ '\x27'), more.dropWhile (· ≠ '\x27') with
    | c :: word, _ :: rest => .ok (some (String.ofList (c :: word)), rest)
    | _, _ => .error cs
  | _ =>
    match cs.takeWhile isNamePart with
    | [] => .error cs
    | word => .ok (some (String.ofList word), cs.dropWhile isNamePart)

/-- The length of a quoted text up to the first quote without a backslash before it. -/
def closing? (quote : Char) (escaped : Bool) : List Char → Option Nat
  | [] => none
  | c :: cs =>
    if c = quote ∧ !escaped then some 0 else (closing? quote (c = '\\') cs).map (· + 1)

/-- The length of a quoted text up to the last quote. -/
def lastQuote? (quote : Char) (cs : List Char) : Option Nat :=
  if cs.contains quote then some (cs.length - (cs.reverse.takeWhile (· ≠ quote)).length - 1)
  else none

/-- The character of a two-character escape. -/
def escape? (quote : Char) (c : Char) : Option Char :=
  if c = '\\' ∨ c = '\x27' then some c
  else if quote = '\x27' then none
  else
    match c with
    | '"' => some '"'
    | 'a' => some '\x07'
    | 'b' => some '\x08'
    | 'f' => some '\x0c'
    | 'n' => some '\n'
    | 'r' => some '\r'
    | 't' => some '\t'
    | 'v' => some '\x0b'
    | _ => none

def unescaped (quote : Char) : List Char → List Char
  | '\\' :: c :: cs =>
    match escape? quote c with
    | some e => e :: unescaped quote cs
    | none => '\\' :: unescaped quote (c :: cs)
  | c :: cs => c :: unescaped quote cs
  | [] => []

def quotedValue (quote : Char) (cs : List Char) : Reading String :=
  match (closing? quote false cs).or (lastQuote? quote cs) with
  | some n => .ok (String.ofList (unescaped quote (cs.take n)), cs.drop (n + 1))
  | none => .error (quote :: cs)

/-- The text before a comment, which needs a blank before its mark. -/
def beforeComment : List Char → List Char
  | [] => []
  | c :: cs =>
    if Text.isBlank c ∧ (cs.dropWhile Text.isBlank).head? = some '#' then []
    else c :: beforeComment cs

def plainValue (cs : List Char) : Reading String :=
  .ok (Text.stripEnd (String.ofList (beforeComment (cs.takeWhile (!isLineEnd ·)))),
    cs.dropWhile (!isLineEnd ·))

def value (cs : List Char) : Reading String :=
  match cs with
  | [] => .ok ("", [])
  | '\x27' :: more => quotedValue '\x27' more
  | '"' :: more => quotedValue '"' more
  | c :: _ => if isLineEnd c then .ok ("", cs) else plainValue cs

def skipComment (cs : List Char) : List Char :=
  match cs.dropWhile isInline with
  | '#' :: more => more.dropWhile (!isLineEnd ·)
  | _ => cs

def lineEnd (cs : List Char) : Except (List Char) (List Char) :=
  match cs.dropWhile isInline with
  | [] => .ok []
  | '\r' :: '\n' :: rest => .ok rest
  | c :: rest => if isLineEnd c then .ok rest else .error cs

/-- A binding at the start of a text without blanks before it. -/
def binding (cs : List Char) : Except (List Char) (Binding × List Char) := do
  let (word, rest) ← name (skipExport cs)
  match rest.dropWhile isInline with
  | '=' :: more =>
    let (v, rest) ← value (more.dropWhile isInline)
    return (⟨word, some v⟩, ← lineEnd (skipComment rest))
  | rest => return (⟨word, none⟩, ← lineEnd (skipComment rest))

/-- The bindings of a text; each takes at least one character. -/
def bindings : Nat → List Char → List Binding
  | 0, _ => []
  | fuel + 1, cs =>
    match cs.dropWhile Text.isBlank with
    | [] => []
    | cs =>
      match binding cs with
      | .ok (b, rest) => b :: bindings fuel rest
      | .error rest => bindings fuel (restOfLine rest)

/-- The text with variables in the place of their names; a name may bring a text for its
absence. -/
def expand (lookup : String → Option String) : Nat → List Char → List Char
  | 0, _ => []
  | fuel + 1, cs =>
    match cs with
    | '$' :: '\x7b' :: more =>
      let key := more.takeWhile fun c ↦ c ≠ '\x7d' ∧ c ≠ ':'
      let found (default : List Char) : List Char :=
        ((lookup (String.ofList key)).map String.toList).getD default
      match more.drop key.length with
      | '\x7d' :: rest => found [] ++ expand lookup fuel rest
      | ':' :: '-' :: rest =>
        match rest.dropWhile (· ≠ '\x7d') with
        | _ :: after => found (rest.takeWhile (· ≠ '\x7d')) ++ expand lookup fuel after
        | [] => '$' :: expand lookup fuel ('\x7b' :: more)
      | _ => '$' :: expand lookup fuel ('\x7b' :: more)
    | c :: cs => c :: expand lookup fuel cs
    | [] => []

/-- Sets a variable; one that is there keeps its place. -/
def put (name : String) (v : Option String) :
    List (String × Option String) → List (String × Option String)
  | [] => [(name, v)]
  | (n, old) :: rest => if n = name then (n, v) :: rest else (n, old) :: put name v rest

/-- The variables of a text. Earlier ones and those of the environment may stand in values. -/
def read (environment : List (String × String)) (text : String) : List (String × Option String) :=
  (bindings (text.length + 1) text.toList).foldl (fun found b ↦
    match b.name with
    | none => found
    | some name =>
      let lookup (key : String) : Option String :=
        match found.lookup key with
        | some v => some (v.getD "")
        | none => environment.lookup key
      put name (b.value.map fun v ↦ String.ofList (expand lookup (v.length + 1) v.toList)) found) []

end AbnfCompiler.Data.Dotenv
