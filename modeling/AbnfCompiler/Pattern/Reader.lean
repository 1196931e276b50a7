import AbnfCompiler.Pattern.Basic

/-!
The written form of patterns: characters for themselves, sets in brackets, groups in parentheses,
`|` between alternatives, and `*`, `+`, `?` and numbers in braces behind what is repeated.
-/
namespace AbnfCompiler.Pattern

def hexDigit? (c : Char) : Option Nat :=
  if c.isDigit then some (c.toNat - '0'.toNat)
  else if 'a' ≤ c ∧ c ≤ 'f' then some (c.toNat - 'a'.toNat + 10)
  else if 'A' ≤ c ∧ c ≤ 'F' then some (c.toNat - 'A'.toNat + 10)
  else none

/-- A number of exactly `count` hexadecimal digits. -/
def hexNumber? (count : Nat) (cs : List Char) : Option (Nat × List Char) := do
  let digits ← (cs.take count).mapM hexDigit?
  if digits.length = count then
    return (digits.foldl (fun n d ↦ n * 16 + d) 0, cs.drop count)
  else none

/-- The character of an escape that stands for one. -/
def escapedChar? : List Char → Option (Nat × List Char)
  | 'n' :: cs => some (0x0A, cs)
  | 'r' :: cs => some (0x0D, cs)
  | 't' :: cs => some (0x09, cs)
  | 'f' :: cs => some (0x0C, cs)
  | 'v' :: cs => some (0x0B, cs)
  | 'a' :: cs => some (0x07, cs)
  | '0' :: cs => some (0, cs)
  | 'x' :: cs => hexNumber? 2 cs
  | 'u' :: cs => hexNumber? 4 cs
  | 'U' :: cs => hexNumber? 8 cs
  | c :: cs => if c.isAlphanum then none else some (c.toNat, cs)
  | [] => none

def classItem? : Char → Option SetItem
  | 'w' => some (.word false)
  | 'W' => some (.word true)
  | 'd' => some (.digit false)
  | 'D' => some (.digit true)
  | 's' => some (.blank false)
  | 'S' => some (.blank true)
  | _ => none

/-- A member of a set, which may be an end of a range. -/
def member? : List Char → Option (SetItem × List Char)
  | '\\' :: 'b' :: cs => some (.range 8 8, cs)
  | '\\' :: c :: cs =>
    match classItem? c with
    | some item => some (item, cs)
    | none => (escapedChar? (c :: cs)).map fun (n, rest) ↦ (.range n n, rest)
  | c :: cs => some (.range c.toNat c.toNat, cs)
  | [] => none

/-- The members of a set up to its closing bracket, which as the first member stands for
itself. -/
def members? (fuel : Nat) (isFirst : Bool) (cs : List Char) :
    Option (List SetItem × List Char) :=
  match fuel with
  | 0 => none
  | fuel + 1 =>
    if cs.head? = some ']' ∧ !isFirst then some ([], cs.drop 1)
    else do
      let (low, rest) ← member? cs
      match rest with
      | '-' :: ']' :: _ =>
        let (items, rest) ← members? fuel false rest
        return (low :: items, rest)
      | '-' :: rest =>
        let (high, rest) ← member? rest
        match low, high with
        | .range a _, .range b _ =>
          if a ≤ b then
            let (items, rest) ← members? fuel false rest
            return (.range a b :: items, rest)
          else none
        | _, _ => none
      | _ =>
        let (items, rest) ← members? fuel false rest
        return (low :: items, rest)

def set? (cs : List Char) : Option (Pattern × List Char) :=
  let (complement, cs) := match cs with
    | '^' :: cs => (true, cs)
    | _ => (false, cs)
  (members? (cs.length + 1) true cs).map fun (items, rest) ↦ (.set complement items, rest)

def escape? : List Char → Option (Pattern × List Char)
  | 'b' :: cs => some (.wordEdge false, cs)
  | 'B' :: cs => some (.wordEdge true, cs)
  | 'A' :: cs => some (.textStart, cs)
  | 'Z' :: cs => some (.textEnd, cs)
  | c :: cs =>
    match classItem? c with
    | some item => some (.set false [item], cs)
    | none => (escapedChar? (c :: cs)).map fun (n, rest) ↦ (.set false [.range n n], rest)
  | [] => none

def isEdge : Pattern → Bool
  | .textStart | .textEnd | .lineEnd | .wordEdge _ => true
  | _ => false

/-- Bounds in braces; braces around anything else stand for themselves. -/
def braces? (cs : List Char) : Option ((Nat × Option Nat) × List Char) :=
  let number (ds : List Char) : Nat := ds.foldl (fun n d ↦ n * 10 + (d.toNat - '0'.toNat)) 0
  let low := cs.takeWhile Char.isDigit
  match cs.dropWhile Char.isDigit with
  | '\x7d' :: rest => if low.isEmpty then none else some ((number low, some (number low)), rest)
  | ',' :: more =>
    let high := more.takeWhile Char.isDigit
    match more.dropWhile Char.isDigit with
    | '\x7d' :: rest =>
      some ((number low, if high.isEmpty then none else some (number high)), rest)
    | _ => none
  | _ => none

/-- The bounds of a repetition, if one follows. -/
def quantifier? : List Char → Option ((Nat × Option Nat) × List Char)
  | '*' :: cs => some ((0, none), cs)
  | '+' :: cs => some ((1, none), cs)
  | '?' :: cs => some ((0, some 1), cs)
  | '\x7b' :: cs => braces? cs
  | _ => none

/-- A pattern with the repetition that follows it. No second one may follow. -/
def quantified? (p : Pattern) (cs : List Char) : Option (Pattern × List Char) :=
  match quantifier? cs with
  | none => some (p, cs)
  | some ((least, most), rest) =>
    if isEdge p || most.any (· < least) then none
    else
      let (reluctant, rest) := match rest with
        | '?' :: rest => (true, rest)
        | '+' :: rest => (false, rest)
        | _ => (false, rest)
      if (quantifier? rest).isSome then none else some (.many p least most reluctant, rest)

def isNameStart (c : Char) : Bool := c == '_' || (Text.isWord c && !Text.isDigit c)

/-- The name of a group up to its closing mark. -/
def groupName? (cs : List Char) : Option (String × List Char) :=
  let name := cs.takeWhile (· ≠ '>')
  match cs.dropWhile (· ≠ '>') with
  | _ :: rest =>
    if (name.head?.any isNameStart) && name.all isWordPart then some (String.ofList name, rest)
    else none
  | [] => none

mutual

/-- A pattern up to a closing parenthesis or the end. Every part takes one unit of `fuel`. -/
def alternatives? : Nat → List Char → Option (Pattern × List Char)
  | 0, _ => none
  | fuel + 1, cs => do
    let (p, rest) ← sequence? fuel cs
    match rest with
    | '|' :: rest =>
      let (q, rest) ← alternatives? fuel rest
      return (.either p q, rest)
    | _ => return (p, rest)

def sequence? : Nat → List Char → Option (Pattern × List Char)
  | 0, _ => none
  | fuel + 1, cs =>
    match cs with
    | [] => some (.empty, [])
    | c :: _ =>
      if c = '|' ∨ c = ')' then some (.empty, cs)
      else do
        let (p, rest) ← atom? fuel cs
        let (p, rest) ← quantified? p rest
        let (q, rest) ← sequence? fuel rest
        return (.sequence p q, rest)

def atom? : Nat → List Char → Option (Pattern × List Char)
  | 0, _ => none
  | fuel + 1, cs =>
    match cs with
    | '(' :: '?' :: 'P' :: '<' :: cs => do
      let (name, rest) ← groupName? cs
      let (p, rest) ← closed? fuel rest
      return (.group name p, rest)
    | '(' :: '?' :: ':' :: cs => closed? fuel cs
    | '(' :: '?' :: _ => none
    | '(' :: cs => closed? fuel cs
    | '[' :: cs => set? cs
    | '\\' :: cs => escape? cs
    | '.' :: cs => some (.set true [.range 10 10], cs)
    | '^' :: cs => some (.textStart, cs)
    | '$' :: cs => some (.lineEnd, cs)
    | c :: rest => if (quantifier? cs).isSome then none else some (.letter c, rest)
    | [] => none

def closed? : Nat → List Char → Option (Pattern × List Char)
  | 0, _ => none
  | fuel + 1, cs => do
    let (p, rest) ← alternatives? fuel cs
    match rest with
    | ')' :: rest => return (p, rest)
    | _ => none

end

def distinct (names : List String) : Bool := names.eraseDups.length == names.length

def read? (s : String) : Option Pattern :=
  let cs := s.toList
  match alternatives? (4 * cs.length + 4) cs with
  | some (p, []) => if distinct p.groupNames then some p else none
  | _ => none

end AbnfCompiler.Pattern
