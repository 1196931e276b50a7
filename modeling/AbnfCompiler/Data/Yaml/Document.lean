import AbnfCompiler.Data.Yaml.Scalar
import AbnfCompiler.Data.Yaml.Token

/-!
The value of a document from its tokens. A missing node stands for nothing, keys have to be
scalars, and of entries with the same key the last one counts. There may be one document only.
-/
namespace AbnfCompiler.Data.Yaml

/-- A value and the tokens behind it. -/
abbrev Parsed := Option (Value × List Token)

/-- Puts an entry in front of others, if its key may be one. -/
def entry? (key value : Value) (rest : List (Value × Value)) : Option (List (Value × Value)) :=
  if key.isScalar then some ((key, value) :: rest) else none

mutual

/-- A node within a block. Every step takes one unit of `fuel`. -/
def node? : Nat → List Token → Parsed
  | 0, _ => none
  | fuel + 1, ts =>
    match ts with
    | .listStart :: ts => (items? fuel ts).map fun (vs, ts) ↦ (.list vs, ts)
    | .mapStart :: ts => (entries? fuel ts).map fun (es, ts) ↦ (Value.ofEntries es, ts)
    | ts => flowNode? fuel ts

def flowNode? : Nat → List Token → Parsed
  | 0, _ => none
  | fuel + 1, ts =>
    match ts with
    | .plain s :: ts => (Scalar.ofPlain? s).map fun v ↦ (v, ts)
    | .quoted s :: ts => some (.text s, ts)
    | .openList :: ts => (flowItems? fuel true ts).map fun (vs, ts) ↦ (.list vs, ts)
    | .openMap :: ts => (flowEntries? fuel true ts).map fun (es, ts) ↦ (Value.ofEntries es, ts)
    | _ => none

def items? : Nat → List Token → Option (List Value × List Token)
  | 0, _ => none
  | fuel + 1, ts =>
    match ts with
    | .blockEnd :: ts => some ([], ts)
    | .item :: ts => do
      let (v, ts) ← match ts with
        | .item :: _ | .blockEnd :: _ => some (.null, ts)
        | _ => node? fuel ts
      let (vs, ts) ← items? fuel ts
      return (v :: vs, ts)
    | _ => none

/-- The items of a list that is not further in than the key before it. -/
def looseItems? : Nat → List Token → Option (List Value × List Token)
  | 0, _ => none
  | fuel + 1, ts =>
    match ts with
    | .item :: ts => do
      let (v, ts) ← match ts with
        | .item :: _ | .key :: _ | .value :: _ | .blockEnd :: _ => some (.null, ts)
        | _ => node? fuel ts
      let (vs, ts) ← looseItems? fuel ts
      return (v :: vs, ts)
    | ts => some ([], ts)

/-- A key or a value within a map. -/
def part? : Nat → List Token → Parsed
  | 0, _ => none
  | fuel + 1, ts =>
    match ts with
    | .key :: _ | .value :: _ | .blockEnd :: _ => some (.null, ts)
    | .item :: _ => (looseItems? fuel ts).map fun (vs, ts) ↦ (.list vs, ts)
    | _ => node? fuel ts

def entries? : Nat → List Token → Option (List (Value × Value) × List Token)
  | 0, _ => none
  | fuel + 1, ts => do
    match ts with
    | .blockEnd :: ts => return ([], ts)
    | _ =>
      let (k, ts) ← match ts with
        | .key :: ts => part? fuel ts
        | _ => none
      let (v, ts) ← match ts with
        | .value :: ts => part? fuel ts
        | _ => some (.null, ts)
      let (es, ts) ← entries? fuel ts
      return (← entry? k v es, ts)

/-- The value behind a key within brackets. -/
def flowValue? : Nat → List Token → Parsed
  | 0, _ => none
  | fuel + 1, ts =>
    match ts with
    | .value :: ts =>
      match ts with
      | .comma :: _ | .closeList :: _ | .closeMap :: _ => some (.null, ts)
      | _ => flowNode? fuel ts
    | _ => some (.null, ts)

/-- A key within brackets, behind its mark. -/
def flowKey? : Nat → List Token → Parsed
  | 0, _ => none
  | fuel + 1, ts =>
    match ts with
    | .value :: _ | .comma :: _ | .closeList :: _ | .closeMap :: _ => some (.null, ts)
    | _ => flowNode? fuel ts

/-- The items of a list in brackets. An item with a colon is a map of one entry. -/
def flowItems? : Nat → Bool → List Token → Option (List Value × List Token)
  | 0, _, _ => none
  | fuel + 1, isFirst, ts => do
    match ts with
    | .closeList :: ts => return ([], ts)
    | _ =>
      let ts ← match isFirst, ts with
        | true, ts => some ts
        | false, .comma :: ts => some ts
        | false, _ => none
      match ts with
      | .closeList :: ts => return ([], ts)
      | .key :: ts =>
        let (k, ts) ← flowKey? fuel ts
        let (v, ts) ← flowValue? fuel ts
        let (vs, ts) ← flowItems? fuel false ts
        return (.map (← entry? k v []) :: vs, ts)
      | _ =>
        let (v, ts) ← flowNode? fuel ts
        let (vs, ts) ← flowItems? fuel false ts
        return (v :: vs, ts)

/-- The entries of a map in braces. -/
def flowEntries? : Nat → Bool → List Token → Option (List (Value × Value) × List Token)
  | 0, _, _ => none
  | fuel + 1, isFirst, ts => do
    match ts with
    | .closeMap :: ts => return ([], ts)
    | _ =>
      let ts ← match isFirst, ts with
        | true, ts => some ts
        | false, .comma :: ts => some ts
        | false, _ => none
      match ts with
      | .closeMap :: ts => return ([], ts)
      | .key :: ts =>
        let (k, ts) ← flowKey? fuel ts
        let (v, ts) ← flowValue? fuel ts
        let (es, ts) ← flowEntries? fuel false ts
        return (← entry? k v es, ts)
      | _ =>
        let (k, ts) ← flowNode? fuel ts
        let (es, ts) ← flowEntries? fuel false ts
        return (← entry? k .null es, ts)

end

/-- The value of the only document among some tokens. -/
def ofTokens? (ts : List Token) : Option Value :=
  let node (ts : List Token) : Parsed := node? (8 * ts.length + 8) ts
  let parsed : Parsed := match ts with
    | [] => some (.null, [])
    | [.documentStart] => some (.null, [])
    | .documentStart :: .documentEnd :: ts => some (.null, .documentEnd :: ts)
    | .documentStart :: ts => node ts
    | ts => node ts
  match parsed with
  | some (v, rest) => if rest.all (· == .documentEnd) then some v else none
  | none => none

def read? (text : String) : Option Value := (Token.ofText? text).bind ofTokens?

end AbnfCompiler.Data.Yaml
