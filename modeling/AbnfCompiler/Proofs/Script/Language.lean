import AbnfCompiler.Proofs.Expression.Productions
import AbnfCompiler.Proofs.Script.Term

/-!
The language of a grammar script. Its rules are productions, the property `k` of the parameter is
the nonterminal `k`, and a constant that is called with the parameter stands for the body of its
function. No constant may come to a call of itself.
-/
namespace AbnfCompiler.Script

def combinator? : String → Option (List Expression → Option Expression)
  | "seq" => some fun es ↦ some (.sequence es)
  | "choice" => some fun es ↦ some (.choice es)
  | "optional" => some fun es ↦ match es with
    | [e] => some (.optional e)
    | _ => none
  | "repeat" => some fun es ↦ match es with
    | [e] => some (.repetition e (.atLeast 0))
    | _ => none
  | "repeat1" => some fun es ↦ match es with
    | [e] => some (.repetition e (.atLeast 1))
    | _ => none
  | _ => none

namespace Term

def passesOn : List Term → Bool
  | [.path ["$"]] => true
  | _ => false

mutual

/-- The expression that a term is, given those that calls of constants are. -/
def expression? (call : String → Option Expression) : Term → Option Expression
  | .path ["$", name] => some (.reference name)
  | .text value => some (.literal (value.map Codepoint.ofChar))
  | .range low high =>
    if h : low ≤ high ∧ high ≤ 0x10FFFF then some (.charClass ⟨low, high, h.1, h.2⟩) else none
  | .call f ts =>
    match combinator? f with
    | some combine => (expressions? call ts).bind combine
    | none => if passesOn ts then call f else none
  | _ => none

def expressions? (call : String → Option Expression) : List Term → Option (List Expression)
  | [] => some []
  | t :: ts => do return (← expression? call t) :: (← expressions? call ts)

end

end Term

def without (constants : List (String × Term)) (f : String) : List (String × Term) :=
  constants.filter (·.1 != f)

theorem length_without_lt {constants : List (String × Term)} {f : String} {t : Term}
    (h : constants.lookup f = some t) : (without constants f).length < constants.length := by
  obtain ⟨l₁, l₂, rfl, -⟩ := List.lookup_eq_some_iff.1 h
  rw [without, List.filter_append, List.filter_cons_of_neg (by simp), List.length_append,
    List.length_append, List.length_cons]
  have h₁ := l₁.length_filter_le (·.1 != f)
  have h₂ := l₂.length_filter_le (·.1 != f)
  omega

/-- The expression of a constant. Its body may call all constants but itself. -/
def constant? (constants : List (String × Term)) (f : String) : Option Expression :=
  match _h : constants.lookup f with
  | some (.function body) => body.expression? (constant? (without constants f))
  | _ => none
termination_by constants.length
decreasing_by exact length_without_lt _h

def constants (ss : List (Target × Term)) : List (String × Term) :=
  ss.filterMap fun
    | (.constant x, t) => some (x, t)
    | _ => none

def exported (ss : List (Target × Term)) : List Term :=
  ss.filterMap fun
    | (.exports, t) => some t
    | _ => none

def distinct? (entries : List (String × Term)) : Option (List (String × Term)) :=
  if (entries.map Prod.fst).Nodup then some entries else none

def production? (constants : List (String × Term)) : String × Term → Option (String × Expression)
  | (name, .function body) => (body.expression? (constant? constants)).map (name, ·)
  | _ => none

/-- The rules of the one grammar that is exported. -/
def productions? (ss : List (Target × Term)) : Option (List (String × Expression)) := do
  let cs ← distinct? (constants ss)
  match exported ss with
  | [.call "grammar" [.object fields]] =>
    match (← distinct? fields).lookup "rules" with
    | some (.object rules) => (← distinct? rules).mapM (production? cs)
    | _ => none
  | _ => none

/-- The language of a symbol in the grammar of a script. -/
def language? (text symbol : String) : Option (Language Codepoint) := do
  let rules ← productions? (← statements? text)
  return generated (fun name e ↦ (name, e) ∈ rules) symbol

end AbnfCompiler.Script
