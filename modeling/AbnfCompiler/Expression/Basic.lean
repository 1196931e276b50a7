import AbnfCompiler.Text.Codepoint

/-!
Rule bodies as expressions over code points: references, literals, ranges, and their sequences,
choices, options and repetitions.
-/
namespace AbnfCompiler

/-- An inclusive range of code points. -/
structure CodeRange where
  low : Nat
  high : Nat
  ordered : low ≤ high
  inside : high ≤ 0x10FFFF
deriving DecidableEq, Repr

/-- How often something occurs: at least `least` times, and at most `most` times if that is
given. -/
structure Bounds where
  least : Nat
  most : Option Nat
  ordered : ∀ n, most = some n → least ≤ n
deriving DecidableEq, Repr

namespace Bounds

def atLeast (n : Nat) : Bounds := ⟨n, none, nofun⟩

/-- Whether a generator offers a repetition with these bounds: any number of times, or once and
more. -/
def isNative (b : Bounds) : Bool := b.most.isNone && b.least ≤ 1

end Bounds

inductive Expression
  | reference (name : String)
  | literal (value : List Codepoint)
  | charClass (range : CodeRange)
  | sequence (items : List Expression)
  | choice (items : List Expression)
  | repetition (element : Expression) (bounds : Bounds)
  | optional (element : Expression)
deriving BEq, Repr, Inhabited

namespace Expression

def text (s : String) : Expression := .literal (Codepoint.ofText s)

/-- The expressions one after the other; a single one stands for itself. -/
def sequenceOf : List Expression → Option Expression
  | [] => none
  | [e] => some e
  | es => some (.sequence es)

/-- One of the expressions; a single one stands for itself. -/
def choiceOf : List Expression → Option Expression
  | [] => none
  | [e] => some e
  | es => some (.choice es)

theorem sequenceOf_eq_none {es : List Expression} : sequenceOf es = none ↔ es = [] := by
  match es with
  | [] => exact iff_of_true rfl rfl
  | [_] | _ :: _ :: _ => exact iff_of_false nofun nofun

theorem choiceOf_eq_none {es : List Expression} : choiceOf es = none ↔ es = [] := by
  match es with
  | [] => exact iff_of_true rfl rfl
  | [_] | _ :: _ :: _ => exact iff_of_false nofun nofun

mutual

/-- The names referred to, in order and with repeats. -/
def references : Expression → List String
  | .reference name => [name]
  | .literal _ | .charClass _ => []
  | .sequence items | .choice items => referencesAll items
  | .repetition element _ | .optional element => references element

def referencesAll : List Expression → List String
  | [] => []
  | e :: es => references e ++ referencesAll es

end

theorem referencesAll_eq_flatMap (es : List Expression) :
    referencesAll es = es.flatMap references := by
  induction es with
  | nil => rfl
  | cons e es ih => simp [referencesAll, ih]

inductive BoundsError
  | negative (lower : Int)
  | inverted (lower upper : Int)
  | empty
deriving DecidableEq, Repr

def BoundsError.message : BoundsError → String
  | .negative lower => "negative repeat lower bound: " ++ toString lower
  | .inverted lower upper =>
    "repeat lower bound " ++ toString lower ++ " exceeds upper bound " ++ toString upper
  | .empty => "repetition allows no occurrences"

/-- From `lower` up to `upper` occurrences, any number from `lower` on without `upper`, spelled
out with sequences, options and native repetitions. -/
def repeated (lower : Int) (upper : Option Int) (e : Expression) : Except BoundsError Expression :=
  if lower < 0 then .error (.negative lower)
  else
    match upper with
    | none =>
      if lower ≤ 1 then .ok (.repetition e (.atLeast lower.toNat))
      else .ok (.sequence (List.replicate lower.toNat e ++ [.repetition e (.atLeast 0)]))
    | some upper =>
      if upper < lower then .error (.inverted lower upper)
      else
        match sequenceOf (List.replicate lower.toNat e ++
            List.replicate (upper - lower).toNat (.optional e)) with
        | some spelled => .ok spelled
        | none => .error .empty

mutual

/-- The expression with all repetitions that are not native spelled out. -/
def spelledOut : Expression → Except BoundsError Expression
  | .reference name => .ok (.reference name)
  | .literal value => .ok (.literal value)
  | .charClass range => .ok (.charClass range)
  | .sequence items => return .sequence (← spelledOutAll items)
  | .choice items => return .choice (← spelledOutAll items)
  | .repetition element bounds => do
    let element ← spelledOut element
    if bounds.isNative then return .repetition element bounds
    else repeated bounds.least (bounds.most.map Int.ofNat) element
  | .optional element => return .optional (← spelledOut element)

def spelledOutAll : List Expression → Except BoundsError (List Expression)
  | [] => .ok []
  | e :: es => return (← spelledOut e) :: (← spelledOutAll es)

end

end Expression

end AbnfCompiler
