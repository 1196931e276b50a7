import Mathlib.Data.List.Forall2
import AbnfCompiler.Proofs.Script.Token

/-!
Scripts: statements that name a term or export it, read token by token. Terms are names, strings,
classes, calls, lists, objects and functions of the one parameter `$`.
-/
namespace AbnfCompiler.Script

inductive Term
  | path (names : List String)
  | text (value : List Char)
  | range (low high : Nat)
  | call (function : String) (arguments : List Term)
  | list (items : List Term)
  | object (entries : List (String × Term))
  | function (body : Term)

/-- What a statement sets. -/
inductive Target
  | constant (name : String)
  | exports

/-- What a term stands in, with the parts that were read before it. -/
inductive Frame
  | statement (target : Target)
  | call (function : String) (arguments : List Term)
  | list (items : List Term)
  | entry (entries : List (String × Term)) (key : String)
  | function

/-- What comes next. -/
inductive Focus
  | statement
  | name
  | equals (target : Target)
  | term
  | key (entries : List (String × Term))
  | colon (entries : List (String × Term)) (key : String)
  | done (t : Term)

structure State where
  statements : List (Target × Term)
  stack : List Frame
  focus : Focus

namespace State

variable (s : State)

def enter (frame : Frame) : State := { s with stack := frame :: s.stack, focus := .term }

/-- The functions whose body ends with a term, and what they stand in. -/
def closed : List Frame → Term → List Frame × Term
  | .function :: stack, t => closed stack (.function t)
  | stack, t => (stack, t)

/-- What a sign after a term leads to. -/
def after? (t : Term) (c : Char) : Option State :=
  match closed s.stack t with
  | (.call f ts :: stack, t) =>
    if c = ',' then some ⟨s.statements, .call f (ts ++ [t]) :: stack, .term⟩
    else if c = ')' then some ⟨s.statements, stack, .done (.call f (ts ++ [t]))⟩
    else none
  | (.list ts :: stack, t) =>
    if c = ',' then some ⟨s.statements, .list (ts ++ [t]) :: stack, .term⟩
    else if c = ']' then some ⟨s.statements, stack, .done (.list (ts ++ [t]))⟩
    else none
  | (.entry es k :: stack, t) =>
    if c = ',' then some ⟨s.statements, stack, .key (es ++ [(k, t)])⟩
    else if c = '\x7d' then some ⟨s.statements, stack, .done (.object (es ++ [(k, t)]))⟩
    else none
  | ([.statement target], t) =>
    if c = ';' then some ⟨s.statements ++ [(target, t)], [], .statement⟩ else none
  | _ => none

/-- What a token leads to after a term: a name may be a function or a parameter. -/
def follow? (t : Term) : Token → Option State
  | .arrow =>
    match t with
    | .path ["$"] => some (s.enter .function)
    | _ => none
  | .sign c =>
    if c = '(' then
      match t with
      | .path [f] => some (s.enter (.call f []))
      | _ => none
    else s.after? t c
  | _ => none

/-- What a token leads to where a term may begin. A list or a call may end there, too. -/
def begin? : Token → Option State
  | .path names => some { s with focus := .done (.path names) }
  | .text value => some { s with focus := .done (.text value) }
  | .range low high => some { s with focus := .done (.range low high) }
  | .sign c =>
    if c = '[' then some (s.enter (.list []))
    else if c = '\x7b' then some { s with focus := .key [] }
    else
      match s.stack with
      | .list ts :: stack =>
        if c = ']' then some ⟨s.statements, stack, .done (.list ts)⟩ else none
      | .call f ts :: stack =>
        if c = ')' then some ⟨s.statements, stack, .done (.call f ts)⟩ else none
      | _ => none
  | .arrow => none

def next? (token : Token) : Option State :=
  match s.focus, token with
  | .statement, .path names =>
    if names = ["const"] then some { s with focus := .name }
    else if names = ["module", "exports"] then some { s with focus := .equals .exports }
    else none
  | .name, .path [x] => some { s with focus := .equals (.constant x) }
  | .equals target, .sign '=' => some (s.enter (.statement target))
  | .term, token => s.begin? token
  | .key es, .path [k] => some { s with focus := .colon es k }
  | .key es, .sign '\x7d' => some { s with focus := .done (.object es) }
  | .colon es k, .sign ':' => some (s.enter (.entry es k))
  | .done t, token => s.follow? t token
  | _, _ => none

def run? (ts : List Token) : Option State := ts.foldlM next? s

end State

def statements? (text : String) : Option (List (Target × Term)) := do
  match ← State.run? ⟨[], [], .statement⟩ (← tokens? text) with
  | ⟨statements, [], .statement⟩ => some statements
  | _ => none

section Reading

variable {s₁ s₂ s₃ : State} {as bs cs : List Char} {t : Term} {ts us : List Term}
  {stack : List Frame} {ss : List (Target × Term)}

theorem run?_append (s : State) (as bs : List Token) :
    s.run? (as ++ bs) = (s.run? as).bind fun s ↦ s.run? bs :=
  List.foldlM_append

/-- Characters lead from one state to another, and leave no token open. -/
def Moves (cs : List Char) (s₁ s₂ : State) : Prop := ∃ ts, Closed cs ts ∧ s₁.run? ts = some s₂

/-- Characters lead from one state to another if nothing follows that could belong to the last
token. -/
def Leads (cs : List Char) (s₁ s₂ : State) : Prop := ∃ ts, Lexes cs ts ∧ s₁.run? ts = some s₂

/-- The characters are a term, wherever one may begin. -/
def Reads (cs : List Char) (t : Term) : Prop :=
  ∀ ss stack, Leads cs ⟨ss, stack, .term⟩ ⟨ss, stack, .done t⟩

theorem Moves.leads (h : Moves cs s₁ s₂) : Leads cs s₁ s₂ := by
  obtain ⟨ts, hts, hrun⟩ := h
  exact ⟨ts, hts.lexes, hrun⟩

theorem Moves.append (ha : Moves as s₁ s₂) (hb : Moves bs s₂ s₃) : Moves (as ++ bs) s₁ s₃ := by
  obtain ⟨ts, hts, has⟩ := ha
  obtain ⟨us, hus, hbs⟩ := hb
  refine ⟨ts ++ us, hts.append hus, ?_⟩
  rw [run?_append, has, Option.bind_some, hbs]

theorem Leads.append {c : Char} (ha : Leads as s₁ s₂) (hc : isWordChar c = false)
    (hb : Moves (c :: bs) s₂ s₃) : Moves (as ++ c :: bs) s₁ s₃ := by
  obtain ⟨ts, hts, has⟩ := ha
  obtain ⟨us, hus, hbs⟩ := hb
  refine ⟨ts ++ us, hts.append hc hus, ?_⟩
  rw [run?_append, has, Option.bind_some, hbs]

theorem Moves.append_leads (ha : Moves as s₁ s₂) (hb : Leads bs s₂ s₃) :
    Leads (as ++ bs) s₁ s₃ := by
  obtain ⟨ts, hts, has⟩ := ha
  obtain ⟨us, hus, hbs⟩ := hb
  refine ⟨ts ++ us, hts.append_lexes hus, ?_⟩
  rw [run?_append, has, Option.bind_some, hbs]

theorem statements?_of_moves {text : String}
    (h : Moves text.toList ⟨[], [], .statement⟩ ⟨ss, [], .statement⟩) :
    statements? text = some ss := by
  obtain ⟨ts, hclosed, hrun⟩ := h
  have htokens : tokens? text = some ts := by
    rw [tokens?, hclosed]
    exact congrArg some (List.append_nil ts)
  rw [statements?, htokens]
  simp only [Option.bind_eq_bind, Option.bind_some, hrun]

theorem leads_token {token : Token} (h : Lexes cs [token]) (hnext : s₁.next? token = some s₂) :
    Leads cs s₁ s₂ := by
  refine ⟨[token], h, ?_⟩
  rw [State.run?, List.foldlM_cons, hnext]
  rfl

theorem pathOf_of_not_mem (h : '.' ∉ cs) : pathOf cs = .path [String.ofList cs] := by
  rw [pathOf, Text.pieces_of_not_mem h]
  rfl

theorem pathOf_property (h : '.' ∉ cs) :
    pathOf ('$' :: '.' :: cs) = .path ["$", String.ofList cs] := by
  rw [pathOf, Text.pieces, if_neg (by decide), Text.pieces, if_pos rfl, Text.pieces_of_not_mem h]
  rfl

/-- Terms with commas between them, up to the sign that closes what they stand in. -/
theorem moves_joined (frame : List Term → Frame) (whole : List Term → Term) (sign : Char)
    (ss : List (Target × Term)) (stack : List Frame) {args : List (List Char)}
    (h : List.Forall₂ Reads args ts) (hsign : isWordChar sign = false)
    (hempty : ∀ us, Moves [sign] ⟨ss, frame us :: stack, .term⟩ ⟨ss, stack, .done (whole us)⟩)
    (hcomma : ∀ us t, Moves [',', ' '] ⟨ss, frame us :: stack, .done t⟩
      ⟨ss, frame (us ++ [t]) :: stack, .term⟩)
    (hclose : ∀ us t, Moves [sign] ⟨ss, frame us :: stack, .done t⟩
      ⟨ss, stack, .done (whole (us ++ [t]))⟩) (us : List Term) :
    Moves ([',', ' '].intercalate args ++ [sign]) ⟨ss, frame us :: stack, .term⟩
      ⟨ss, stack, .done (whole (us ++ ts))⟩ := by
  induction h generalizing us with
  | nil =>
    rw [List.append_nil]
    exact hempty us
  | @cons a t args ts ha h ih =>
    cases h with
    | nil =>
      rw [List.intercalate_singleton]
      exact (ha ss (frame us :: stack)).append hsign (hclose us t)
    | cons hb h =>
      rw [List.intercalate_cons_cons, List.append_assoc, List.append_assoc]
      have hrest := (hcomma us t).append (ih (us ++ [t]))
      rw [List.append_assoc] at hrest
      exact (ha ss (frame us :: stack)).append rfl hrest

theorem Reads.call {f : List Char} {args : List (List Char)} (hne : f ≠ [])
    (hword : ∀ c ∈ f, isWordChar c) (hdot : '.' ∉ f) (h : List.Forall₂ Reads args ts) :
    Reads (f ++ '(' :: ([',', ' '].intercalate args ++ [')'])) (.call (String.ofList f) ts) := by
  intro ss stack
  have hname : Leads f ⟨ss, stack, .term⟩ ⟨ss, stack, .done (.path [String.ofList f])⟩ :=
    leads_token (lexes_word hne hword) (by rw [pathOf_of_not_mem hdot]; rfl)
  have hopen : Moves ['('] ⟨ss, stack, .done (.path [String.ofList f])⟩
      ⟨ss, .call (String.ofList f) [] :: stack, .term⟩ := ⟨[.sign '('], rfl, rfl⟩
  have hargs := moves_joined (.call (String.ofList f)) (.call (String.ofList f)) ')' ss stack h rfl
    (fun _ ↦ ⟨[.sign ')'], rfl, rfl⟩) (fun _ _ ↦ ⟨[.sign ','], rfl, rfl⟩)
    (fun _ _ ↦ ⟨[.sign ')'], rfl, rfl⟩) []
  exact (hname.append rfl (hopen.append hargs)).leads

theorem Reads.list {items : List (List Char)} (h : List.Forall₂ Reads items ts) :
    Reads ('[' :: ([',', ' '].intercalate items ++ [']'])) (.list ts) := by
  intro ss stack
  have hopen : Moves ['['] ⟨ss, stack, .term⟩ ⟨ss, .list [] :: stack, .term⟩ :=
    ⟨[.sign '['], rfl, rfl⟩
  have hitems := moves_joined .list .list ']' ss stack h rfl (fun _ ↦ ⟨[.sign ']'], rfl, rfl⟩)
    (fun _ _ ↦ ⟨[.sign ','], rfl, rfl⟩) (fun _ _ ↦ ⟨[.sign ']'], rfl, rfl⟩) []
  exact (hopen.append hitems).leads

end Reading

end AbnfCompiler.Script
