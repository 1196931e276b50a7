import AbnfCompiler.Proofs.Compilation.Operands

/-!
Nodes that carry no meaning. Put in or taken out below an expression, at any number of places, they
change neither the expression nor what is recorded, nor the violation if there is one.
-/
namespace AbnfCompiler

/-- The same value, or failures that are related. -/
inductive SameUpTo {ε α : Type} (R : ε → ε → Prop) : Except ε α → Except ε α → Prop
  | ok (a : α) : SameUpTo R (.ok a) (.ok a)
  | error {e e' : ε} : R e e' → SameUpTo R (.error e) (.error e')

theorem SameUpTo.refl {ε α : Type} {R : ε → ε → Prop} (hR : ∀ e, R e e) (x : Except ε α) :
    SameUpTo R x x := by
  cases x with
  | ok a => exact .ok a
  | error e => exact .error (hR e)

namespace Traced

variable {ω ε α β : Type} {R : ε → ε → Prop} {x y : Traced ω ε α}

structure SameUpTo (R : ε → ε → Prop) (x y : Traced ω ε α) : Prop where
  trace : y.trace = x.trace
  result : AbnfCompiler.SameUpTo R x.result y.result

theorem SameUpTo.refl (hR : ∀ e, R e e) (x : Traced ω ε α) : SameUpTo R x x :=
  ⟨rfl, .refl hR x.result⟩

theorem SameUpTo.bind {f g : α → Traced ω ε β} (h : SameUpTo R x y)
    (hfg : ∀ a, SameUpTo R (f a) (g a)) : SameUpTo R (x >>= f) (y >>= g) := by
  obtain ⟨htrace, hresult⟩ := h
  generalize hx : x.result = r at hresult
  generalize hy : y.result = r' at hresult
  cases hresult with
  | ok a =>
    rw [bind_ok hx, bind_ok hy]
    exact ⟨by rw [htrace, (hfg a).trace], (hfg a).result⟩
  | error he =>
    rw [bind_error hx, bind_error hy]
    exact ⟨htrace, .error he⟩

end Traced

theorem Violation.message_congr {v v' : Violation} (hcause : v'.cause = v.cause)
    (hkind : v'.node.kind = v.node.kind) (htext : v'.node.text = v.node.text)
    (hline : v'.node.line = v.node.line) : v'.message = v.message := by
  rw [message, message, hcause, hkind, htext, hline]

namespace Compilation

open SyntaxTree

variable {R : SyntaxTree → SyntaxTree → Prop} {t t' : SyntaxTree} {ts ts' : List SyntaxTree}

section Alike

/-- Kinds of nodes whose expressions are made of those of their meaningful children. -/
def branchKinds : List String :=
  ["elements", "alternation", "concatenation", "repetition", "option", "element", "group",
    "char_val", "case_insensitive_string", "case_sensitive_string"]

/-- The operator of a repetition, which is read as a text. -/
def operator? (t : SyntaxTree) : Option SyntaxTree :=
  match construct? t.kind, t.meaningful with
  | some .repetition, [operator, _] => some operator
  | _, _ => none

/-- Nodes that `R` relates, one by one, when nodes without meaning are put in and taken out. -/
inductive Row (R : SyntaxTree → SyntaxTree → Prop) : List SyntaxTree → List SyntaxTree → Prop
  | nil : Row R [] []
  | same {x y : SyntaxTree} {xs ys : List SyntaxTree} :
      R x y → Row R xs ys → Row R (x :: xs) (y :: ys)
  | putIn {y : SyntaxTree} {xs ys : List SyntaxTree} :
      y.isMeaningful = false → Row R xs ys → Row R xs (y :: ys)
  | takenOut {x : SyntaxTree} {xs ys : List SyntaxTree} :
      x.isMeaningful = false → Row R xs ys → Row R (x :: xs) ys

/-- Trees that differ in nodes without meaning below the branches of an expression. All operators,
numbers and strings are the same, and so are the texts and the lines of all branches. -/
inductive Alike : SyntaxTree → SyntaxTree → Prop
  | refl (t : SyntaxTree) : Alike t t
  | branch {t : SyntaxTree} {children : List SyntaxTree} :
      t.kind ∈ branchKinds → Row Alike t.children children →
      operator? { t with children } = operator? t → Alike t { t with children }

theorem Alike.fields (h : Alike t t') :
    t'.kind = t.kind ∧ t'.named = t.named ∧ t'.text = t.text ∧ t'.line = t.line := by
  cases h with
  | refl => exact ⟨rfl, rfl, rfl, rfl⟩
  | branch => exact ⟨rfl, rfl, rfl, rfl⟩

theorem Alike.isMeaningful_eq (h : Alike t t') : t'.isMeaningful = t.isMeaningful := by
  obtain ⟨hkind, hnamed, -⟩ := h.fields
  rw [isMeaningful, isMeaningful, isTrivia, isTrivia, hkind, hnamed]

theorem Row.forall₂ (h : Row R ts ts') (hR : ∀ x y, R x y → y.isMeaningful = x.isMeaningful) :
    List.Forall₂ R (ts.filter isMeaningful) (ts'.filter isMeaningful) := by
  induction h with
  | nil => exact .nil
  | @same x y xs ys hxy _ ih =>
    rw [List.filter_cons, List.filter_cons, hR x y hxy]
    split
    · exact .cons hxy ih
    · exact ih
  | putIn hy _ ih => rwa [List.filter_cons_of_neg (by simp [hy])]
  | takenOut hx _ ih => rwa [List.filter_cons_of_neg (by simp [hx])]

end Alike

section Failures

/-- The same failure, where the nodes of violations may differ in nodes without meaning. -/
inductive Failure.Alike : Failure → Failure → Prop
  | refl (f : Failure) : Failure.Alike f f
  | violation {cause : Violation.Cause} {n n' : SyntaxTree} : Compilation.Alike n n' →
      Failure.Alike (.violation ⟨cause, n⟩) (.violation ⟨cause, n'⟩)

theorem Failure.Alike.message_eq {f f' : Failure} (h : f.Alike f') : f'.message = f.message := by
  cases h with
  | refl => rfl
  | @violation cause n n' hn =>
    obtain ⟨hkind, -, htext, hline⟩ := hn.fields
    exact Violation.message_congr rfl hkind htext hline

inductive Refusal.Alike : Refusal → Refusal → Prop
  | unsupported (u : Unsupported) : Refusal.Alike (.unsupported u) (.unsupported u)
  | failure {f f' : Failure} : f.Alike f' → Refusal.Alike (.failure f) (.failure f')

theorem Refusal.Alike.refl (r : Refusal) : r.Alike r := by
  cases r with
  | unsupported u => exact .unsupported u
  | failure f => exact .failure (.refl f)

variable {α : Type}

theorem sameUpTo_refuse (h : Alike t t') (reason : Reason) :
    SameUpTo Refusal.Alike (refuse t reason : Except Refusal α) (refuse t' reason) := by
  obtain ⟨hkind, -, htext, hline⟩ := h.fields
  have hrecord : Unsupported.of t' reason = .of t reason := by
    simp only [Unsupported.of, hkind, htext, hline]
  rw [refuse, refuse, hrecord]
  exact .error (.refl _)

theorem sameUpTo_violate (h : Alike t t') (cause : Violation.Cause) :
    SameUpTo Refusal.Alike (violate t cause : Except Refusal α) (violate t' cause) :=
  .error (.failure (.violation h))

theorem sameUpTo_settle {x y : Drafting Event (Option Expression)}
    (h : x.SameUpTo Refusal.Alike y) : (settle x).SameUpTo Failure.Alike (settle y) := by
  obtain ⟨htrace, hresult⟩ := h
  unfold settle
  generalize x.result = r at hresult
  generalize y.result = r' at hresult
  rw [htrace]
  cases hresult with
  | ok e => exact ⟨rfl, .ok e⟩
  | error he =>
    cases he with
    | unsupported u => exact ⟨rfl, .ok none⟩
    | failure hf => exact ⟨rfl, .error hf⟩

theorem sameUpTo_part (h : (expression? t).SameUpTo Failure.Alike (expression? t')) :
    (part t).2.SameUpTo Refusal.Alike (part t').2 := by
  obtain ⟨htrace, hresult⟩ := h
  refine ⟨by rw [trace_part, trace_part, htrace], ?_⟩
  change SameUpTo _ ((expression? t).result.mapError _) ((expression? t').result.mapError _)
  generalize (expression? t).result = r at hresult
  generalize (expression? t').result = r' at hresult
  cases hresult with
  | ok e => exact .ok e
  | error he => exact .error (.failure he)

theorem sameUpTo_gather (h : List.Forall₂ Alike ts ts')
    (hts : ∀ c ∈ ts, ∀ c', Alike c c' → (expression? c).SameUpTo Failure.Alike (expression? c')) :
    (gather (ts.map part)).SameUpTo Refusal.Alike (gather (ts'.map part)) := by
  induction h with
  | nil => exact .refl Refusal.Alike.refl _
  | @cons c c' ts ts' hc _ ih =>
    obtain ⟨hhead, htail⟩ := List.forall_mem_cons.1 hts
    rw [gather_cons, gather_cons]
    refine (sameUpTo_part (hhead c' hc)).bind fun e ↦ (ih htail).bind fun es ↦ ?_
    exact .refl Refusal.Alike.refl _

end Failures

section Branches

theorem forall₂_operands (hkind : t'.kind = t.kind)
    (h : List.Forall₂ Alike t.meaningful t'.meaningful) :
    List.Forall₂ Alike (operands t) (operands t') := by
  unfold operands
  rw [hkind]
  generalize t.meaningful = xs at h
  generalize t'.meaningful = ys at h
  cases construct? t.kind with
  | none => exact .nil
  | some construct =>
    cases construct with
    | elements | alternation | concatenation => exact h
    | numeral | hexValue | quotedString => exact .nil
    | repetition =>
      cases h with
      | nil => exact .nil
      | cons hc h =>
        cases h with
        | nil => exact .cons hc .nil
        | cons hc' h =>
          cases h with
          | nil => exact .cons hc' .nil
          | cons => exact .nil
    | option | wrapper =>
      cases h with
      | nil => exact .nil
      | cons hc h =>
        cases h with
        | nil => exact .cons hc .nil
        | cons => exact .nil
    | element =>
      cases h with
      | nil => exact .nil
      | cons hc h =>
        simp only [hc.fields.1]
        split
        · exact .nil
        · exact .cons hc .nil

theorem sameUpTo_combine (h : Alike t t') (hkind : t.kind ∈ branchKinds)
    (hmeaningful : List.Forall₂ Alike t.meaningful t'.meaningful)
    (hoperator : operator? t' = operator? t) (es : List Expression) :
    SameUpTo Refusal.Alike (combine t es) (combine t' es) := by
  obtain ⟨hkind', -, htext, -⟩ := h.fields
  have hbranch : ∀ kind ∈ branchKinds, construct? kind ∉
      [some .numeral, some .hexValue, some .quotedString] := by decide
  have hconstruct := hbranch _ hkind
  have hviolate (cause : Violation.Cause) :
      SameUpTo Refusal.Alike (violate t cause : Except Refusal (Option Expression))
        (violate t' cause) := sameUpTo_violate h cause
  have hrefl (x : Except Refusal (Option Expression)) : SameUpTo Refusal.Alike x x :=
    .refl Refusal.Alike.refl x
  unfold operator? at hoperator
  unfold combine
  rw [hkind'] at hoperator ⊢
  generalize t.meaningful = xs at hmeaningful hoperator ⊢
  generalize t'.meaningful = ys at hmeaningful hoperator ⊢
  generalize construct? t.kind = found at hconstruct hoperator ⊢
  cases found with
  | none => exact sameUpTo_refuse h .kind
  | some construct =>
    cases construct with
    | numeral | hexValue | quotedString => simp at hconstruct
    | elements => exact hrefl _
    | alternation | concatenation =>
      cases hmeaningful with
      | nil => exact hviolate _
      | cons => exact hrefl _
    | option =>
      cases hmeaningful with
      | nil => exact hviolate _
      | cons _ htail =>
        cases htail with
        | nil => exact hrefl _
        | cons => exact hviolate _
    | repetition =>
      cases hmeaningful with
      | nil => exact hviolate _
      | cons _ htail =>
        cases htail with
        | nil => exact hrefl _
        | cons _ htail =>
          cases htail with
          | nil =>
            cases Option.some.inj hoperator
            exact hrefl _
          | cons => exact hviolate _
    | element =>
      cases hmeaningful with
      | nil => exact hviolate _
      | cons hc =>
        obtain ⟨hckind, -, hctext, -⟩ := hc.fields
        simp only [hckind, hctext]
        exact hrefl _
    | wrapper =>
      cases hmeaningful with
      | nil =>
        simp only [htext, quotedString]
        split
        · exact hrefl _
        · exact hviolate _
      | cons _ htail =>
        cases htail with
        | nil => exact hrefl _
        | cons => exact hviolate _

theorem sameUpTo_expression? (h : Alike t t') :
    (expression? t).SameUpTo Failure.Alike (expression? t') := by
  induction t using SyntaxTree.induction generalizing t' with
  | h t ih =>
    cases h with
    | refl => exact .refl Failure.Alike.refl _
    | @branch _ children hkind hrow hoperator =>
      have hmeaningful : List.Forall₂ Alike t.meaningful { t with children }.meaningful :=
        hrow.forall₂ fun x y hxy ↦ hxy.isMeaningful_eq
      rw [expression?_eq, expression?_eq, assemble_eq, assemble_eq]
      refine sameUpTo_settle (.bind (sameUpTo_gather (forall₂_operands rfl hmeaningful) ?_) ?_)
      · intro c hc c' halike
        exact ih c (holds_of_mem_meaningful (mem_meaningful_of_mem_operands hc)) halike
      · intro es
        exact ⟨rfl, sameUpTo_combine (.branch hkind hrow hoperator) hkind hmeaningful hoperator es⟩

/-- An expression, its records and its failure do not depend on nodes without meaning. -/
theorem expression?_of_alike (h : Alike t t') :
    (expression? t').trace = (expression? t).trace ∧
      SameUpTo Failure.Alike (expression? t).result (expression? t').result ∧
      (expression? t').result.mapError Failure.message
        = (expression? t).result.mapError Failure.message := by
  obtain ⟨htrace, hresult⟩ := sameUpTo_expression? h
  refine ⟨htrace, hresult, ?_⟩
  generalize (expression? t).result = r at hresult
  generalize (expression? t').result = r' at hresult
  cases hresult with
  | ok e => rfl
  | error hf => exact congrArg Except.error hf.message_eq

end Branches

section Instances

/-- A repetition and a prose value, with the same nodes between the parts of either branch. -/
def looseTree (between : List SyntaxTree) : SyntaxTree :=
  { kind := "concatenation", text := "*a <b>", children :=
    { kind := "repetition", text := "*a", children :=
      .leaf "repeat" "*" :: between ++ [.branch "element" [.leaf "rulename" "a"]] } ::
    between ++ [.branch "element" [.leaf "prose_val" "<b>"]] }

theorem expression?_looseTree :
    (expression? (looseTree [.leaf "c_wsp" " ", .token "(" "("])).trace
      = [.unsupported (.of (.leaf "prose_val" "<b>") .kind)] ∧
    (expression? (looseTree [.leaf "c_wsp" " ", .token "(" "("])).result.mapError Failure.message
      = .ok (some (.repetition (.reference "a") (.atLeast 0))) := by
  have hrow {x x' y : SyntaxTree} (hx : Alike x x') :
      Row Alike [x, y] [x', .leaf "c_wsp" " ", .token "(" "(", y] :=
    .same hx (.putIn rfl (.putIn rfl (.same (.refl y) .nil)))
  have hloose : Alike (looseTree []) (looseTree [.leaf "c_wsp" " ", .token "(" "("]) :=
    .branch (by decide) (hrow (.branch (by decide) (hrow (.refl _)) rfl)) rfl
  obtain ⟨htrace, -, hresult⟩ := expression?_of_alike hloose
  rw [htrace, hresult]
  exact ⟨rfl, rfl⟩

end Instances

end Compilation

end AbnfCompiler
