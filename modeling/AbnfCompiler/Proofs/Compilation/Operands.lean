import Mathlib.Data.List.Forall2
import AbnfCompiler.Compilation.Construct
import AbnfCompiler.Proofs.SyntaxTree.Descent

/-!
One equation for all constructs. The expression of a node is combined from those of its operands,
which are some of its meaningful children and are compiled in a row.
-/
namespace AbnfCompiler.Compilation

variable {t : SyntaxTree} {es : List Expression}

theorem expression?_eq (t : SyntaxTree) :
    expression? t = settle (assemble t (parts t.children)) := by
  cases t
  rfl

theorem mem_of_construct? {kind : String} {c : Construct} (h : construct? kind = some c) :
    (kind, c) ∈ constructs := by
  obtain ⟨before, after, hsplit, -⟩ := List.lookup_eq_some_iff.1 h
  rw [hsplit]
  simp

/-- A node with its expression. -/
def part (t : SyntaxTree) : Part Event := (t, (expression? t).relabel id .failure)

theorem parts_eq_map (ts : List SyntaxTree) :
    parts ts = (ts.filter SyntaxTree.isMeaningful).map part := by
  induction ts with
  | nil => rfl
  | cons t ts ih =>
    unfold parts
    by_cases h : t.isMeaningful
    · rw [if_pos h, List.filter_cons_of_pos h, List.map_cons, ih]
      rfl
    · rw [if_neg h, List.filter_cons_of_neg h, ih]

/-- The nodes whose expressions the expression of a node is made of. -/
def operands (t : SyntaxTree) : List SyntaxTree :=
  match construct? t.kind with
  | some .elements | some .alternation | some .concatenation => t.meaningful
  | some .repetition =>
    match t.meaningful with
    | [c] | [_, c] => [c]
    | _ => []
  | some .option | some .wrapper =>
    match t.meaningful with
    | [c] => [c]
    | _ => []
  | some .element =>
    match t.meaningful with
    | [] => []
    | c :: _ => if referenceKinds.contains c.kind then [] else [c]
  | some .numeral | some .hexValue | some .quotedString | none => []

theorem mem_meaningful_of_mem_operands {c : SyntaxTree} (h : c ∈ operands t) :
    c ∈ t.meaningful := by
  revert h
  unfold operands
  split
  · exact id
  · exact id
  · exact id
  · split
    · next hmeaningful => simp [hmeaningful]
    · next hmeaningful => simp_all
    · nofun
  · split
    · next hmeaningful => simp [hmeaningful]
    · nofun
  · split
    · next hmeaningful => simp [hmeaningful]
    · nofun
  · split
    · nofun
    · split
      · nofun
      · simp_all
  all_goals nofun

/-- The expression of a node, given those of its operands. -/
def combine (t : SyntaxTree) (es : List Expression) : Except Refusal (Option Expression) :=
  match construct? t.kind with
  | none => refuse t .kind
  | some .elements => .ok (Expression.sequenceOf es)
  | some .alternation =>
    if t.meaningful = [] then violate t .noChildren else .ok (Expression.choiceOf es)
  | some .concatenation =>
    if t.meaningful = [] then violate t .noChildren else .ok (Expression.sequenceOf es)
  | some .repetition =>
    match t.meaningful with
    | [_] => .ok es.head?
    | [operator, _] =>
      match es.head? with
      | none => .ok none
      | some e => some <$> counted operator e
    | _ => violate t .repetition
  | some .option =>
    match t.meaningful with
    | [_] => .ok (es.head?.map .optional)
    | _ => violate t .option
  | some .element =>
    match t.meaningful with
    | [] => violate t .noChildren
    | c :: _ =>
      if referenceKinds.contains c.kind then
        .ok (some (.reference (RuleName.normal c.text)))
      else .ok es.head?
  | some .numeral => some <$> numeral t
  | some .hexValue => some <$> hexValue t
  | some .quotedString => .ok (some (quotedString t))
  | some .wrapper =>
    match t.meaningful with
    | [_] => .ok es.head?
    | cs =>
      if cs = [] ∧ t.text.toList.head? = some '"' then .ok (some (quotedString t))
      else violate t .wrapper

theorem ofExcept_map {α β : Type} (f : α → β) (x : Except Refusal α) :
    f <$> (Traced.ofExcept x : Drafting Event α) = .ofExcept (f <$> x) := by
  cases x <;> rfl

theorem gather_single (p : Part Event) (f : List Expression → Drafting Event (Option Expression)) :
    gather [p] >>= f = p.2 >>= fun e ↦ f e.toList := by
  have hgather : gather [p] = p.2 >>= fun e ↦ pure e.toList := by
    simp only [gather, pure_bind, List.append_nil]
  rw [hgather, bind_assoc]
  rfl

theorem gather_head (p : Part Event) :
    (gather [p] >>= fun es ↦ .ofExcept (.ok es.head?)) = p.2 := by
  rw [gather_single]
  refine Eq.trans ?_ (bind_pure p.2)
  apply bind_congr
  rintro (_ | e) <;> rfl

theorem assemble_eq (t : SyntaxTree) : assemble t (parts t.children)
    = gather ((operands t).map part) >>= fun es ↦ .ofExcept (combine t es) := by
  have hparts : parts t.children = t.meaningful.map part := parts_eq_map t.children
  rw [hparts]
  unfold assemble operands combine
  cases construct? t.kind with
  | none => rfl
  | some construct =>
    cases construct with
    | elements | quotedString => rfl
    | alternation | concatenation => cases t.meaningful <;> rfl
    | numeral | hexValue => exact ofExcept_map some _
    | option =>
      match t.meaningful with
      | [] | _ :: _ :: _ => rfl
      | [c] =>
        refine Eq.trans ?_ (gather_single (part c) _).symm
        apply bind_congr
        rintro (_ | e) <;> rfl
    | element =>
      match t.meaningful with
      | [] => rfl
      | c :: cs =>
        simp only [List.map_cons, element, part]
        split
        · rfl
        · exact (gather_head (part c)).symm
    | repetition =>
      match t.meaningful with
      | [] | _ :: _ :: _ :: _ => rfl
      | [c] => exact (gather_head (part c)).symm
      | [operator, c] =>
        refine Eq.trans ?_ (gather_single (part c) _).symm
        apply bind_congr
        rintro (_ | e)
        · rfl
        · exact ofExcept_map some _
    | wrapper =>
      match t.meaningful with
      | [c] => exact (gather_head (part c)).symm
      | [] =>
        by_cases hquote : t.text.toList.head? = some '"'
        · simp only [List.map_nil, wrapper, List.isEmpty_nil, hquote, and_self, ↓reduceIte]
          rfl
        · simp only [List.map_nil, wrapper, List.isEmpty_nil, hquote, and_false, ↓reduceIte]
          rfl
      | _ :: _ :: _ => rfl

section Gather

variable {ts : List SyntaxTree}

/-- Nodes that are compiled one after the other, each without failing. -/
def AllCompile (ts : List SyntaxTree) : Prop := ∀ t ∈ ts, ∃ e, (expression? t).result = .ok e

theorem trace_part (t : SyntaxTree) : (part t).2.trace = (expression? t).trace := List.map_id _

theorem part_eq_ok {e : Option Expression} (h : (expression? t).result = .ok e) :
    (part t).2.result = .ok e := by
  change (expression? t).result.mapError Refusal.failure = _
  rw [h]
  rfl

theorem part_eq_error {f : Failure} (h : (expression? t).result = .error f) :
    (part t).2.result = .error (.failure f) := by
  change (expression? t).result.mapError Refusal.failure = _
  rw [h]
  rfl

theorem gather_cons (t : SyntaxTree) (ts : List SyntaxTree) :
    gather ((t :: ts).map part) = (part t).2 >>= fun e ↦
      gather (ts.map part) >>= fun es ↦ pure (e.toList ++ es) :=
  rfl

/-- Either all nodes are compiled, or those up to the first one that fails. -/
theorem gather_cases (ts : List SyntaxTree) :
    (∃ found, List.Forall₂ (fun t e ↦ (expression? t).result = .ok e) ts found ∧
      gather (ts.map part)
        = ⟨ts.flatMap fun t ↦ (expression? t).trace, .ok (found.flatMap Option.toList)⟩) ∨
    ∃ before t after f, ts = before ++ t :: after ∧ AllCompile before ∧
      (expression? t).result = .error f ∧
      gather (ts.map part)
        = ⟨(before ++ [t]).flatMap fun t ↦ (expression? t).trace, .error (.failure f)⟩ := by
  induction ts with
  | nil => exact Or.inl ⟨[], .nil, rfl⟩
  | cons t ts ih =>
    rw [gather_cons]
    cases ht : (expression? t).result with
    | error f =>
      refine Or.inr ⟨[], t, ts, f, rfl, nofun, ht, ?_⟩
      rw [Traced.bind_error (part_eq_error ht), trace_part, List.nil_append,
        List.flatMap_singleton]
    | ok e =>
      rw [Traced.bind_ok (part_eq_ok ht), trace_part]
      rcases ih with ⟨found, hfound, hgather⟩ | ⟨before, c, after, f, rfl, hbefore, hc, hgather⟩
      · refine Or.inl ⟨e :: found, .cons ht hfound, ?_⟩
        rw [hgather, Traced.bind_ok rfl, Traced.trace_pure, List.append_nil, List.flatMap_cons,
          List.flatMap_cons]
        rfl
      · refine Or.inr ⟨t :: before, c, after, f, rfl, ?_, hc, ?_⟩
        · exact List.forall_mem_cons.2 ⟨⟨e, ht⟩, hbefore⟩
        · rw [hgather, Traced.bind_error rfl, List.cons_append, List.flatMap_cons]

theorem gather_eq_error {r : Refusal} : (gather (ts.map part)).result = .error r ↔
    ∃ before t after f, ts = before ++ t :: after ∧ AllCompile before ∧
      (expression? t).result = .error f ∧ r = .failure f := by
  constructor
  · intro h
    rcases gather_cases ts with ⟨found, -, hgather⟩ | ⟨before, t, after, f, hts, hall, ht, hgather⟩
    · rw [hgather] at h
      cases h
    · rw [hgather] at h
      cases h
      exact ⟨before, t, after, f, hts, hall, ht, rfl⟩
  · rintro ⟨before, t, after, f, rfl, hall, ht, rfl⟩
    induction before with
    | nil => exact congrArg Traced.result (Traced.bind_error (part_eq_error ht) _)
    | cons b before ih =>
      obtain ⟨⟨e, hb⟩, hall⟩ := List.forall_mem_cons.1 hall
      rw [List.cons_append, gather_cons, Traced.bind_ok (part_eq_ok hb),
        Traced.bind_error (ih hall)]

end Gather

section Settle

variable {f : Failure}

theorem settle_eq_error {x : Drafting Event (Option Expression)} :
    (settle x).result = .error f ↔ x.result = .error (.failure f) := by
  unfold settle
  split
  · next e he => rw [he]; exact iff_of_false nofun nofun
  · next u hu => rw [hu]; exact iff_of_false nofun nofun
  · next f' hf' => rw [hf']; exact ⟨fun h ↦ by cases h; rfl, fun h ↦ by cases h; rfl⟩

/-- What becomes of a node: it has an expression or none, it is refused, or it fails. -/
theorem expression?_cases (t : SyntaxTree) :
    (∃ found e, List.Forall₂ (fun c e ↦ (expression? c).result = .ok e) (operands t) found ∧
      combine t (found.flatMap Option.toList) = .ok e ∧
      expression? t = ⟨(operands t).flatMap fun c ↦ (expression? c).trace, .ok e⟩) ∨
    (∃ es u, combine t es = .error (.unsupported u) ∧
      expression? t
        = ⟨((operands t).flatMap fun c ↦ (expression? c).trace) ++ [.unsupported u], .ok none⟩) ∨
    ∃ done f, done <+: operands t ∧
      expression? t = ⟨done.flatMap fun c ↦ (expression? c).trace, .error f⟩ := by
  rw [expression?_eq, assemble_eq]
  rcases gather_cases (operands t) with
    ⟨found, hfound, hgather⟩ | ⟨before, c, after, f, hsplit, -, -, hgather⟩
  · rw [hgather, Traced.bind_ok rfl]
    simp only [Traced.ofExcept, List.append_nil]
    match hcombine : combine t (found.flatMap Option.toList) with
    | .ok e => exact Or.inl ⟨found, e, hfound, hcombine, rfl⟩
    | .error (.unsupported u) => exact Or.inr (Or.inl ⟨_, u, hcombine, rfl⟩)
    | .error (.failure f) => exact Or.inr (Or.inr ⟨operands t, f, List.prefix_rfl, rfl⟩)
  · rw [hgather, Traced.bind_error rfl, hsplit]
    exact Or.inr (Or.inr ⟨before ++ [c], f, ⟨after, by simp⟩, rfl⟩)

/-- A node fails if one of its operands does, or else by itself. -/
theorem expression?_eq_error : (expression? t).result = .error f ↔
    (∃ before c after, operands t = before ++ c :: after ∧ AllCompile before ∧
      (expression? c).result = .error f) ∨
    ∃ es, (gather ((operands t).map part)).result = .ok es ∧
      combine t es = .error (.failure f) := by
  rw [expression?_eq, settle_eq_error, assemble_eq]
  cases hgather : (gather ((operands t).map part)).result with
  | error r =>
    rw [Traced.bind_error hgather]
    obtain ⟨before, c, after, f', hts, hall, hc, rfl⟩ := gather_eq_error.1 hgather
    constructor
    · intro h
      cases h
      exact Or.inl ⟨before, c, after, hts, hall, hc⟩
    · rintro (⟨before, c, after, hts, hall, hc⟩ | ⟨es, hes, -⟩)
      · rw [gather_eq_error.2 ⟨before, c, after, f, hts, hall, hc, rfl⟩] at hgather
        cases hgather
        rfl
      · cases hes
  | ok es =>
    rw [Traced.bind_ok hgather]
    constructor
    · exact fun h ↦ Or.inr ⟨es, rfl, h⟩
    · rintro (⟨before, c, after, hts, hall, hc⟩ | ⟨es', hes, h⟩)
      · rw [gather_eq_error.2 ⟨before, c, after, f, hts, hall, hc, rfl⟩] at hgather
        cases hgather
      · cases hes
        exact h

end Settle

end AbnfCompiler.Compilation
