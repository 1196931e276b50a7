/-!
Computations that leave a trace. What was reported stays reported when the computation fails.
-/
namespace AbnfCompiler

structure Traced (ω ε α : Type) where
  trace : List ω
  result : Except ε α

namespace Traced

variable {ω ω' ε ε' α β γ : Type}

def bind (x : Traced ω ε α) (f : α → Traced ω ε β) : Traced ω ε β :=
  match x.result with
  | .ok a => ⟨x.trace ++ (f a).trace, (f a).result⟩
  | .error e => ⟨x.trace, .error e⟩

instance : Monad (Traced ω ε) where
  pure a := ⟨[], .ok a⟩
  bind := bind

instance : MonadExceptOf ε (Traced ω ε) where
  throw e := ⟨[], .error e⟩
  tryCatch x f :=
    match x.result with
    | .ok _ => x
    | .error e => ⟨x.trace ++ (f e).trace, (f e).result⟩

def report (w : ω) : Traced ω ε Unit := ⟨[w], .ok ()⟩

def reportWhen (holds : Bool) (w : ω) : Traced ω ε Unit := ⟨if holds then [w] else [], .ok ()⟩

def ofExcept (x : Except ε α) : Traced ω ε α := ⟨[], x⟩

/-- The same computation with other entries and causes of failure. -/
def relabel (entry : ω → ω') (cause : ε → ε') (x : Traced ω ε α) : Traced ω' ε' α :=
  ⟨x.trace.map entry, x.result.mapError cause⟩

@[simp] theorem trace_pure (a : α) : (pure a : Traced ω ε α).trace = [] := rfl

@[simp] theorem result_pure (a : α) : (pure a : Traced ω ε α).result = .ok a := rfl

@[simp] theorem trace_throw (e : ε) : (throw e : Traced ω ε α).trace = [] := rfl

@[simp] theorem result_throw (e : ε) : (throw e : Traced ω ε α).result = .error e := rfl

@[simp] theorem trace_report (w : ω) : (report w : Traced ω ε Unit).trace = [w] := rfl

@[simp] theorem result_report (w : ω) : (report w : Traced ω ε Unit).result = .ok () := rfl

theorem bind_ok {x : Traced ω ε α} {a : α} (h : x.result = .ok a) (f : α → Traced ω ε β) :
    x >>= f = ⟨x.trace ++ (f a).trace, (f a).result⟩ := by
  simp only [Bind.bind, bind, h]

theorem bind_error {x : Traced ω ε α} {e : ε} (h : x.result = .error e) (f : α → Traced ω ε β) :
    x >>= f = ⟨x.trace, .error e⟩ := by
  simp only [Bind.bind, bind, h]

theorem bind_pure (x : Traced ω ε α) : x >>= pure = x := by
  obtain ⟨trace, result⟩ := x
  cases result with
  | ok a => exact congrArg (Traced.mk · _) (List.append_nil trace)
  | error e => rfl

theorem bind_assoc (x : Traced ω ε α) (f : α → Traced ω ε β) (g : β → Traced ω ε γ) :
    x >>= f >>= g = x >>= fun a ↦ f a >>= g := by
  cases hx : x.result with
  | error e =>
    rw [bind_error hx, bind_error hx]
    rfl
  | ok a =>
    rw [bind_ok hx, bind_ok hx]
    cases hf : (f a).result with
    | error e =>
      rw [bind_error hf]
      rfl
    | ok b =>
      rw [bind_ok hf, ← List.append_assoc]
      rfl

instance : LawfulMonad (Traced ω ε) := LawfulMonad.mk' _ bind_pure (fun _ _ ↦ rfl) bind_assoc

theorem map_eq (f : α → β) (x : Traced ω ε α) : f <$> x = ⟨x.trace, f <$> x.result⟩ := by
  rw [map_eq_pure_bind]
  cases h : x.result with
  | ok a =>
    rw [bind_ok h, trace_pure, List.append_nil]
    rfl
  | error e =>
    rw [bind_error h]
    rfl

theorem trace_map (f : α → β) (x : Traced ω ε α) : (f <$> x).trace = x.trace := by
  rw [map_eq]

theorem result_map (f : α → β) (x : Traced ω ε α) : (f <$> x).result = f <$> x.result := by
  rw [map_eq]

end Traced

end AbnfCompiler
