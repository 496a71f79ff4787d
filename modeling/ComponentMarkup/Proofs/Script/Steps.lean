import ComponentMarkup.Proofs.Script.Environments
import ComponentMarkup.Proofs.Script.Programs

/-!
# Statement by statement

A program runs one statement after the other, and stops at the first one whose expression
fails.  What a statement does to the environment is told by the name that it declares.
-/

namespace ComponentMarkup
namespace Script

theorem bind_eq_error {α β : Type} {x : Except EvalError α} {f : α → Except EvalError β}
    {cause : EvalError} :
    x >>= f = .error cause ↔ x = .error cause ∨ ∃ a, x = .ok a ∧ f a = .error cause := by
  cases x with
  | error other => simp [bind, Except.bind]
  | ok a => simp [bind, Except.bind]

/-- The name that a statement declares. -/
def Statement.declared? : Statement → Option String
  | .declare name _ => some name
  | .expression _ => none

/-- Run one statement behind an expression with a given value: the value of the last
expression and the environment behind the statement. -/
def Statement.step (completion : Value) (env : Environment) :
    Statement → Except EvalError (Value × Environment)
  | .declare name none => .ok (completion, env.declare name .undefined)
  | .declare name (some e) => do
      let value ← evaluate env e
      return (completion, env.declare name value)
  | .expression e => do
      let value ← evaluate env e
      return (value, env)

/-- A program comes to an expression when the statements before that of the expression have
all run. -/
structure ComesTo (completion : Value) (env : Environment) (program before : Program)
    (e : Expr) : Prop where
  split : ∃ found after, program = before ++ found :: after ∧ found.expression? = some e
  runs : ∃ v, (runFrom completion env before).1 = .ok v

variable {env : Environment} {completion : Value}

theorem runFrom_cons_of_ok {found : Statement} {next : Value × Environment}
    (h : found.step completion env = .ok next) (rest : Program) :
    runFrom completion env (found :: rest) = runFrom next.1 next.2 rest := by
  cases found with
  | declare name value =>
      cases value with
      | none =>
          cases h
          rw [runFrom]
      | some e =>
          rcases bind_eq_ok.mp h with ⟨value, hvalue, hresult⟩
          cases hresult
          rw [runFrom, hvalue]
  | expression e =>
      rcases bind_eq_ok.mp h with ⟨value, hvalue, hresult⟩
      cases hresult
      rw [runFrom, hvalue]

theorem runFrom_cons_of_error {found : Statement} {cause : EvalError}
    (h : found.step completion env = .error cause) (rest : Program) :
    runFrom completion env (found :: rest) = (.error cause, env) := by
  cases found with
  | declare name value =>
      cases value with
      | none => cases h
      | some e =>
          rcases bind_eq_error.mp h with hvalue | ⟨value, _, hresult⟩
          · rw [runFrom, hvalue]
          · cases hresult
  | expression e =>
      rcases bind_eq_error.mp h with hvalue | ⟨value, _, hresult⟩
      · rw [runFrom, hvalue]
      · cases hresult

namespace Statement

/-- A statement fails only where its expression does. -/
theorem expression_of_step_eq_error {found : Statement} {cause : EvalError}
    (h : found.step completion env = .error cause) :
    ∃ e, found.expression? = some e ∧ evaluate env e = .error cause := by
  cases found with
  | declare name value =>
      cases value with
      | none => cases h
      | some e =>
          rcases bind_eq_error.mp h with hvalue | ⟨value, _, hresult⟩
          · exact ⟨e, rfl, hvalue⟩
          · cases hresult
  | expression e =>
      rcases bind_eq_error.mp h with hvalue | ⟨value, _, hresult⟩
      · exact ⟨e, rfl, hvalue⟩
      · cases hresult

/-- A name is without a value of its own behind a statement just where it was so before and
is not declared. -/
theorem bound?_step_eq_none {found : Statement} {next : Value × Environment} {name : String}
    (h : found.step completion env = .ok next) :
    next.2.bound? name = none ↔ found.declared? ≠ some name ∧ env.bound? name = none := by
  have hdeclare : ∀ declared value, (env.declare declared value).bound? name = none ↔
      some declared ≠ some name ∧ env.bound? name = none := by
    intro declared value
    rw [Environment.bound?_declare]
    by_cases hname : name = declared
    · simp [hname]
    · simp [hname, Ne.symm hname]
  cases found with
  | declare declared value =>
      cases value with
      | none =>
          cases h
          exact hdeclare declared .undefined
      | some e =>
          rcases bind_eq_ok.mp h with ⟨value, _, hresult⟩
          cases hresult
          exact hdeclare declared value
  | expression e =>
      rcases bind_eq_ok.mp h with ⟨value, _, hresult⟩
      cases hresult
      simp [declared?]

end Statement

/-!
# Runs
-/

/-- Behind statements that have run, a name is without a value of its own just where it was
so before and none of them declares it. -/
theorem bound?_runFrom_eq_none {v : Value} {program : Program} {name : String}
    (h : (runFrom completion env program).1 = .ok v) :
    (runFrom completion env program).2.bound? name = none ↔
      (∀ found ∈ program, found.declared? ≠ some name) ∧ env.bound? name = none := by
  induction program generalizing completion env with
  | nil => simp [runFrom]
  | cons found rest ih =>
      cases hstep : found.step completion env with
      | error cause =>
          rw [runFrom_cons_of_error hstep] at h
          cases h
      | ok next =>
          rw [runFrom_cons_of_ok hstep] at h ⊢
          rw [ih h, Statement.bound?_step_eq_none hstep, List.forall_mem_cons, and_assoc]
          exact and_left_comm

/-- A program that fails has come to an expression that fails, and leaves the environment in
which the expression was evaluated. -/
theorem comesTo_of_runFrom_eq_error {program : Program} {cause : EvalError}
    (h : (runFrom completion env program).1 = .error cause) :
    ∃ before e, ComesTo completion env program before e ∧
      (runFrom completion env before).2 = (runFrom completion env program).2 ∧
        evaluate (runFrom completion env program).2 e = .error cause := by
  induction program generalizing completion env with
  | nil => cases h
  | cons found rest ih =>
      cases hstep : found.step completion env with
      | error other =>
          obtain ⟨e, hexpression, hvalue⟩ := Statement.expression_of_step_eq_error hstep
          rw [runFrom_cons_of_error hstep] at h ⊢
          cases h
          exact ⟨[], e, ⟨⟨found, rest, rfl, hexpression⟩, ⟨completion, rfl⟩⟩, rfl, hvalue⟩
      | ok next =>
          rw [runFrom_cons_of_ok hstep] at h ⊢
          obtain ⟨before, e, ⟨⟨failing, after, hsplit, hexpression⟩, hruns⟩, henv, hvalue⟩ := ih h
          refine ⟨found :: before, e, ⟨⟨failing, after, ?_, hexpression⟩, ?_⟩, ?_, hvalue⟩
          · rw [hsplit, List.cons_append]
          · rw [runFrom_cons_of_ok hstep]
            exact hruns
          · rw [runFrom_cons_of_ok hstep]
            exact henv

end Script
end ComponentMarkup
