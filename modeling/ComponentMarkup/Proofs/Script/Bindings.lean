import ComponentMarkup.Proofs.Script.Environments

/-!
# Bindings as declarations

A scope means the same as declarations of its bindings, one behind the other: the last
declaration of a name counts, as its last binding does.
-/

namespace ComponentMarkup

/-- The declarations of the bindings of a scope, each with its text as the value. -/
def Scope.declarations (scope : Scope) : Script.Program :=
  scope.bindings.map fun binding => .declare binding.1 (some (.string binding.2))

namespace Script

/-- The first binding is the last that is looked at. -/
theorem get?_cons (binding : String × String) (bindings : List (String × String))
    (name : String) :
    (⟨binding :: bindings⟩ : Scope).get? name =
      ((⟨bindings⟩ : Scope).get? name).or
        (if name = binding.1 then some binding.2 else none) := by
  unfold Scope.get?
  rw [List.reverse_cons, List.lookup_append, Dictionary.lookup_cons_eq_if]
  rfl

namespace Environment

variable {env other : Environment}

/-!
# Environments behind a program
-/

theorem Agrees.declare (h : env.Agrees other) (name : String) (value : Value) :
    (env.declare name value).Agrees (other.declare name value) := by
  intro asked
  rw [bound?_declare, bound?_declare, h asked]

/-- Environments that agree still agree behind a program, also where it fails. -/
theorem Agrees.runFrom_agrees (h : env.Agrees other) (completion : Value) (program : Program) :
    (runFrom completion env program).2.Agrees (runFrom completion other program).2 := by
  induction program generalizing completion env other with
  | nil => exact h
  | cons found rest ih =>
      have hvalue : ∀ e, evaluate env e = evaluate other e :=
        fun _ => AgreesOn.evaluate_eq fun name _ => h name
      cases found with
      | declare name value =>
          cases value with
          | none =>
              rw [runFrom, runFrom]
              exact ih (h.declare name .undefined) completion
          | some e =>
              rw [runFrom, runFrom, hvalue]
              cases evaluate other e with
              | error cause => exact h
              | ok value => exact ih (h.declare name value) completion
      | expression e =>
          rw [runFrom, runFrom, hvalue]
          cases evaluate other e with
          | error cause => exact h
          | ok value => exact ih h value

/-!
# Behind the declarations
-/

/-- The environment behind the declarations of some bindings. -/
def declareAll (env : Environment) (bindings : List (String × String)) : Environment :=
  bindings.foldl (fun env binding => env.declare binding.1 (.string binding.2)) env

theorem runFrom_declarations (completion : Value) (env : Environment) (scope : Scope)
    (program : Program) :
    runFrom completion env (scope.declarations ++ program) =
      runFrom completion (env.declareAll scope.bindings) program := by
  rcases scope with ⟨bindings⟩
  induction bindings generalizing env with
  | nil => rfl
  | cons binding bindings ih =>
      rw [Scope.declarations, List.map_cons, List.cons_append, runFrom, evaluate]
      exact ih (env.declare binding.1 (.string binding.2))

theorem bound?_declareAll (env : Environment) (bindings : List (String × String))
    (name : String) :
    (env.declareAll bindings).bound? name =
      (((⟨bindings⟩ : Scope).get? name).map .string).or (env.bound? name) := by
  induction bindings generalizing env with
  | nil => rfl
  | cons binding bindings ih =>
      have hrest := ih (env.declare binding.1 (.string binding.2))
      rw [bound?_declare] at hrest
      apply hrest.trans
      rw [get?_cons]
      cases (⟨bindings⟩ : Scope).get? name with
      | some value => rfl
      | none =>
          by_cases h : name = binding.1
          · rw [if_pos h, if_pos h]
            rfl
          · rw [if_neg h, if_neg h]
            rfl

/-- The declared bindings give the names the values that the scope gives them. -/
theorem agrees_declareAll (scope : Scope) :
    ((ofScope Scope.empty).declareAll scope.bindings).Agrees (ofScope scope) := by
  intro name
  rw [bound?_declareAll]
  exact Option.or_none

end Environment

/-- A program behind the declarations of some bindings has the value, or fails with the
error, that it has in the scope of these bindings, and leaves every name the same value. -/
theorem run_declarations (scope : Scope) (program : Program) :
    (run (Environment.ofScope Scope.empty) (scope.declarations ++ program)).1 =
        (run (Environment.ofScope scope) program).1 ∧
      (run (Environment.ofScope Scope.empty) (scope.declarations ++ program)).2.Agrees
        (run (Environment.ofScope scope) program).2 := by
  have hagrees := Environment.agrees_declareAll scope
  rw [run, run, Environment.runFrom_declarations]
  constructor
  · exact hagrees.runFrom_eq .undefined program
  · exact hagrees.runFrom_agrees .undefined program

end Script
end ComponentMarkup
