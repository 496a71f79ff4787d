import ComponentMarkup.Dictionary
import ComponentMarkup.Script.Evaluation

/-!
# Environments that agree

A program only asks an environment for the values of the names that it mentions.  So it
has the same value in every environment that gives these names the same values, whether
they are declared or bound, and whatever else there is.
-/

namespace ComponentMarkup
namespace Script

/-!
# Names that are mentioned
-/

mutual

/-- The names in an expression, functions that are called and objects included.  The names
of members are none of them. -/
def Expr.mentioned : Expr → List String
  | .number _ => []
  | .string _ => []
  | .bool _ => []
  | .null => []
  | .undefined => []
  | .identifier name => [name]
  | .unary _ operand => operand.mentioned
  | .binary _ left right => left.mentioned ++ right.mentioned
  | .logical _ left right => left.mentioned ++ right.mentioned
  | .conditional test consequent alternate =>
      test.mentioned ++ (consequent.mentioned ++ alternate.mentioned)
  | .member object _ => object.mentioned
  | .index object i => object.mentioned ++ i.mentioned
  | .call callee arguments => callee.mentioned ++ mentionedInAll arguments

def mentionedInAll : List Expr → List String
  | [] => []
  | e :: rest => e.mentioned ++ mentionedInAll rest

end

/-- The names in a statement, without the one that it declares. -/
def Statement.mentioned : Statement → List String
  | .declare _ none => []
  | .declare _ (some e) => e.mentioned
  | .expression e => e.mentioned

def mentionedInProgram (program : Program) : List String :=
  program.flatMap Statement.mentioned

namespace Environment

variable {env other : Environment}

theorem bound?_declare (env : Environment) (name asked : String) (value : Value) :
    (env.declare name value).bound? asked =
      if asked = name then some value else env.bound? asked := by
  unfold bound? declare
  dsimp only
  rw [Dictionary.lookup_cons_eq_if]
  by_cases h : asked = name
  · rw [if_pos h, if_pos h]
  · rw [if_neg h, if_neg h]

/-!
# Agreement on some names
-/

/-- Whether two environments give some names the same values, constants aside. -/
def AgreesOn (env other : Environment) (names : List String) : Prop :=
  ∀ name ∈ names, env.bound? name = other.bound? name

theorem agreesOn_append {names more : List String} :
    env.AgreesOn other (names ++ more) ↔ env.AgreesOn other names ∧ env.AgreesOn other more :=
  List.forall_mem_append

namespace AgreesOn

theorem declare {names : List String} (h : env.AgreesOn other names) (name : String)
    (value : Value) : (env.declare name value).AgreesOn (other.declare name value) names := by
  intro asked hasked
  rw [bound?_declare, bound?_declare, h asked hasked]

theorem lookup?_eq {name : String} (h : env.AgreesOn other [name]) :
    env.lookup? name = other.lookup? name := by
  unfold lookup?
  rw [h name List.mem_cons_self]

theorem isBound_eq {name : String} (h : env.AgreesOn other [name]) :
    env.isBound name = other.isBound name := by
  unfold isBound
  rw [h name List.mem_cons_self]

theorem namespace?_eq {e : Expr}
    (h : env.AgreesOn other e.mentioned) : namespace? env e = namespace? other e := by
  cases e with
  | identifier name =>
      rw [Expr.mentioned] at h
      unfold namespace?
      dsimp only
      rw [h.isBound_eq]
  | _ => rfl

theorem isUnresolved_eq {e : Expr} (h : env.AgreesOn other e.mentioned) :
    isUnresolved env e = isUnresolved other e := by
  cases e with
  | identifier name =>
      rw [Expr.mentioned] at h
      unfold isUnresolved
      dsimp only
      rw [h.lookup?_eq]
  | _ => rfl

mutual

theorem evaluate_eq : ∀ {e : Expr}, env.AgreesOn other e.mentioned →
    evaluate env e = evaluate other e
  | .number _, _ => by rw [evaluate, evaluate]
  | .string _, _ => by rw [evaluate, evaluate]
  | .bool _, _ => by rw [evaluate, evaluate]
  | .null, _ => by rw [evaluate, evaluate]
  | .undefined, _ => by rw [evaluate, evaluate]
  | .identifier name, h => by
      rw [Expr.mentioned] at h
      rw [evaluate, evaluate, h.lookup?_eq]
  | .unary op operand, h => by
      rw [Expr.mentioned] at h
      rw [evaluate, evaluate, h.isUnresolved_eq, evaluate_eq h]
  | .binary op left right, h => by
      rw [Expr.mentioned, agreesOn_append] at h
      rw [evaluate, evaluate, evaluate_eq h.1, evaluate_eq h.2]
  | .logical .and left right, h => by
      rw [Expr.mentioned, agreesOn_append] at h
      rw [evaluate, evaluate, evaluate_eq h.1, evaluate_eq h.2]
  | .logical .or left right, h => by
      rw [Expr.mentioned, agreesOn_append] at h
      rw [evaluate, evaluate, evaluate_eq h.1, evaluate_eq h.2]
  | .conditional test consequent alternate, h => by
      rw [Expr.mentioned, agreesOn_append, agreesOn_append] at h
      rw [evaluate, evaluate, evaluate_eq h.1, evaluate_eq h.2.1, evaluate_eq h.2.2]
  | .member object property, h => by
      rw [Expr.mentioned] at h
      rw [evaluate, evaluate, h.namespace?_eq, evaluate_eq h]
  | .index object i, h => by
      rw [Expr.mentioned, agreesOn_append] at h
      rw [evaluate, evaluate, evaluate_eq h.1, evaluate_eq h.2]
  | .call callee arguments, h => by
      rw [Expr.mentioned, agreesOn_append] at h
      obtain ⟨hcallee, harguments⟩ := h
      have hvalues := evaluateAll_eq harguments
      -- A function is called by its name, a method on its object.
      cases callee with
      | identifier name =>
          rw [Expr.mentioned] at hcallee
          rw [evaluate, evaluate, hcallee.isBound_eq, hvalues]
      | member object method =>
          rw [Expr.mentioned] at hcallee
          rw [evaluate, evaluate, hcallee.namespace?_eq, evaluate_eq hcallee, hvalues]
      | _ => rw [evaluate.eq_def, evaluate.eq_def]

theorem evaluateAll_eq : ∀ {es : List Expr}, env.AgreesOn other (mentionedInAll es) →
    evaluateAll env es = evaluateAll other es
  | [], _ => by rw [evaluateAll, evaluateAll]
  | e :: rest, h => by
      rw [mentionedInAll, agreesOn_append] at h
      rw [evaluateAll, evaluateAll, evaluate_eq h.1, evaluateAll_eq h.2]

end

/-- A program has the same value in environments that agree on what it mentions. -/
theorem runFrom_eq {program : Program} (h : env.AgreesOn other (mentionedInProgram program))
    (completion : Value) :
    (runFrom completion env program).1 = (runFrom completion other program).1 := by
  induction program generalizing completion env other with
  | nil => rfl
  | cons found rest ih =>
      rw [mentionedInProgram, List.flatMap_cons, agreesOn_append] at h
      obtain ⟨hfound, hrest⟩ := h
      cases found with
      | declare name value =>
          cases value with
          | none =>
              rw [runFrom, runFrom]
              exact ih (hrest.declare name .undefined) completion
          | some e =>
              rw [runFrom, runFrom, evaluate_eq hfound]
              cases evaluate other e with
              | error cause => rfl
              | ok value => exact ih (hrest.declare name value) completion
      | expression e =>
          rw [runFrom, runFrom, evaluate_eq hfound]
          cases evaluate other e with
          | error cause => rfl
          | ok value => exact ih hrest value

end AgreesOn

/-!
# Agreement on all names
-/

/-- Whether two environments give every name the same value, constants aside. -/
def Agrees (env other : Environment) : Prop :=
  ∀ name, env.bound? name = other.bound? name

/-- A program has the same value in environments that agree. -/
theorem Agrees.runFrom_eq (h : env.Agrees other) (completion : Value) (program : Program) :
    (runFrom completion env program).1 = (runFrom completion other program).1 := by
  have hmentioned : env.AgreesOn other (mentionedInProgram program) := fun name _ => h name
  exact hmentioned.runFrom_eq completion

end Environment

/-!
# Scopes that agree
-/

/-- A program has the same value, or fails in the same way, in scopes that bind the names
that it mentions to the same texts. -/
theorem run_of_agreesOn {scope other : Scope} {program : Program}
    (h : ∀ name ∈ mentionedInProgram program, scope.get? name = other.get? name) :
    (run (Environment.ofScope scope) program).1 =
      (run (Environment.ofScope other) program).1 := by
  have hbound : (Environment.ofScope scope).AgreesOn (Environment.ofScope other)
      (mentionedInProgram program) := by
    intro name hname
    exact congrArg (Option.map Value.string) (h name hname)
  exact hbound.runFrom_eq .undefined

/-- Asks for the kind of a name, calls a method and reads a member of a namespace. -/
def askingProgram : Program :=
  [.declare "kind" (some (.unary .typeOf (.identifier "who"))),
    .expression (.binary .add (.identifier "kind")
      (.call (.member (.identifier "n") "concat") [.member (.identifier "Math") "max"]))]

/-- A binding that is hidden and names of members do not count. -/
theorem run_of_agreesOn_askingProgram :
    (∀ name ∈ mentionedInProgram askingProgram,
      (⟨[("n", "1"), ("max", "x"), ("n", "2")]⟩ : Scope).get? name =
        (⟨[("n", "2"), ("other", "y")]⟩ : Scope).get? name) ∧
    (run (Environment.ofScope ⟨[("n", "1"), ("max", "x"), ("n", "2")]⟩) askingProgram).1 =
      .ok (.string "undefined2undefined") := by
  have hagree : ∀ name ∈ mentionedInProgram askingProgram,
      (⟨[("n", "1"), ("max", "x"), ("n", "2")]⟩ : Scope).get? name =
        (⟨[("n", "2"), ("other", "y")]⟩ : Scope).get? name := by
    decide +kernel
  have hrun : (run (Environment.ofScope ⟨[("n", "2"), ("other", "y")]⟩) askingProgram).1 =
      .ok (.string "undefined2undefined") :=
    rfl
  exact ⟨hagree, (run_of_agreesOn hagree).trans hrun⟩

end Script
end ComponentMarkup
