import ComponentMarkup.Proofs.Script.Environments
import ComponentMarkup.Proofs.Script.Steps

/-!
# Names that are not defined

A program that fails because a name is not defined mentions the name at the place where it
fails, and neither a statement before nor the scope gives the name a value.  A constant has
a value all the same, but a call does not ask for it: the constants are reported as not
defined where they are called.
-/

namespace ComponentMarkup
namespace Script

/-!
# Names that are called
-/

/-- The name that an expression is, if it is a name. -/
def Expr.name? : Expr → Option String
  | .identifier name => some name
  | _ => none

mutual

/-- The names that are called as functions in an expression. -/
def Expr.called : Expr → List String
  | .number _ => []
  | .string _ => []
  | .bool _ => []
  | .null => []
  | .undefined => []
  | .identifier _ => []
  | .unary _ operand => operand.called
  | .binary _ left right => left.called ++ right.called
  | .logical _ left right => left.called ++ right.called
  | .conditional test consequent alternate =>
      test.called ++ (consequent.called ++ alternate.called)
  | .member object _ => object.called
  | .index object i => object.called ++ i.called
  | .call callee arguments => callee.name?.toList ++ (callee.called ++ calledInAll arguments)

def calledInAll : List Expr → List String
  | [] => []
  | e :: rest => e.called ++ calledInAll rest

end

/-!
# Operations that need no name
-/

section Operations

variable {name : String}

theorem readMember_ne_reference (target : Value) (property : String) :
    readMember target property ≠ .error (.reference name) := by
  intro h
  unfold readMember at h
  split at h <;> cases h

theorem readIndex_ne_reference (target i : Value) :
    readIndex target i ≠ .error (.reference name) := by
  intro h
  unfold readIndex at h
  split at h <;> cases h

theorem callNamespace_ne_reference (space method : String) (values : List Value) :
    callNamespace space method values ≠ .error (.reference name) := by
  intro h
  unfold callNamespace at h
  dsimp only at h
  split at h <;> cases h

theorem call_ne_reference (s method : String) (values : List Value) :
    Method.call s method values ≠ .error (.reference name) := by
  intro h
  unfold Method.call at h
  dsimp only at h
  repeat' split at h
  all_goals cases h

theorem callMethod_ne_reference (target : Value) (method : String) (values : List Value) :
    callMethod target method values ≠ .error (.reference name) := by
  intro h
  unfold callMethod at h
  split at h
  · exact call_ne_reference _ method values h
  all_goals cases h

/-- A function is not defined only under the name by which it is called. -/
theorem eq_of_callFunction_eq_reference {f : String} {values : List Value}
    (h : callFunction f values = .error (.reference name)) : f = name := by
  unfold callFunction at h
  dsimp only at h
  split at h <;> cases h
  rfl

end Operations

/-!
# Expressions
-/

namespace Environment

variable {env : Environment} {name : String}

/-- Whether a name that is mentioned has no value of its own, and is no constant unless it
is called. -/
structure Misses (env : Environment) (name : String) (mentioned called : List String) :
    Prop where
  isMentioned : name ∈ mentioned
  unbound : env.bound? name = none
  noConstant : constant? name = none ∨ name ∈ called

theorem Misses.append_left {mentioned called : List String}
    (h : env.Misses name mentioned called) (moreMentioned moreCalled : List String) :
    env.Misses name (mentioned ++ moreMentioned) (called ++ moreCalled) where
  isMentioned := List.mem_append_left moreMentioned h.isMentioned
  unbound := h.unbound
  noConstant := h.noConstant.imp_right (List.mem_append_left moreCalled)

theorem Misses.append_right {mentioned called : List String}
    (h : env.Misses name mentioned called) (otherMentioned otherCalled : List String) :
    env.Misses name (otherMentioned ++ mentioned) (otherCalled ++ called) where
  isMentioned := List.mem_append_right otherMentioned h.isMentioned
  unbound := h.unbound
  noConstant := h.noConstant.imp_right (List.mem_append_right otherCalled)

/-- What a call mentions and calls is in the callee or in an argument, but for the name that
is called. -/
theorem Misses.call {callee : Expr} {arguments : List Expr}
    (h : env.Misses name (callee.mentioned ++ mentionedInAll arguments)
      (callee.called ++ calledInAll arguments)) :
    env.Misses name (Expr.call callee arguments).mentioned
      (Expr.call callee arguments).called := by
  rw [Expr.mentioned, Expr.called]
  exact ⟨h.isMentioned, h.unbound, h.noConstant.imp_right (List.mem_append_right _)⟩

theorem lookup?_eq_none :
    env.lookup? name = none ↔ env.bound? name = none ∧ constant? name = none := by
  unfold lookup?
  cases env.bound? name with
  | none => simp
  | some value => simp

theorem bound?_of_not_isBound (h : ¬ env.isBound name = true) : env.bound? name = none := by
  unfold isBound at h
  simpa using h

mutual

theorem misses_of_evaluate : ∀ {e : Expr}, evaluate env e = .error (.reference name) →
    env.Misses name e.mentioned e.called
  | .number _, h => by
      rw [evaluate] at h
      cases h
  | .string _, h => by
      rw [evaluate] at h
      cases h
  | .bool _, h => by
      rw [evaluate] at h
      cases h
  | .null, h => by
      rw [evaluate] at h
      cases h
  | .undefined, h => by
      rw [evaluate] at h
      cases h
  | .identifier asked, h => by
      rw [evaluate] at h
      split at h
      · cases h
      · rename_i hlookup
        cases h
        obtain ⟨hunbound, hconstant⟩ := lookup?_eq_none.mp hlookup
        rw [Expr.mentioned]
        exact ⟨List.mem_cons_self, hunbound, .inl hconstant⟩
  | .unary op operand, h => by
      rw [evaluate] at h
      rw [Expr.mentioned, Expr.called]
      split at h
      · cases h
      · rcases bind_eq_error.mp h with hoperand | ⟨a, _, hresult⟩
        · exact misses_of_evaluate hoperand
        · cases hresult
  | .binary op left right, h => by
      rw [evaluate] at h
      rw [Expr.mentioned, Expr.called]
      rcases bind_eq_error.mp h with hleft | ⟨a, _, hrest⟩
      · exact (misses_of_evaluate hleft).append_left _ _
      · rcases bind_eq_error.mp hrest with hright | ⟨b, _, hresult⟩
        · exact (misses_of_evaluate hright).append_right _ _
        · cases hresult
  | .logical .and left right, h => by
      rw [evaluate] at h
      rw [Expr.mentioned, Expr.called]
      rcases bind_eq_error.mp h with hleft | ⟨a, _, hrest⟩
      · exact (misses_of_evaluate hleft).append_left _ _
      · split at hrest
        · exact (misses_of_evaluate hrest).append_right _ _
        · cases hrest
  | .logical .or left right, h => by
      rw [evaluate] at h
      rw [Expr.mentioned, Expr.called]
      rcases bind_eq_error.mp h with hleft | ⟨a, _, hrest⟩
      · exact (misses_of_evaluate hleft).append_left _ _
      · split at hrest
        · cases hrest
        · exact (misses_of_evaluate hrest).append_right _ _
  | .conditional test consequent alternate, h => by
      rw [evaluate] at h
      rw [Expr.mentioned, Expr.called]
      rcases bind_eq_error.mp h with htest | ⟨condition, _, hbranch⟩
      · exact (misses_of_evaluate htest).append_left _ _
      · apply Misses.append_right
        split at hbranch
        · exact (misses_of_evaluate hbranch).append_left _ _
        · exact (misses_of_evaluate hbranch).append_right _ _
  | .member object property, h => by
      rw [evaluate] at h
      rw [Expr.mentioned, Expr.called]
      split at h
      · cases h
      · rcases bind_eq_error.mp h with hobject | ⟨target, _, hread⟩
        · exact misses_of_evaluate hobject
        · exact absurd hread (readMember_ne_reference target property)
  | .index object i, h => by
      rw [evaluate] at h
      rw [Expr.mentioned, Expr.called]
      rcases bind_eq_error.mp h with hobject | ⟨target, _, hrest⟩
      · exact (misses_of_evaluate hobject).append_left _ _
      · rcases bind_eq_error.mp hrest with hindex | ⟨place, _, hread⟩
        · exact (misses_of_evaluate hindex).append_right _ _
        · exact absurd hread (readIndex_ne_reference target place)
  | .call callee arguments, h => by
      -- Only a call of a name can find the name itself missing.
      cases callee with
      | identifier f =>
          rw [evaluate] at h
          split at h
          · cases h
          · rename_i hbound
            rcases bind_eq_error.mp h with harguments | ⟨values, _, hcall⟩
            · exact ((misses_of_evaluateAll harguments).append_right _ _).call
            · obtain rfl := eq_of_callFunction_eq_reference hcall
              rw [Expr.mentioned, Expr.mentioned, Expr.called]
              exact ⟨List.mem_cons_self, bound?_of_not_isBound hbound, .inr List.mem_cons_self⟩
      | member object method =>
          apply Misses.call
          rw [evaluate] at h
          rw [Expr.mentioned, Expr.called]
          split at h
          · rcases bind_eq_error.mp h with harguments | ⟨values, _, hcall⟩
            · exact (misses_of_evaluateAll harguments).append_right _ _
            · exact absurd hcall (callNamespace_ne_reference _ method values)
          · rcases bind_eq_error.mp h with hobject | ⟨target, _, hrest⟩
            · exact (misses_of_evaluate hobject).append_left _ _
            · rcases bind_eq_error.mp hrest with harguments | ⟨values, _, hcall⟩
              · exact (misses_of_evaluateAll harguments).append_right _ _
              · exact absurd hcall (callMethod_ne_reference target method values)
      | _ =>
          rw [evaluate.eq_def] at h
          cases h

theorem misses_of_evaluateAll : ∀ {es : List Expr},
    evaluateAll env es = .error (.reference name) →
      env.Misses name (mentionedInAll es) (calledInAll es)
  | [], h => by
      rw [evaluateAll] at h
      cases h
  | e :: rest, h => by
      rw [evaluateAll] at h
      rw [mentionedInAll, calledInAll]
      rcases bind_eq_error.mp h with hfirst | ⟨a, _, hrest⟩
      · exact (misses_of_evaluate hfirst).append_left _ _
      · rcases bind_eq_error.mp hrest with hothers | ⟨b, _, hresult⟩
        · exact (misses_of_evaluateAll hothers).append_right _ _
        · cases hresult

end

theorem bound?_ofScope_eq_none {scope : Scope} :
    (ofScope scope).bound? name = none ↔ scope.get? name = none :=
  Option.map_eq_none_iff

end Environment

/-!
# Programs
-/

/-- Calls a constant. -/
def constantCall (name : String) : Program :=
  [.expression (.call (.identifier name) [])]

/-- A constant that is called is reported as not defined. -/
theorem run_constantCall {name : String} (h : (Environment.constant? name).isSome = true) :
    (run (Environment.ofScope Scope.empty) (constantCall name)).1 = .error (.reference name) := by
  unfold Environment.constant? at h
  split at h
  · rfl
  · rfl
  · cases h

/-- A program that fails because a name is not defined has come to an expression that
mentions the name.  No statement before it declares the name, the scope does not bind it,
and it is no constant unless the expression calls it.  So the name has no value where the
program fails, unless it is a constant. -/
theorem unbound_of_run_eq_reference {scope : Scope} {program : Program} {name : String}
    (h : (run (Environment.ofScope scope) program).1 = .error (.reference name)) :
    (∃ before e, ComesTo .undefined (Environment.ofScope scope) program before e ∧
      (run (Environment.ofScope scope) before).2 = (run (Environment.ofScope scope) program).2 ∧
      evaluate (run (Environment.ofScope scope) program).2 e = .error (.reference name) ∧
      name ∈ e.mentioned ∧ (∀ found ∈ before, found.declared? ≠ some name) ∧
      scope.get? name = none ∧ (Environment.constant? name = none ∨ name ∈ e.called)) ∧
      ((run (Environment.ofScope scope) program).2.lookup? name = none ↔
        Environment.constant? name = none) := by
  obtain ⟨before, e, hcomes, henv, hvalue⟩ := comesTo_of_runFrom_eq_error h
  obtain ⟨hmentioned, hunbound, hconstant⟩ := Environment.misses_of_evaluate hvalue
  have hlookup : (run (Environment.ofScope scope) program).2.lookup? name = none ↔
      Environment.constant? name = none := by
    rw [Environment.lookup?_eq_none]
    exact and_iff_right hunbound
  obtain ⟨v, hruns⟩ := hcomes.runs
  rw [← henv] at hunbound
  obtain ⟨hdeclared, hscope⟩ := (bound?_runFrom_eq_none hruns).mp hunbound
  exact ⟨⟨before, e, hcomes, henv, hvalue, hmentioned, hdeclared,
    Environment.bound?_ofScope_eq_none.mp hscope, hconstant⟩, hlookup⟩

/-- Calls a function that is not defined, behind a declaration and beside a name of the scope. -/
def sampleCall : Program :=
  [.declare "greeting" (some (.string "Hello ")),
    .expression (.binary .add (.identifier "greeting")
      (.call (.identifier "shout") [.identifier "who"])),
    .declare "shout" none]

theorem unbound_of_run_eq_reference_sampleCall :
    (run (Environment.ofScope ⟨[("who", "world")]⟩) sampleCall).1 =
        .error (.reference "shout") ∧
      (run (Environment.ofScope ⟨[("who", "world")]⟩) sampleCall).2.lookup? "shout" = none ∧
      ∃ before e,
        ComesTo .undefined (Environment.ofScope ⟨[("who", "world")]⟩) sampleCall before e ∧
        "shout" ∈ e.mentioned ∧ ∀ found ∈ before, found.declared? ≠ some "shout" := by
  have hrun : (run (Environment.ofScope ⟨[("who", "world")]⟩) sampleCall).1 =
      .error (.reference "shout") :=
    rfl
  obtain ⟨⟨before, e, hcomes, _, _, hmentioned, hdeclared, _⟩, hlookup⟩ :=
    unbound_of_run_eq_reference hrun
  exact ⟨hrun, hlookup.mpr rfl, before, e, hcomes, hmentioned, hdeclared⟩

/-- A call of a constant fails as if the constant had no value. -/
theorem run_constantCall_notANumber :
    (run (Environment.ofScope Scope.empty) (constantCall "NaN")).1 = .error (.reference "NaN") ∧
      (run (Environment.ofScope Scope.empty) (constantCall "NaN")).2.lookup? "NaN" =
        some (.number Binary.notANumber) :=
  ⟨run_constantCall rfl, rfl⟩

end Script
end ComponentMarkup
