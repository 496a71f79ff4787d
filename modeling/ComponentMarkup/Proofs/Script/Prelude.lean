import ComponentMarkup.Proofs.Script.Bindings
import ComponentMarkup.Proofs.Script.Declarations

/-!
# Bindings that are written out

Code behind the written bindings of a scope has the value that it has in the scope whose
texts are those read back.  So the written bindings mean the same as the scope exactly
where no text in view has a backspace or a form feed.
-/

namespace ComponentMarkup

/-- The bindings with the texts that are read back. -/
def Scope.reread (scope : Scope) : Scope :=
  ⟨scope.bindings.map fun binding => (binding.1, Script.reread binding.2)⟩

namespace Script

theorem rereadChar_eq_self_iff {c : Char} : rereadChar c = c ↔ c ≠ '\x08' ∧ c ≠ '\x0c' := by
  constructor
  · intro h
    constructor
    · intro hc
      rw [hc] at h
      exact absurd h (by decide)
    · intro hc
      rw [hc] at h
      exact absurd h (by decide)
  · intro h
    exact rereadChar_of_ne h.1 h.2

/-- A text is read back as it is unless it has a backspace or a form feed. -/
theorem reread_eq_self_iff {s : String} :
    reread s = s ↔ '\x08' ∉ s.toList ∧ '\x0c' ∉ s.toList := by
  have hall : reread s = s ↔ ∀ c ∈ s.toList, rereadChar c = id c := by
    rw [← List.map_inj_left, List.map_id, ← String.toList_inj, reread, String.toList_ofList]
  rw [hall]
  constructor
  · intro h
    constructor
    · intro hmem
      exact (rereadChar_eq_self_iff.mp (h _ hmem)).1 rfl
    · intro hmem
      exact (rereadChar_eq_self_iff.mp (h _ hmem)).2 rfl
  · intro h c hmem
    apply rereadChar_eq_self_iff.mpr
    constructor
    · intro hc
      exact h.1 (hc ▸ hmem)
    · intro hc
      exact h.2 (hc ▸ hmem)

/-! ## Declared bindings -/

theorem get?_reread (scope : Scope) (name : String) :
    scope.reread.get? name = (scope.get? name).map reread := by
  unfold Scope.get? Scope.reread
  dsimp only
  rw [← List.map_reverse]
  induction scope.bindings.reverse with
  | nil => rfl
  | cons binding bindings ih =>
      rw [List.map_cons, List.lookup_cons, List.lookup_cons, ih]
      cases name == binding.1 <;> rfl

theorem mem_of_get? {scope : Scope} {name value : String} (h : scope.get? name = some value) :
    (name, value) ∈ scope.bindings := by
  rw [← List.mem_reverse]
  exact Dictionary.mem_of_lookup h

/-- The declarations that are read of the written bindings. -/
theorem map_declared (scope : Scope) :
    scope.bindings.map declared = scope.reread.declarations := by
  rw [Scope.declarations, Scope.reread, List.map_map]
  rfl

/-! ## Code behind the bindings -/

theorem evaluateCode_eq_ok {limit : Nat} {code : String} {scope : Scope} {v : Value} :
    evaluateCode limit code scope = .ok v ↔
      ∃ program, parse limit code = .ok program ∧
        (run (Environment.ofScope scope) program).1 = .ok v :=
  bind_eq_ok

variable {scope : Scope}

theorem evaluateCode_behind_prelude (h : ∀ binding ∈ scope.bindings, IsName binding.1)
    {limit : Nat} (hlimit : 4 ≤ limit) (code : String) (v : Value) :
    evaluateCode limit (scope.prelude ++ code) Scope.empty = .ok v ↔
      evaluateCode limit code scope.reread = .ok v := by
  have hrun : ∀ program,
      (run (Environment.ofScope Scope.empty) (scope.bindings.map declared ++ program)).1 =
        (run (Environment.ofScope scope.reread) program).1 := by
    intro program
    rw [map_declared, run, run, Environment.runFrom_declarations]
    exact (Environment.agrees_declareAll scope.reread).runFrom_eq .undefined program
  rw [evaluateCode_eq_ok, evaluateCode_eq_ok]
  constructor
  · intro h
    rcases h with ⟨program, hparse, hvalue⟩
    rcases (parse_prelude h hlimit).mp hparse with ⟨rest, hrest, rfl⟩
    rw [hrun] at hvalue
    exact ⟨rest, hrest, hvalue⟩
  · intro h
    rcases h with ⟨rest, hrest, hvalue⟩
    rw [← hrun] at hvalue
    exact ⟨_, (parse_prelude h hlimit).mpr ⟨rest, hrest, rfl⟩, hvalue⟩

/-- A name is code, and its value is the text bound to it. -/
theorem evaluateCode_name {limit : Nat} (hlimit : 0 < limit) {name value : String}
    (hname : IsName name) (hvalue : scope.get? name = some value) :
    evaluateCode limit name scope = .ok (.string value) := by
  have hparse : parse limit name = .ok [.expression (.identifier name)] :=
    parse_of_derivesProgram hname (.last (.expression (derives_of_denotes (.identifier name))))
      hlimit
  have hlookup : (Environment.ofScope scope).lookup? name = some (.string value) := by
    unfold Environment.lookup? Environment.bound? Environment.ofScope
    dsimp only [List.lookup_nil]
    rw [hvalue]
    rfl
  have hrun : (run (Environment.ofScope scope) [.expression (.identifier name)]).1 =
      .ok (.string value) := by
    rw [run, runFrom, evaluate, hlookup]
    rfl
  exact evaluateCode_eq_ok.mpr ⟨_, hparse, hrun⟩

/-- The written bindings of a scope mean what the scope read back means.  So code that has a
value in a scope has the same value behind the written bindings, whatever the code, exactly
when no text in view has a backspace or a form feed. -/
theorem evaluateCode_prelude (h : ∀ binding ∈ scope.bindings, IsName binding.1) :
    (∀ code v, evaluateCode defaultDepthLimit (scope.prelude ++ code) Scope.empty = .ok v ↔
      evaluateCode defaultDepthLimit code scope.reread = .ok v) ∧
    ((∀ code v, evaluateCode defaultDepthLimit code scope = .ok v →
        evaluateCode defaultDepthLimit (scope.prelude ++ code) Scope.empty = .ok v) ↔
      ∀ name value, scope.get? name = some value →
        '\x08' ∉ value.toList ∧ '\x0c' ∉ value.toList) := by
  have hlimit : 4 ≤ defaultDepthLimit := by
    decide
  have hbehind := evaluateCode_behind_prelude h hlimit
  apply And.intro hbehind
  constructor
  · intro hsame name value hvalue
    have hname : IsName name := h _ (mem_of_get? hvalue)
    have hread := (hbehind name _).mp (hsame name _ (evaluateCode_name (by decide) hname hvalue))
    have hreread : scope.reread.get? name = some (reread value) := by
      rw [get?_reread, hvalue]
      rfl
    rw [evaluateCode_name (by decide) hname hreread] at hread
    exact reread_eq_self_iff.mp (Value.string.inj (Except.ok.inj hread))
  · intro hkept code v hvalue
    rw [hbehind]
    have hagrees : (Environment.ofScope scope.reread).Agrees (Environment.ofScope scope) := by
      intro name
      change (scope.reread.get? name).map Value.string = (scope.get? name).map Value.string
      rw [get?_reread]
      cases hfound : scope.get? name with
      | none => rfl
      | some value =>
          rw [Option.map_some, reread_eq_self_iff.mpr (hkept name value hfound)]
    rcases evaluateCode_eq_ok.mp hvalue with ⟨program, hparse, hrun⟩
    apply evaluateCode_eq_ok.mpr
    rw [run, ← hagrees.runFrom_eq] at hrun
    exact ⟨program, hparse, hrun⟩

/-- A text with most that is escaped. -/
def sampleScope : Scope :=
  ⟨[("who", "say \"hi\"\n\x1b\\"), ("n", "2")]⟩

theorem evaluateCode_prelude_sampleScope :
    (∀ binding ∈ sampleScope.bindings, IsName binding.1) ∧
      ∀ code v, evaluateCode defaultDepthLimit code sampleScope = .ok v →
        evaluateCode defaultDepthLimit (sampleScope.prelude ++ code) Scope.empty = .ok v := by
  have hwho : IsName "who" := by
    cbv
  have hn : IsName "n" := by
    cbv
  have hnames : ∀ binding ∈ sampleScope.bindings, IsName binding.1 := by
    simp [sampleScope, hwho, hn]
  have hkept : ∀ name value, sampleScope.get? name = some value →
      '\x08' ∉ value.toList ∧ '\x0c' ∉ value.toList := by
    intro name value hvalue
    have hmem := mem_of_get? hvalue
    simp only [sampleScope, List.mem_cons, Prod.mk.injEq, List.not_mem_nil, or_false] at hmem
    rcases hmem with ⟨_, rfl⟩ | ⟨_, rfl⟩
    · decide
    · decide
  exact ⟨hnames, (evaluateCode_prelude hnames).2.mpr hkept⟩

def backspaceScope : Scope :=
  ⟨[("x", "\x08")]⟩

/-- A backspace in a text comes back as a letter. -/
theorem evaluateCode_backspaceScope :
    IsName "x" ∧ evaluateCode defaultDepthLimit "x" backspaceScope = .ok (.string "\x08") ∧
      evaluateCode defaultDepthLimit (backspaceScope.prelude ++ "x") Scope.empty =
        .ok (.string "b") := by
  have hname : IsName "x" := by
    cbv
  have hvalue : evaluateCode defaultDepthLimit "x" backspaceScope = .ok (.string "\x08") := by
    cbv
  have hread : evaluateCode defaultDepthLimit (backspaceScope.prelude ++ "x") Scope.empty =
      .ok (.string "b") := by
    cbv
  exact ⟨hname, hvalue, hread⟩

end Script
end ComponentMarkup
