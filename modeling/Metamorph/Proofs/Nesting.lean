import Metamorph.Proofs.Bearing

/-! Rules that apply rules, however they go on, come to an end. The limit of their nesting and the size
of expressions leave an evaluation only so many levels, and none that is given as many is cut off. -/
namespace Metamorph

/-- The expressions of the bindings of outputs. -/
def boundExpressions (outputs : List OutPattern) : List Expr :=
  outputs.flatMap fun out => out.bindings.map (·.value)

theorem binds_boundExpressions {outputs : List OutPattern} {es : List Expr}
    (listed : boundExpressions outputs ⊆ es) : ∀ out ∈ outputs, out.Binds (· ∈ es) := by
  intro out declared binding member
  have own : binding.value ∈ out.bindings.map (·.value) := List.mem_map_of_mem member
  exact listed (List.mem_flatMap.2 ⟨out, declared, own⟩)

/-- All that rules evaluate once they are applied. -/
def Module.expressions (m : Module) : List Expr :=
  m.matched.flatMap (fun rule => boundExpressions rule.outputs) ++
    m.lazy.flatMap (fun rule => boundExpressions rule.outputs) ++
    m.called.flatMap fun rule => boundExpressions rule.outputs ++ rule.body.map (·.expression)

namespace Module
variable {m : Module}

theorem matched_binds {rule : MatchedRule} (declared : rule ∈ m.matched) :
    ∀ out ∈ rule.outputs, out.Binds (· ∈ m.expressions) := by
  refine binds_boundExpressions fun e own => ?_
  simp only [expressions, List.mem_append, List.mem_flatMap]
  exact .inl (.inl ⟨rule, declared, own⟩)

theorem lazy_binds {rule : LazyRule} {name : String} (known : m.lazyRule? name = some rule) :
    ∀ out ∈ rule.outputs, out.Binds (· ∈ m.expressions) := by
  refine binds_boundExpressions fun e own => ?_
  simp only [expressions, List.mem_append, List.mem_flatMap]
  exact .inl (.inr ⟨rule, List.mem_of_find?_eq_some known, own⟩)

theorem called_binds {rule : CalledRule} {name : String} (known : m.calledRule? name = some rule) :
    ∀ out ∈ rule.outputs, out.Binds (· ∈ m.expressions) := by
  refine binds_boundExpressions fun e own => ?_
  simp only [expressions, List.mem_append, List.mem_flatMap]
  exact .inr ⟨rule, List.mem_of_find?_eq_some known, .inl own⟩

theorem called_body {rule : CalledRule} {name : String} (known : m.calledRule? name = some rule) :
    ∀ statement ∈ rule.body, statement.expression ∈ m.expressions := by
  intro statement member
  simp only [expressions, List.mem_append, List.mem_flatMap]
  exact .inr ⟨rule, List.mem_of_find?_eq_some known, .inr (List.mem_map_of_mem member)⟩

end Module

namespace Engine
open Run
variable {setting : Setting} {t : Transformation} {m : Module} {self : Evaluator} {d : Nat}
  {on : Expr → Prop}

/-- Runs that come back to their depth, and are not cut off at it. -/
def atDepth (d : Nat) : Conduct Engine where
  ends s u := s.depth = d → u.depth = d
  fails _ _ := True
  cut s := s.depth ≠ d
  refl _ here := here
  trans first rest here := rest (first here)
  stop _ := trivial
  after _ _ := trivial
  before kept cut here := cut (kept here)

theorem atDepth_level {s u : Engine} (level : Level s u) : (atDepth d).ends s u :=
  level.depth.trans

theorem atDepth_bears : Bears (atDepth d) on :=
  .of_level atDepth_level (fun _ _ => trivial) fun _ here => here

theorem atDepth_encloses (setting : Setting) (d : Nat) :
    Encloses setting (atDepth d) (atDepth (d + 1)) := by
  refine Encloses.of_level atDepth_level (fun _ _ => trivial) ?_
  intro α s r run _ level kept
  have deeper (here : s.depth = d) : r.depth = d + 1 := by
    rw [level.depth]
    exact congrArg (· + 1) here
  unfold Run.ensuring
  cases ended : run r with
  | value a u =>
    rw [ended] at kept
    intro here
    have back : u.depth = d + 1 := kept (deeper here)
    change u.depth - 1 = d
    omega
  | failure fault u => exact trivial
  | exhausted =>
    rw [ended] at kept
    exact fun here => kept (deeper here)

/-- At the limit no rule is entered any more. -/
theorem atDepth_encloses_limit {inner : Conduct Engine}
    (deep : setting.settings.depthLimit ≤ d) : Encloses setting (atDepth d) inner := by
  refine Encloses.of_level atDepth_level (fun _ _ => trivial) ?_
  intro α s r run shallow _ _
  have elsewhere : s.depth ≠ d := by
    rintro rfl
    exact shallow deep
  cases Run.ensuring leave run r with
  | value a u => exact fun here => absurd here elsewhere
  | failure fault u => exact trivial
  | exhausted => exact elsewhere

/-- What is asked of the level below. -/
structure Below (setting : Setting) (m : Module) (d : Nat) (evaluator : Evaluator)
    (inner : Conduct Engine) : Prop where
  bears : Bears inner (· ∈ m.expressions)
  encloses : Encloses setting (atDepth d) inner
  expression : ∀ env {e}, e ∈ m.expressions → Keeps inner (evaluator env e)

theorem Below.serves {inner : Conduct Engine}
    (below : Below setting t.module d self inner) (given : setting.transformation = some t)
    (helperless : ∀ helper, ¬ HasHelper setting helper)
    (expression : ∀ env {e}, on e → Keeps (atDepth d) (self env e)) :
    ServesOn on (atDepth d) setting self where
  quiet quiet here := quiet.level.depth.trans here
  expression := expression
  helper known := absurd known (helperless _)
  lazy known v := by
    obtain ⟨other, known⟩ := known
    obtain rfl := Option.some.inj (given.symm.trans other)
    have bears : Bears (atDepth d) on := atDepth_bears
    exact bears.invokeLazy below.bears below.encloses below.expression (Module.lazy_binds known) v
  called known args := by
    obtain ⟨other, known⟩ := known
    obtain rfl := Option.some.inj (given.symm.trans other)
    have bears : Bears (atDepth d) on := atDepth_bears
    exact bears.invokeCalled below.bears below.encloses below.expression (Module.called_binds known)
      (Module.called_body known) args

/-- What rules nested so many times take, where no expression is larger. -/
def levels (largest nesting : Nat) : Nat := nesting * (largest + 1)

theorem levels_succ (largest nesting : Nat) :
    levels largest (nesting + 1) = levels largest nesting + largest + 1 := by
  simp [levels, Nat.succ_mul]
  omega

/-- An evaluator that ends wherever there is room serves the rules of the level below, or there are
none. -/
theorem exists_below {nesting bound : Nat} (limit : setting.settings.depthLimit ≤ d + nesting)
    (room : levels (sizeOf m.expressions) nesting ≤ bound)
    (ends : ∀ {nesting d : Nat}, setting.settings.depthLimit ≤ d + nesting → ∀ env {e},
      sizeOf e + levels (sizeOf m.expressions) nesting ≤ bound → Keeps (atDepth d) (self env e)) :
    ∃ inner, Below setting m d self inner := by
  cases nesting with
  | zero =>
    refine ⟨.ofEnds (fun _ _ => True) (fun _ => trivial) fun _ _ => trivial, ?_, ?_, ?_⟩
    · exact .of_level (fun _ => trivial) (fun _ _ => trivial) fun _ => trivial
    · exact atDepth_encloses_limit (by simpa using limit)
    · exact fun _ _ _ => .ofEnds (fun _ _ => trivial) (fun _ => trivial) fun _ => trivial
  | succ nesting =>
    refine ⟨atDepth (d + 1), atDepth_bears, atDepth_encloses setting d, fun env e member => ?_⟩
    have inside := List.sizeOf_lt_of_mem member
    have deeper : setting.settings.depthLimit ≤ (d + 1 : Nat) + (nesting : Int) := by
      push_cast at limit ⊢
      omega
    rw [levels_succ] at room
    exact ends deeper env (by omega)

/-- An evaluation ends if it may go as deep as its expression, and once more as deep as any expression
of a rule for each level left until the limit. -/
theorem evaluateWithin_ends (given : setting.transformation = some t)
    (helperless : ∀ helper, ¬ HasHelper setting helper) {nesting d bound : Nat}
    (limit : setting.settings.depthLimit ≤ d + nesting) (env : Environment) {e : Expr}
    (enough : sizeOf e + levels (sizeOf t.module.expressions) nesting ≤ bound) :
    Keeps (atDepth d) (evaluateWithin setting bound env e) := by
  -- Parts are smaller. The expressions of rules are not, but the level below leaves them room.
  induction bound generalizing nesting d env e with
  | zero => cases e <;> simp at enough
  | succ bound ih =>
    have positive : 0 < sizeOf e := Nat.pos_of_ne_zero (by cases e <;> simp)
    have room : levels (sizeOf t.module.expressions) nesting ≤ bound := by omega
    obtain ⟨inner, below⟩ := exists_below limit room ih
    have serves : ServesOn
        (fun part => sizeOf part + levels (sizeOf t.module.expressions) nesting ≤ bound)
        (atDepth d) setting (evaluateWithin setting bound) :=
      below.serves given helperless fun env part small => ih limit env small
    exact .mapFault _ (serves.step env fun part smaller => by omega)

end Engine

end Metamorph
