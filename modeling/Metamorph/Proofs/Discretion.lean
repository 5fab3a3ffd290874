import Metamorph.Proofs.Approximation
import Metamorph.Proofs.Correspondence

/-! Evaluation that is cut off where it would find out about target objects. It does what evaluation does
until it is about to read a feature of an object that the engine made, by name or to show the object as
text, or to ask a type for its instances. -/
namespace Metamorph

namespace Run
variable {σ α : Type}

/-- What a run answers in a state, whatever it does to it. -/
def answer? (run : Run σ α) (s : σ) : Option α :=
  match run s with
  | .value a _ => some a
  | _ => none

/-- Goes no further if the state has the property. -/
def barring (p : σ → Bool) : Run σ Unit := fun s => if p s then .exhausted else .value () s

theorem barring_below (p : σ → Bool) (run : Run σ α) : Below (barring p >>= fun _ => run) run := by
  intro s certain
  cases stops : p s with
  | true => exact absurd (bind_eq_exhausted.2 (.inl (by simp [barring, stops]))) certain
  | false => rw [bind_of_value (show barring p s = .value () s by simp [barring, stops])]

end Run

def Value.isType : Value → Bool
  | .type _ => true
  | _ => false

namespace Engine
open Run

def owns (s : Engine) (h : Handle) : Bool := (s.ownerOf? (.object h)).isSome

/-- The text of a value in which no object of the engine occurs. -/
def citeGiven (s : Engine) (v : Value) : Result String :=
  if v.mentions s.owns then .error (.broken "not to be shown") else s.store.cite v

/-- Whether a navigation reads a feature of an object of the engine, instead of asking a helper. -/
def navigationPeeks (setting : Setting) (v : Value) (feature : String) (s : Engine) : Bool :=
  (s.ownerOf? v).isSome &&
    match answer? (contextHelper? setting v feature (some true)) s with
    | some (some _) => (answer? (hasFeature setting v feature) s).getD true
    | _ => true

/-- Whether a native operation answers because it can show an object of the engine. -/
def nativePeeks (setting : Setting) (name : String) (args : List Value) (s : Engine) : Bool :=
  match setting.navigator, setting.helpers.natives.get? name with
  | .full, some native =>
    (native.run s.store.cite args).isOk && !(native.run s.citeGiven args).isOk
  | _, _ => false

/-- Whether the operation shows values as text. -/
def Universal.shows : Universal → Bool
  | .toString | .debug => true
  | _ => false

/-- Whether a call that no helper answers shows an object of the engine or asks a type for its
instances. -/
def unhelpedPeeks (setting : Setting) (v : Value) (name : String) (args : List Value) (s : Engine) :
    Bool :=
  match Universal.named? name with
  | some op => op.shows && (v :: args).any (·.mentions s.owns)
  | none =>
    match ownOperation? setting v name args with
    | some _ => v.isType
    | none => nativePeeks setting name (v :: args) s

def callPeeks (setting : Setting) (v : Value) (name : String) (args : List Value) (s : Engine) :
    Bool :=
  match answer? (contextHelper? setting v name none) s with
  | some (some _) => false
  | _ => unhelpedPeeks setting v name args s

/-- Whether a call on the module shows an object of the engine. -/
def moduleCallPeeks (self : Evaluator) (setting : Setting) (name : String) (args : List Value)
    (s : Engine) : Bool :=
  (setting.helpers.module.get? name).isNone &&
    (setting.transformation.bind fun t => ruleCall? self setting t name args).isNone &&
      nativePeeks setting name args s

def watchedModuleCall (self : Evaluator) (setting : Setting) (env : Environment) (name : String)
    (args : List Expr) : Run Engine Value := do
  let args ← evaluateAll self env args
  barring (moduleCallPeeks self setting name args)
  callModule self setting name args

def watchedMethod (self : Evaluator) (setting : Setting) (env : Environment) (v : Value)
    (name : String) (args : List Expr) : Run Engine Value := do
  match v, CollectionOperation.named? name with
  | .thisModule _, _ => watchedModuleCall self setting env name args
  | .collection kind items, some op => collectionMethod self setting env op kind items args
  | v, _ =>
    let args ← evaluateAll self env args
    barring (callPeeks setting v name args)
    callOn self setting v name args

def watchedStep (setting : Setting) (self : Evaluator) (env : Environment) (e : Expr) :
    Run Engine Value :=
  match e with
  | .navigation source feature _ => do
    let v ← self env source
    barring (navigationPeeks setting v feature)
    navigation self setting v feature
  | .method receiver name args _ => do
    watchedMethod self setting env (← self env receiver) name args
  | .call name args _ => watchedModuleCall self setting env name args
  | e => step setting self env e

/-- Evaluation no deeper than the bound that is cut off where it would find out about target objects.
-/
def watchedWithin (setting : Setting) : Nat → Evaluator
  | 0 => fun _ _ => Run.cutOff
  | bound + 1 => fun env e =>
    Run.mapFault (Fault.locate e.span) (watchedStep setting (watchedWithin setting bound) env e)

section
variable {setting : Setting} {self other : Evaluator}

theorem watchedModuleCall_below (env : Environment) (name : String) (args : List Expr) :
    Below (watchedModuleCall self setting env name args)
      (evaluateAll self env args >>= callModule self setting name) :=
  .after fun _ => barring_below _ _

theorem method_on {env : Environment} {v : Value} {name : String} {args : List Expr}
    (other : ∀ title, v = .thisModule title → False)
    (single : ∀ kind items op, v = .collection kind items →
      CollectionOperation.named? name = some op → False) :
    Engine.method self setting env v name args =
      evaluateAll self env args >>= callOn self setting v name := by
  unfold Engine.method
  split
  · exact (other _ rfl).elim
  · exact (single _ _ _ rfl ‹_›).elim
  · rfl

theorem watchedStep_below (env : Environment) (e : Expr) :
    Below (watchedStep setting self env e) (step setting self env e) := by
  cases e with
  | navigation source feature loc => exact .after fun v => barring_below _ _
  | method receiver name args loc =>
    refine .after fun v => ?_
    unfold watchedMethod
    split
    · exact watchedModuleCall_below env name args
    · rename_i named
      simp only [Engine.method, named]
      exact .refl _
    · rename_i other elements
      rw [method_on other elements]
      exact .after fun _ => barring_below _ _
  | call name args loc => exact watchedModuleCall_below env name args
  | _ =>
    simp only [watchedStep]
    exact .refl _

/-- Whether a call on the module peeks does not depend on who evaluates. -/
theorem moduleCallPeeks_congr (self other : Evaluator) (name : String) (args : List Value) :
    moduleCallPeeks self setting name args = moduleCallPeeks other setting name args := by
  unfold moduleCallPeeks
  cases setting.transformation with
  | none => simp only [Option.bind_none]
  | some t =>
    have same : (ruleCall? self setting t name args).isNone =
        (ruleCall? other setting t name args).isNone := by
      unfold ruleCall?
      cases t.module.lazyRule? name with
      | some rule => simp only [Option.isNone_some]
      | none =>
        cases t.module.calledRule? name with
        | some rule => simp only [Option.isNone_some]
        | none => dsimp only
    simp only [Option.bind_some, same]

theorem watchedStep_mono (below : Approximates self other) (env : Environment) (e : Expr) :
    Below (watchedStep setting self env e) (watchedStep setting other env e) := by
  have called (name : String) (args : List Expr) : Below (watchedModuleCall self setting env name args)
      (watchedModuleCall other setting env name args) := by
    refine .bind (below.heeds.evaluateAll env args).below fun args => ?_
    rw [moduleCallPeeks_congr self other]
    exact .after fun _ => (below.heeds.callModule _ _).below
  cases e with
  | navigation source feature loc =>
    exact .bind (below env source) fun v => .after fun _ => (below.heeds.navigation _ _).below
  | method receiver name args loc =>
    refine .bind (below env receiver) fun v => ?_
    unfold watchedMethod
    split
    · exact called name args
    · exact (below.heeds.collectionMethod _ _ _ _ _).below
    · exact .bind (below.heeds.evaluateAll _ _).below fun _ =>
        .after fun _ => (below.heeds.callOn _ _ _).below
  | call name args loc => exact called name args
  | _ =>
    simp only [watchedStep]
    exact (below.heeds.step env _).below

end

theorem watchedWithin_mono (setting : Setting) {depth deeper : Nat} (further : depth ≤ deeper) :
    Approximates (watchedWithin setting depth) (watchedWithin setting deeper) := by
  induction depth generalizing deeper with
  | zero => exact fun _ _ => .cutOff _
  | succ depth ih =>
    intro env e
    obtain ⟨deeper, rfl⟩ : ∃ k, deeper = k + 1 := ⟨deeper - 1, by omega⟩
    exact .mapFault _ (watchedStep_mono (ih (by omega)) env e)

/-- Watched evaluation does what evaluation does, as far as it goes. -/
theorem watchedWithin_approximates (setting : Setting) (depth : Nat) :
    Approximates (watchedWithin setting depth) (evaluateWithin setting depth) := by
  induction depth with
  | zero => exact fun _ _ => .cutOff _
  | succ depth ih =>
    intro env e
    exact .mapFault _ (.trans (watchedStep_below env e) (ih.heeds.step env e).below)

end Engine

end Metamorph
