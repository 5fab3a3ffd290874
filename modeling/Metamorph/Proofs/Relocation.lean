import Metamorph.Engine.Evaluation
import Metamorph.Proofs.Run
import Metamorph.Proofs.Scope

/-! Programs with other places. The places of expressions can be changed throughout: in helpers and rules,
and where a state keeps parts of the program. What is found by name is found as before, with its places
changed. -/
namespace Metamorph
variable (place : Location → Location)

mutual

/-- The expression with the place of every node changed. -/
def Expr.moved : Expr → Expr
  | .literal value loc => .literal value (place loc)
  | .variable name loc => .variable name (place loc)
  | .navigation source feature loc => .navigation source.moved feature (place loc)
  | .binary op lhs rhs loc => .binary op lhs.moved rhs.moved (place loc)
  | .unary op operand loc => .unary op operand.moved (place loc)
  | .conditional condition thenBranch elseBranch loc =>
    .conditional condition.moved thenBranch.moved elseBranch.moved (place loc)
  | .letIn name init body tag loc => .letIn name init.moved body.moved tag (place loc)
  | .lambda parameter body loc => .lambda parameter body.moved (place loc)
  | .iterate source parameter accumulator init body tag loc =>
    .iterate source.moved parameter accumulator init.moved body.moved tag (place loc)
  | .collection kind elements loc => .collection kind (movedAll elements) (place loc)
  | .arrow source op iterator body loc => .arrow source.moved op iterator (movedBody body) (place loc)
  | .method receiver name args loc => .method receiver.moved name (movedAll args) (place loc)
  | .call name args loc => .call name (movedAll args) (place loc)
  | .tuple fields loc => .tuple (movedFields fields) (place loc)
  | .typeName name loc => .typeName name (place loc)
  | .foreign kind loc => .foreign kind (place loc)

def movedAll : List Expr → List Expr
  | [] => []
  | e :: rest => e.moved :: movedAll rest

def movedBody : Option Expr → Option Expr
  | none => none
  | some body => some body.moved

def movedFields : List (TupleField Expr) → List (TupleField Expr)
  | [] => []
  | ⟨name, value, tag⟩ :: rest => ⟨name, value.moved, tag⟩ :: movedFields rest

end

theorem length_movedAll (es : List Expr) : (movedAll place es).length = es.length := by
  induction es with
  | nil => rfl
  | cons e rest ih => exact congrArg (· + 1) ih

/-! Rules and helpers. -/

def Binding.moved (binding : Binding) : Binding := { binding with value := binding.value.moved place }

def OutPattern.moved (out : OutPattern) : OutPattern :=
  { out with bindings := out.bindings.map (·.moved place) }

def Statement.moved : Statement → Statement
  | .assign target feature value => .assign target feature (value.moved place)
  | .evaluate value => .evaluate (value.moved place)

theorem names_moved (outputs : List OutPattern) :
    (outputs.map (·.moved place)).map (·.name) = outputs.map (·.name) := by
  rw [List.map_map]
  rfl

def MatchedRule.moved (rule : MatchedRule) : MatchedRule where
  name := rule.name
  source := { rule.source with guard := rule.source.guard.map (·.moved place) }
  outputs := rule.outputs.map (·.moved place)
  loc := rule.loc
  productive := by simpa using rule.productive
  distinct := by simpa only [names_moved] using rule.distinct
  apart := by simpa only [names_moved] using rule.apart

def LazyRule.moved (rule : LazyRule) : LazyRule where
  name := rule.name
  parameter := rule.parameter
  outputs := rule.outputs.map (·.moved place)
  loc := rule.loc
  productive := by simpa using rule.productive
  distinct := by simpa only [names_moved] using rule.distinct

def CalledRule.moved (rule : CalledRule) : CalledRule where
  name := rule.name
  parameters := rule.parameters
  outputs := rule.outputs.map (·.moved place)
  body := rule.body.map (·.moved place)
  loc := rule.loc
  distinct := by simpa only [names_moved] using rule.distinct

def Helper.moved (helper : Helper) : Helper := { helper with body := helper.body.moved place }

def Module.moved (m : Module) : Module :=
  { m with
    matched := m.matched.map (·.moved place)
    lazy := m.lazy.map (·.moved place)
    called := m.called.map (·.moved place)
    helpers := m.helpers.map (·.moved place) }

def Transformation.moved (t : Transformation) : Transformation := { t with module := t.module.moved place }

def HelperTable.moved (table : HelperTable) : HelperTable :=
  { table with
    module := table.module.map fun entry => (entry.1, entry.2.moved place)
    contextual := table.contextual.map fun entry => (entry.1, entry.2.map (·.moved place)) }

def Setting.moved (setting : Setting) : Setting :=
  { setting with
    helpers := setting.helpers.moved place
    transformation := setting.transformation.map (·.moved place) }

/-! What a state keeps of the program. -/

def Application.moved (a : Application) : Application := { a with rule := a.rule.moved place }

def Schedule.moved (schedule : Schedule) : Schedule :=
  { schedule with applications := schedule.applications.map (·.moved place) }

def DeferredBinding.moved (job : DeferredBinding) : DeferredBinding :=
  { job with binding := job.binding.moved place }

def Assignment.moved (work : Assignment) : Assignment := { work with value := work.value.moved place }

mutual

def Event.moved : Event → Event
  | .assignment occasion work stored inner =>
    .assignment occasion (work.moved place) stored (movedEvents inner)
  | .application rule patterns body outputs inner =>
    .application rule (patterns.map (·.moved place)) (body.map (·.moved place)) outputs (movedEvents inner)
  | .lazy rule argument complete result inner => .lazy rule argument complete result (movedEvents inner)
  | .called rule arguments result inner => .called rule arguments result (movedEvents inner)
  | .replayed rule arguments result => .replayed rule arguments result
  | .unowned target feature => .unowned target feature

def movedEvents : List Event → List Event
  | [] => []
  | event :: rest => event.moved :: movedEvents rest

end

def Engine.moved (s : Engine) : Engine :=
  { s with
    schedule := s.schedule.map (·.moved place)
    deferred := s.deferred.map (·.moved place)
    history := movedEvents place s.history }

theorem movedEvents_append (events more : List Event) :
    movedEvents place (events ++ more) = movedEvents place events ++ movedEvents place more := by
  induction events with
  | nil => rfl
  | cons event rest ih => exact congrArg (event.moved place :: ·) ih

/-! Places that stay. -/

mutual

theorem Expr.moved_id : ∀ e : Expr, e.moved id = e
  | .literal .. | .variable .. | .typeName .. | .foreign .. => rfl
  | .navigation source .. | .unary _ source _ | .lambda _ source _ => by
    simp only [Expr.moved, Expr.moved_id source, id_eq]
  | .binary _ lhs rhs _ | .letIn _ lhs rhs .. => by
    simp only [Expr.moved, Expr.moved_id lhs, Expr.moved_id rhs, id_eq]
  | .conditional condition thenBranch elseBranch _ => by
    simp only [Expr.moved, condition.moved_id, thenBranch.moved_id, elseBranch.moved_id, id_eq]
  | .iterate source _ _ init body .. => by
    simp only [Expr.moved, source.moved_id, init.moved_id, body.moved_id, id_eq]
  | .collection _ elements _ => by simp only [Expr.moved, movedAll_id elements, id_eq]
  | .arrow source _ _ body _ => by simp only [Expr.moved, source.moved_id, movedBody_id body, id_eq]
  | .method receiver _ args _ => by simp only [Expr.moved, receiver.moved_id, movedAll_id args, id_eq]
  | .call _ args _ => by simp only [Expr.moved, movedAll_id args, id_eq]
  | .tuple fields _ => by simp only [Expr.moved, movedFields_id fields, id_eq]

theorem movedAll_id : ∀ es : List Expr, movedAll id es = es
  | [] => rfl
  | e :: rest => by rw [movedAll, e.moved_id, movedAll_id rest]

theorem movedBody_id : ∀ body : Option Expr, movedBody id body = body
  | none => rfl
  | some body => by rw [movedBody, body.moved_id]

theorem movedFields_id : ∀ fields : List (TupleField Expr), movedFields id fields = fields
  | [] => rfl
  | ⟨name, value, tag⟩ :: rest => by rw [movedFields, value.moved_id, movedFields_id rest]

end

theorem Binding.moved_id (binding : Binding) : binding.moved id = binding := by
  simp only [Binding.moved, Expr.moved_id]

theorem OutPattern.moved_id (out : OutPattern) : out.moved id = out := by
  simp only [OutPattern.moved, Binding.moved_id, List.map_id']

theorem Statement.moved_id (statement : Statement) : statement.moved id = statement := by
  cases statement <;> simp only [Statement.moved, Expr.moved_id]

theorem Helper.moved_id (helper : Helper) : helper.moved id = helper := by
  simp only [Helper.moved, Expr.moved_id]

theorem MatchedRule.moved_id (rule : MatchedRule) : rule.moved id = rule := by
  simp only [MatchedRule.moved, Expr.moved_id, OutPattern.moved_id, List.map_id', Option.map_id']

theorem LazyRule.moved_id (rule : LazyRule) : rule.moved id = rule := by
  simp only [LazyRule.moved, OutPattern.moved_id, List.map_id']

theorem CalledRule.moved_id (rule : CalledRule) : rule.moved id = rule := by
  simp only [CalledRule.moved, OutPattern.moved_id, Statement.moved_id, List.map_id']

theorem Transformation.moved_id (t : Transformation) : t.moved id = t := by
  simp only [Transformation.moved, Module.moved, MatchedRule.moved_id, LazyRule.moved_id,
    CalledRule.moved_id, Helper.moved_id, List.map_id']

theorem Setting.moved_id (setting : Setting) : setting.moved id = setting := by
  simp only [Setting.moved, HelperTable.moved, Helper.moved_id, Transformation.moved_id, List.map_id',
    Option.map_id']

theorem Schedule.moved_id (schedule : Schedule) : schedule.moved id = schedule := by
  simp only [Schedule.moved, Application.moved, MatchedRule.moved_id, List.map_id']

mutual

theorem Event.moved_id : ∀ event : Event, event.moved id = event
  | .assignment _ _ _ inner => by
    simp only [Event.moved, Assignment.moved, Expr.moved_id, movedEvents_id inner]
  | .application _ _ _ _ inner => by
    simp only [Event.moved, OutPattern.moved_id, Statement.moved_id, List.map_id', movedEvents_id inner]
  | .lazy _ _ _ _ inner | .called _ _ _ inner => by simp only [Event.moved, movedEvents_id inner]
  | .replayed .. | .unowned .. => rfl

theorem movedEvents_id : ∀ events : List Event, movedEvents id events = events
  | [] => rfl
  | event :: rest => by rw [movedEvents, event.moved_id, movedEvents_id rest]

end

theorem Engine.moved_id (s : Engine) : s.moved id = s := by
  simp only [Engine.moved, Schedule.moved_id, DeferredBinding.moved, Binding.moved_id, movedEvents_id,
    List.map_id', Option.map_id']

/-! What is found by name. -/

section
variable {place} {setting : Setting} {t : Transformation}

theorem HelperTable.module_moved (table : HelperTable) (name : String) :
    (table.moved place).module.get? name = (table.module.get? name).map (·.moved place) :=
  Named.get?_map _ _ _

theorem HelperTable.has_moved (table : HelperTable) (name : String) :
    (table.moved place).has name = table.has name := by
  unfold HelperTable.has HelperTable.moved
  rw [Named.has_map, Named.has_map]

theorem HelperTable.nearest_moved (ancestry : Named Nat) (best : Option (Helper × Nat))
    (helpers : List Helper) :
    nearest ancestry (best.map fun found => (found.1.moved place, found.2)) (helpers.map (·.moved place)) =
      (nearest ancestry best helpers).map (·.moved place) := by
  induction helpers generalizing best with
  | nil => cases best <;> rfl
  | cons h rest ih =>
    have same : distance? ancestry (h.moved place) = distance? ancestry h := rfl
    unfold nearest
    rw [List.map_cons]
    dsimp only
    rw [same]
    cases distance? ancestry h with
    | none => exact ih best
    | some d =>
      have nearer : (best.map fun found => (found.1.moved place, found.2)).all (d < ·.2) =
          best.all (d < ·.2) := by cases best <;> rfl
      dsimp only
      rw [nearer]
      cases best.all (d < ·.2) with
      | true => exact ih (some (h, d))
      | false => exact ih best

theorem HelperTable.lookup_moved (table : HelperTable) (name : String) (ancestry : Named Nat)
    (isAttribute : Option Bool) :
    (table.moved place).lookup name ancestry isAttribute =
      (table.lookup name ancestry isAttribute).map (·.moved place) := by
  have found : (table.moved place).contextual.get? name =
      (table.contextual.get? name).map (List.map (·.moved place)) := Named.get?_map _ _ _
  have all : (((table.moved place).contextual.get? name).getD []) =
      ((table.contextual.get? name).getD []).map (·.moved place) := by
    rw [found]
    cases table.contextual.get? name <;> rfl
  unfold HelperTable.lookup
  rw [all, List.filter_map]
  exact nearest_moved ancestry none _

theorem Module.lazyRule?_moved (m : Module) (name : String) :
    (m.moved place).lazyRule? name = (m.lazyRule? name).map (·.moved place) := by
  unfold Module.lazyRule? Module.moved
  rw [List.find?_map]
  rfl

theorem Module.calledRule?_moved (m : Module) (name : String) :
    (m.moved place).calledRule? name = (m.calledRule? name).map (·.moved place) := by
  unfold Module.calledRule? Module.moved
  rw [List.find?_map]
  rfl

theorem Setting.handle_moved (setting : Setting) : (setting.moved place).handle = setting.handle := by
  unfold Setting.handle Setting.moved
  cases setting.transformation <;> rfl

theorem Setting.rootEnvironment_moved (setting : Setting) (bindings : Named Value) :
    (setting.moved place).rootEnvironment bindings = setting.rootEnvironment bindings := by
  unfold Setting.rootEnvironment
  rw [Setting.handle_moved]

theorem LazyRule.mainOutput_moved (rule : LazyRule) :
    (rule.moved place).mainOutput = rule.mainOutput.moved place := by
  unfold LazyRule.mainOutput LazyRule.moved
  simp only [List.head_map]

end

end Metamorph
