import Metamorph.Program.Rule

/-! A whole transformation: its rules and helpers and the models it reads and writes, each under an
alias with the name of its metamodel. -/
namespace Metamorph

structure Module where
  name : String
  sources : Named String
  targets : Named String
  matched : List MatchedRule
  lazy : List LazyRule
  called : List CalledRule
  helpers : List Helper

namespace Module

/-- Rules in the order of their declaration: matched, lazy, called. -/
def rules (m : Module) : List Rule :=
  m.matched.map .matched ++ m.lazy.map .lazy ++ m.called.map .called

def lazyRule? (m : Module) (name : String) : Option LazyRule := m.lazy.find? (·.name == name)

def calledRule? (m : Module) (name : String) : Option CalledRule := m.called.find? (·.name == name)

def duplicateRule (r : Rule) : Fault :=
  .diagnosed (.of (.duplicateDefinition r.name "rule") (.ofLocation r.loc))

def duplicateHelper (h : Helper) : Fault :=
  let place := match h.context with
    | some type => if type.isEmpty then "" else " on " ++ type
    | none => ""
  .diagnosed (.of (.duplicateDefinition (h.name ++ place) "helper") (.ofLocation h.loc))

def repeatedAlias (m : Module) (direction : String) : Fault :=
  .of (.illFormed ("Module '" ++ m.name ++ "' declares a " ++ direction ++ " model alias twice"))

/-- What is wrong with the module as a whole, looked for in this order: a rule name used twice, a
helper declared twice for one context, an alias used twice. -/
def fault? (m : Module) : Option Fault :=
  ((firstRepeat? Rule.name [] m.rules).map duplicateRule) <|>
  ((firstRepeat? (fun h => (h.name, h.context)) [] m.helpers).map duplicateHelper) <|>
  ((firstRepeat? id [] m.sources.names).map fun _ => m.repeatedAlias "source") <|>
  ((firstRepeat? id [] m.targets.names).map fun _ => m.repeatedAlias "target")

def checked (m : Module) : Result Module :=
  match m.fault? with
  | some fault => .error fault
  | none => .ok m

end Module

end Metamorph
