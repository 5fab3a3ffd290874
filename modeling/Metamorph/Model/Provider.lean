import Metamorph.Model.Store

/-! A model as a transformation reaches it. The provider lists, creates and assigns; any of the
three may be one that always fails. -/
namespace Metamorph

structure Refusals where
  objects : Option Fault := none
  create : Option Fault := none
  assign : Option Fault := none

structure Provider where
  model : Nat
  refusals : Refusals := {}

namespace Provider

def refuse {α : Type} (refusal : Option Fault) (answer : Result α) : Result α :=
  match refusal with
  | some fault => .error fault
  | none => answer

def objects (p : Provider) (store : Store) : Result (List Handle) :=
  refuse p.refusals.objects (.ok (store.members p.model))

def create (p : Provider) (store : Store) (type : String) : Result (Handle × Store) :=
  refuse p.refusals.create (store.create p.model type)

def assign (p : Provider) (store : Store) (h : Handle) (feature : String) (v : Value) :
    Result Store :=
  refuse p.refusals.assign (store.set h feature v)

end Provider

end Metamorph
