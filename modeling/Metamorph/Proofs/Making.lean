import Metamorph.Engine.Pipeline
import Metamorph.Proofs.Evaluation
import Metamorph.Proofs.Storing

/-! Target objects at the moment they are made: new, without values, and the engine's own. -/
namespace Metamorph.Engine
open Run

/-- With one object more, which came from the provider. -/
def owning (h : Handle) (provider : Provider) (store : Store) (s : Engine) : Engine :=
  { s with store, owners := (h, provider) :: s.owners, objectsCreated := s.objectsCreated + 1 }

/-- The value is an object that the engine made. -/
def Owns (s : Engine) (v : Value) : Prop := (s.ownerOf? v).isSome

theorem Owns.mono {s t : Engine} {v : Value} (grown : s.owners <:+ t.owners) (owns : s.Owns v) :
    t.Owns v := by
  obtain ⟨added, owners⟩ := grown
  cases v with
  | object h =>
    have owns : (s.owners.lookup h).isSome := owns
    change (t.owners.lookup h).isSome
    rw [← owners, List.lookup_append]
    simp [owns]
  | _ => cases owns

theorem owns_owning (h : Handle) (provider : Provider) (store : Store) (s : Engine) :
    (owning h provider store s).Owns (.object h) := by
  simp [Owns, ownerOf?, owning]

theorem Owns.object {s : Engine} {v : Value} (owns : s.Owns v) : ∃ h, v = .object h := by
  cases v with
  | object h => exact ⟨h, rfl⟩
  | _ => cases owns

/-- The states agree on the models, the phase, the engine's own objects, what was created for the
schedule, the trace, the memory of lazy rules, the bindings that wait, and the history. -/
structure Idle (s t : Engine) : Prop where
  store : t.store = s.store
  phase : t.phase = s.phase
  owners : t.owners = s.owners
  trace : t.trace = s.trace
  cache : t.cache = s.cache
  lazyApplied : t.lazyApplied = s.lazyApplied
  bindingsEvaluated : t.bindingsEvaluated = s.bindingsEvaluated
  schedule : t.schedule = s.schedule
  created : t.created = s.created
  deferred : t.deferred = s.deferred
  history : t.history = s.history

theorem Idle.refl (s : Engine) : Idle s s := by constructor <;> rfl

theorem Quiet.idle {s t : Engine} (quiet : Quiet s t) : Idle s t := by
  obtain ⟨_, _, _, _, _, _, _, _, _, rfl⟩ := quiet
  constructor <;> rfl

/-- Objects are made by target models. -/
inductive Makes (transformation : Transformation) : Engine → Engine → Prop
  | idle {s t} (idle : Idle s t) : Makes transformation s t
  | trans {s t u} (first : Makes transformation s t) (rest : Makes transformation t u) :
      Makes transformation s u
  | make {s provider type h store}
      (chosen : targetProvider transformation type = .ok provider)
      (created : s.store.create provider.model type = .ok (h, store)) :
      Makes transformation s (owning h provider store s)

/-- Making leaves all but the models and the engine's own objects as they were. -/
theorem Makes.others {transformation : Transformation} {s t : Engine}
    (makes : Makes transformation s t) :
    Idle { s with store := t.store, owners := t.owners } t := by
  induction makes with
  | idle idle => exact { idle with store := rfl, owners := rfl }
  | trans _ _ first rest =>
    exact {
      store := rfl
      phase := rest.phase.trans first.phase
      owners := rfl
      trace := rest.trace.trans first.trace
      cache := rest.cache.trans first.cache
      lazyApplied := rest.lazyApplied.trans first.lazyApplied
      bindingsEvaluated := rest.bindingsEvaluated.trans first.bindingsEvaluated
      schedule := rest.schedule.trans first.schedule
      created := rest.created.trans first.created
      deferred := rest.deferred.trans first.deferred
      history := rest.history.trans first.history }
  | make _ _ => constructor <;> rfl

/-- What is made has no values. -/
theorem Makes.values {transformation : Transformation} {s t : Engine}
    (makes : Makes transformation s t) (h : Handle) (f : String) :
    t.store.value? h f = s.store.value? h f := by
  induction makes with
  | idle idle => rw [idle.store]
  | trans _ _ first rest => rw [rest, first]
  | make _ created => exact Store.value?_create created

/-- The outputs are objects that were made between the two states, one for each pattern, and have no
values yet. -/
structure Fresh (patterns : List OutPattern) (outputs : Outputs) (before : Store) (t : Engine) :
    Prop where
  names : outputs.names = patterns.map (·.name)
  made : ∀ output ∈ outputs, ∃ h cls, output.2 = .object h ∧ before.entities.size ≤ h ∧
    t.Owns (.object h) ∧ t.store.entities[h]? = some (.instance cls [])
  distinct : outputs.Pairwise fun output other => output.2 ≠ other.2

namespace Fresh
variable {patterns : List OutPattern} {outputs : Outputs} {before : Store} {t : Engine}

theorem owned (fresh : Fresh patterns outputs before t) :
    ∀ out ∈ patterns, t.Owns ((outputs.get? out.name).getD .undefined) := by
  intro out declared
  have known : out.name ∈ outputs.names := fresh.names ▸ List.mem_map_of_mem declared
  obtain ⟨v, found⟩ := Named.get?_of_mem_names known
  obtain ⟨h, cls, same, -, owns, -⟩ := fresh.made _ (Named.mem_of_get? found)
  obtain rfl : v = .object h := same
  rwa [found]

end Fresh

section
variable {transformation : Transformation} {s t : Engine}

theorem refuse_eq_ok {α : Type} {refusal : Option Fault} {answer : Result α} {a : α}
    (answered : Provider.refuse refusal answer = .ok a) : answer = .ok a := by
  cases refusal with
  | none => exact answered
  | some fault => cases answered

theorem makeTarget_eq_value {out : OutPattern} {v : Value}
    (ended : makeTarget transformation out s = .value v t) :
    ∃ provider h store, targetProvider transformation out.type = .ok provider ∧
      s.store.create provider.model out.type = .ok (h, store) ∧ v = .object h ∧
      t = owning h provider store s := by
  simp only [makeTarget, bind_eq_value, ofResult_eq_value, state_eq_value, collaborate_eq_value,
    modify_eq_value, pure_eq_value] at ended
  obtain ⟨provider, _, ⟨chosen, rfl⟩, _, _, ⟨rfl, rfl⟩, ⟨h, store⟩, _, ⟨created, rfl⟩, _, _, rfl,
    rfl, rfl⟩ := ended
  exact ⟨provider, h, store, chosen, refuse_eq_ok created, rfl, rfl⟩

def making (transformation : Transformation) : Conduct Engine :=
  .both (Makes transformation) (fun s => .idle (.refl s)) .trans

theorem makeTarget_keeps (out : OutPattern) :
    Keeps (making transformation) (makeTarget transformation out) := by
  intro s
  refine .bind (Keeps.ofResult _ s) fun {provider t} answered => ?_
  obtain ⟨chosen, rfl⟩ := ofResult_eq_value.1 answered
  refine .bind (Keeps.state s) fun {read t} current => ?_
  obtain ⟨rfl, rfl⟩ := state_eq_value.1 current
  refine .bind (Keeps.collaborate _ _ s) fun {made t} answered => ?_
  obtain ⟨accepted, rfl⟩ := collaborate_eq_value.1 answered
  exact Makes.make chosen (refuse_eq_ok accepted)

theorem makeTargets_keeps (patterns : List OutPattern) :
    Keeps (making transformation) (makeTargets transformation patterns) := by
  induction patterns with
  | nil => exact .pure _
  | cons out rest ih => exact .bind (makeTarget_keeps out) fun _ => .bind ih fun _ => .pure _

/-- Objects made for the patterns are new, and those that were there are left alone. -/
theorem makeTargets_fresh {patterns : List OutPattern} {outputs : Outputs}
    (ended : makeTargets transformation patterns s = .value outputs t) :
    Fresh patterns outputs s.store t ∧ s.owners <:+ t.owners ∧
      s.store.entities.size ≤ t.store.entities.size ∧
      ∀ g, g < s.store.entities.size → t.store.entities[g]? = s.store.entities[g]? := by
  induction patterns generalizing s outputs with
  | nil =>
    obtain ⟨rfl, rfl⟩ := pure_eq_value.1 ended
    exact ⟨⟨rfl, by simp, .nil⟩, List.suffix_rfl, Nat.le_refl _, fun _ _ => rfl⟩
  | cons out rest ih =>
    obtain ⟨v, u, first, ended⟩ := bind_eq_value.1 ended
    obtain ⟨others, w, more, ended⟩ := bind_eq_value.1 ended
    obtain ⟨rfl, rfl⟩ := pure_eq_value.1 ended
    obtain ⟨provider, h, store, -, created, rfl, rfl⟩ := makeTarget_eq_value first
    obtain ⟨fresh, owners, size, kept⟩ := ih more
    obtain ⟨rfl, next⟩ := Store.size_create created
    obtain ⟨⟨cls, empty⟩, before⟩ := Store.entities_create created
    have larger : s.store.entities.size + 1 ≤ w.store.entities.size := next ▸ size
    have newest : s.store.entities.size < store.entities.size := by omega
    refine ⟨⟨?_, ?_, ?_⟩, ?_, by omega, ?_⟩
    · rw [List.map_cons, ← fresh.names]
      rfl
    · intro output member
      rcases List.mem_cons.1 member with rfl | later
      · refine ⟨_, cls, rfl, Nat.le_refl _, (owns_owning _ _ _ _).mono owners, ?_⟩
        rw [kept _ newest]
        exact empty
      · obtain ⟨g, cls, same, new, owns, found⟩ := fresh.made output later
        have new : store.entities.size ≤ g := new
        exact ⟨g, cls, same, by omega, owns, found⟩
    · refine List.pairwise_cons.2 ⟨?_, fresh.distinct⟩
      intro other later same
      obtain ⟨g, -, object, new, -, -⟩ := fresh.made other later
      have new : store.entities.size ≤ g := new
      rw [object] at same
      cases same
      omega
    · exact (List.suffix_cons _ _).trans owners
    · intro g earlier
      rw [kept g (Nat.lt_trans earlier newest)]
      exact before g earlier

end

end Metamorph.Engine
