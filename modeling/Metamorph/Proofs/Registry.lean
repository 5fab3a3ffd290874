import Metamorph.Proofs.TraceInverse

/-! The trace as a registry. Whatever applications it was asked to record, and whichever of these it has
refused, it tells of those that it has accepted, in their order and each of them once, also where it
looks them up by a source or by a rule and a source. Where it cannot write down the source in an error, as
that has an Integer of too many digits, another error comes in its place. -/
namespace Metamorph

/-- The error that cites a value, unless the value is too long for a text. -/
def Fault.citing (store : Store) (v : Value) (cause : String → Cause) : Fault :=
  if v.isOverlong then .number .textTooLong else .of (cause (v.render store.label true))

theorem Fault.of_ne {cause other : Cause} (differ : cause ≠ other) : Fault.of cause ≠ .of other := by
  intro same
  injection same with diagnostics
  exact differ (congrArg Diagnostic.cause diagnostics)

theorem cite_bind {α : Type} (store : Store) (v : Value) (cause : String → Cause) :
    (do .error (.of (cause (← store.cite v))) : Result α) = .error (.citing store v cause) := by
  unfold Store.cite Store.textOf Fault.citing
  split <;> rfl

/-- An application to be recorded, with the models as they are then. -/
structure Registration where
  store : Store
  rule : String
  source : Value
  outputs : Outputs
  kind : LinkKind
  productive : outputs ≠ []

namespace Registration
variable {calls : List Registration} {r e : Registration}

def link (r : Registration) : TraceLink where
  rule := r.rule
  source := r.source
  sourceType := r.store.typeTag r.source
  outputs := r.outputs
  kind := r.kind

def pair (r : Registration) : String × Key := (r.rule, r.source.key)

/-- It is of the rule and of a source that equals this one. -/
def isOf (rule : String) (source : Value) (e : Registration) : Bool :=
  e.rule == rule && e.source.same source

/-- It has made something of a source that equals this one for the output, and is of the rule if one is
given. -/
def makes (source : Value) (output : String) (rule : Option String) (e : Registration) : Bool :=
  e.source.same source && (e.outputs.has output && rule.all (e.rule == ·))

/-- What was made for the first output. -/
def first (e : Registration) : Value := (e.outputs.head e.productive).2

/-- One more is accepted if there is none of its rule and its source. -/
def accept (before : List Registration) (r : Registration) : List Registration :=
  if before.any (isOf r.rule r.source) then before else before ++ [r]

def accepted (calls : List Registration) : List Registration := calls.foldl accept []

theorem isOf_iff {rule : String} {source : Value} :
    e.isOf rule source = true ↔ e.pair = (rule, source.key) := by
  simp [isOf, pair, Value.same_eq_key]

theorem defaultTarget?_link (e : Registration) : e.link.defaultTarget? = some e.first := by
  obtain ⟨_, _, _, outputs, _, productive⟩ := e
  cases outputs with
  | nil => exact absurd rfl productive
  | cons output rest => rfl

end Registration

namespace Trace
open Registration
variable {trace : Trace} {entries : List Registration} {r : Registration}

def request (trace : Trace) (r : Registration) : Result (TraceLink × Trace) :=
  trace.register r.store r.rule r.source r.outputs r.kind

/-- The trace after a call, which leaves it as it is if it fails. -/
def after (trace : Trace) (r : Registration) : Trace :=
  match trace.request r with
  | .ok (_, next) => next
  | .error _ => trace

def recording (calls : List Registration) : Trace := calls.foldl after {}

/-- The links are those of the entries, no two of which are of one rule and one source. -/
structure Records (trace : Trace) (entries : List Registration) : Prop where
  links : trace.links = entries.map (·.link)
  unique : trace.Unique

namespace Records
variable (records : trace.Records entries)
include records

theorem apart : (entries.map (·.pair)).Nodup := by
  have unique := records.unique
  rwa [Unique, records.links, List.map_map] at unique

theorem lookup?_eq (rule : String) (source : Value) :
    trace.lookup? rule source = (entries.find? (isOf rule source)).map (·.link) := by
  rw [lookup?, records.links, List.find?_map]
  rfl

theorem linksFor_eq (source : Value) :
    trace.linksFor source = (entries.filter (·.source.same source)).map (·.link) := by
  rw [Trace.linksFor_eq, records.links, List.filter_map]
  rfl

theorem candidates_eq (source : Value) (output : String) (rule : Option String) :
    trace.candidates source output rule =
      (entries.filter (makes source output rule)).map (·.link) := by
  rw [candidates, records.linksFor_eq, List.filter_map, List.filter_filter]
  refine congrArg (List.map _) (List.filter_congr fun e _ => ?_)
  rw [makes, Bool.and_comm]
  rfl

/-- One entry at most is of a rule and a source. -/
theorem filter_isOf (rule : String) (source : Value) :
    entries.filter (isOf rule source) = (entries.find? (isOf rule source)).toList := by
  rw [← List.head?_filter]
  cases chosen : entries.filter (isOf rule source) with
  | nil => rfl
  | cons e rest =>
    have nodup := (List.Nodup.of_map _ records.apart).filter (isOf rule source)
    have member : e ∈ entries.filter (isOf rule source) := chosen ▸ List.mem_cons_self
    rw [List.head?_cons, Option.toList_some, ← chosen]
    refine eq_singleton_of_nodup nodup member fun other present => ?_
    obtain ⟨here, own⟩ := List.mem_filter.1 member
    obtain ⟨there, same⟩ := List.mem_filter.1 present
    exact List.inj_on_of_nodup_map records.apart there here
      ((isOf_iff.1 same).trans (isOf_iff.1 own).symm)

theorem length_makes_le_one (source : Value) (output : String) (rule : String) :
    (entries.filter (makes source output (some rule))).length ≤ 1 := by
  have fewer : (entries.filter (makes source output (some rule))).length ≤
      (entries.filter (isOf rule source)).length := by
    refine (List.monotone_filter_right entries fun e made => ?_).length_le
    simp only [makes, Option.all_some, Bool.and_eq_true] at made
    simp [isOf, made]
  rw [records.filter_isOf] at fewer
  exact Nat.le_trans fewer (Option.length_toList_le)

theorem request_eq (r : Registration) :
    trace.request r = if entries.any (isOf r.rule r.source)
      then .error (.citing r.store r.source (.duplicateTrace r.rule))
      else .ok (r.link, trace.push r.link) := by
  unfold request register
  rw [records.lookup?_eq]
  cases found : entries.find? (isOf r.rule r.source) with
  | none =>
    rw [if_neg]
    · rfl
    · simpa using found
  | some e =>
    rw [if_pos]
    · exact cite_bind r.store r.source (.duplicateTrace r.rule)
    · exact List.any_eq_true.2 ⟨e, List.mem_of_find?_eq_some found, List.find?_some found⟩

/-- A call keeps the trace and the entries in step. -/
theorem after (r : Registration) : (trace.after r).Records (accept entries r) := by
  have answer := records.request_eq r
  unfold Trace.after accept
  by_cases known : entries.any (isOf r.rule r.source) = true
  · rw [if_pos known] at answer ⊢
    rw [answer]
    exact records
  · rw [if_neg known] at answer ⊢
    rw [answer]
    refine ⟨?_, records.unique.register answer⟩
    rw [List.map_append, ← records.links]
    rfl

theorem resolve_eq (store : Store) (source : Value) (output : String) (rule : Option String) :
    trace.resolve store source output rule =
      match entries.filter (makes source output rule) with
      | [] => .error (.citing store source (.missingReference output · rule))
      | [e] => .ok ((e.outputs.get? output).getD .undefined)
      | several => .error (.of (.ambiguousTrace output (several.map (·.rule)))) := by
  unfold resolve
  rw [records.candidates_eq]
  match entries.filter (makes source output rule) with
  | [] => exact cite_bind store source (.missingReference output · rule)
  | [e] => rfl
  | e :: d :: rest => simp [link, Function.comp_def]

end Records

theorem recording_records (calls : List Registration) :
    (recording calls).Records (accepted calls) := by
  suffices stays : ∀ {trace : Trace} {entries : List Registration}, trace.Records entries →
      (calls.foldl Trace.after trace).Records (calls.foldl accept entries) from
    stays ⟨rfl, .nil⟩
  induction calls with
  | nil => exact id
  | cons r rest ih => exact fun records => ih (records.after r)

/-- What the trace tells of is what the entries are. -/
structure Faithful (trace : Trace) (entries : List Registration) : Prop where
  links : trace.links = entries.map (·.link)
  size : trace.size = entries.length
  /-- A call is refused if and only if there is an entry of its rule and its source. -/
  refused : ∀ r, (∃ fault, trace.request r = .error fault) ↔
    ∃ e ∈ entries, e.rule = r.rule ∧ e.source.same r.source = true
  /-- It changes nothing then, and else adds one link at the end. -/
  unchanged : ∀ r fault, trace.request r = .error fault →
    trace.after r = trace ∧ accept entries r = entries ∧
      fault = if r.source.isOverlong then .number .textTooLong
        else .of (.duplicateTrace r.rule (r.source.render r.store.label true))
  added : ∀ r link next, trace.request r = .ok (link, next) →
    trace.after r = next ∧ accept entries r = entries ++ [r] ∧ link = r.link ∧
      next.links = trace.links ++ [link]
  /-- The one entry of a rule and a source is found, if there is any. -/
  found : ∀ rule source, (trace.lookup? rule source).toList =
    (entries.filter fun e => e.rule == rule && e.source.same source).map (·.link)
  ofSource : ∀ source,
    trace.linksFor source = (entries.filter (·.source.same source)).map (·.link)
  /-- What was made for an output is found if there is one entry that has made it, -/
  resolved : ∀ store source output rule target,
    trace.resolve store source output rule = .ok target ↔
      ∃ e, entries.filter (makes source output rule) = [e] ∧ e.outputs.get? output = some target
  /-- it is missing if there is none -/
  missing : ∀ store source output rule, trace.resolve store source output rule =
      .error (if source.isOverlong then .number .textTooLong
        else .of (.missingReference output (source.render store.label true) rule)) ↔
    entries.filter (makes source output rule) = []
  /-- and ambiguous if there are several, which cannot be so for one rule. -/
  ambiguous : ∀ store source output rule, trace.resolve store source output rule =
      .error (.of (.ambiguousTrace output
        ((entries.filter (makes source output rule)).map (·.rule)))) ↔
    1 < (entries.filter (makes source output rule)).length
  single : ∀ source output rule, (entries.filter (makes source output (some rule))).length ≤ 1
  default : ∀ source, (trace.matchedLink? source).map TraceLink.defaultTarget? =
    ((entries.filter (·.source.same source)).find? (·.kind == .matched)).map fun e => some e.first

namespace Records
variable (records : trace.Records entries)
include records

theorem refused_iff (r : Registration) : (∃ fault, trace.request r = .error fault) ↔
    ∃ e ∈ entries, e.rule = r.rule ∧ e.source.same r.source = true := by
  have known : entries.any (isOf r.rule r.source) = true ↔
      ∃ e ∈ entries, e.rule = r.rule ∧ e.source.same r.source = true := by
    simp [isOf]
  rw [records.request_eq, ← known]
  split <;> simp [*]

theorem resolve_cases (store : Store) (source : Value) (output : String) (rule : Option String) :
    (∃ e target, entries.filter (makes source output rule) = [e] ∧
        e.outputs.get? output = some target ∧
        trace.resolve store source output rule = .ok target) ∨
      (entries.filter (makes source output rule) = [] ∧
        trace.resolve store source output rule =
          .error (.citing store source (.missingReference output · rule))) ∨
      (1 < (entries.filter (makes source output rule)).length ∧
        trace.resolve store source output rule = .error (.of (.ambiguousTrace output
          ((entries.filter (makes source output rule)).map (·.rule))))) := by
  have resolved := records.resolve_eq store source output rule
  cases chosen : entries.filter (makes source output rule) with
  | nil =>
    rw [chosen] at resolved
    exact .inr (.inl ⟨rfl, resolved⟩)
  | cons e rest =>
    cases rest with
    | nil =>
      have member : e ∈ entries.filter (makes source output rule) := chosen ▸ List.mem_singleton_self e
      obtain ⟨-, made⟩ := List.mem_filter.1 member
      simp only [makes, Bool.and_eq_true] at made
      obtain ⟨target, found⟩ := Named.get?_of_has made.2.1
      rw [chosen] at resolved
      dsimp only at resolved
      rw [found] at resolved
      exact .inl ⟨e, target, rfl, found, resolved⟩
    | cons d others =>
      rw [chosen] at resolved
      exact .inr (.inr ⟨by simp, resolved⟩)

end Records

theorem Records.faithful (records : trace.Records entries) : trace.Faithful entries where
  links := records.links
  size := by rw [size, records.links, List.length_map]
  refused := records.refused_iff
  unchanged r fault failed := by
    unfold Trace.after accept
    rw [failed]
    rw [records.request_eq] at failed
    split at failed
    · rename_i known
      cases failed
      exact ⟨rfl, if_pos known, rfl⟩
    · cases failed
  added r link next accepted := by
    unfold Trace.after accept
    rw [accepted]
    rw [records.request_eq] at accepted
    split at accepted
    · cases accepted
    · rename_i unknown
      cases accepted
      exact ⟨rfl, if_neg unknown, rfl, rfl⟩
  found rule source := by
    have one := records.filter_isOf rule source
    rw [records.lookup?_eq]
    change _ = (entries.filter (isOf rule source)).map _
    rw [one]
    cases entries.find? (isOf rule source) <;> rfl
  ofSource := records.linksFor_eq
  resolved store source output rule target := by
    obtain ⟨e, made, only, found, ended⟩ | ⟨none, ended⟩ | ⟨several, ended⟩ :=
      records.resolve_cases store source output rule
    · rw [ended, only]
      simp [found, eq_comm]
    · simp [ended, none]
    · rw [ended]
      refine ⟨nofun, fun ⟨e, only, _⟩ => ?_⟩
      simp [only] at several
  missing store source output rule := by
    obtain ⟨e, made, only, found, ended⟩ | ⟨none, ended⟩ | ⟨several, ended⟩ :=
      records.resolve_cases store source output rule
    · simp [ended, only]
    · rw [ended, none]
      exact iff_of_true rfl rfl
    · rw [ended]
      refine iff_of_false (fun same => ?_) (fun none => by simp [none] at several)
      split at same
      · cases same
      · exact absurd (Except.error.inj same) (Fault.of_ne nofun)
  ambiguous store source output rule := by
    obtain ⟨e, made, only, found, ended⟩ | ⟨none, ended⟩ | ⟨several, ended⟩ :=
      records.resolve_cases store source output rule
    · simp [ended, only]
    · rw [ended, none]
      refine iff_of_false (fun same => ?_) (by simp)
      unfold Fault.citing at same
      split at same
      · cases same
      · exact absurd (Except.error.inj same) (Fault.of_ne nofun)
    · exact iff_of_true ended several
  single source output rule := records.length_makes_le_one source output rule
  default source := by
    rw [matchedLink?, records.linksFor_eq, List.find?_map, Option.map_map]
    exact congrArg (Option.map · _) (funext defaultTarget?_link)

end Trace

/-- Whatever applications are asked to be recorded one after the other, and whichever of them are refused,
the trace tells of those of them that repeat no earlier one, in their order. -/
theorem registry_faithful (calls : List Registration) :
    (Trace.recording calls).Faithful (Registration.accepted calls) :=
  (Trace.recording_records calls).faithful

theorem Value.isOverlong_of_le {n : Nat} (enough : Nat.pow 10 digitsOfText ≤ n) :
    (Value.integer n).isOverlong = true := by
  rw [isOverlong, decide_eq_true_iff, Int.natAbs_natCast]
  exact enough

namespace Registration

/-- It is applied to an Integer of one digit too many. -/
def overlong : Registration where
  store := {}
  rule := "R"
  source := .integer (Nat.pow 10 digitsOfText : Nat)
  outputs := [("o", .object 0)]
  kind := .matched
  productive := by simp


end Registration

open Registration in
/-- Nothing was recorded for the source, but that is not what the error says; nor does it say, when the same
application is to be recorded again, that there is one already. -/
theorem overlong_source_uncited :
    (accepted []).filter (makes overlong.source "o" none) = [] ∧
      (Trace.recording []).resolve {} overlong.source "o" none = .error (.number .textTooLong) ∧
      accepted [overlong] = [overlong] ∧
      (Trace.recording [overlong]).request overlong = .error (.number .textTooLong) ∧
      Fault.kind (.number .textTooLong) = "ValueError" := by
  have cited (cause : String → Cause) :
      Fault.citing {} overlong.source cause = .number .textTooLong := if_pos (Value.isOverlong_of_le (Nat.le_refl _))
  have repeated : [overlong].any (isOf overlong.rule overlong.source) = true :=
    List.any_eq_true.2 ⟨overlong, List.mem_singleton_self _, isOf_iff.2 rfl⟩
  refine ⟨rfl, ?_, rfl, ?_, rfl⟩
  · rw [(Trace.recording_records []).resolve_eq]
    exact congrArg Except.error (cited _)
  · have again := (Trace.recording_records [overlong]).request_eq overlong
    rw [show accepted [overlong] = [overlong] from rfl, if_pos repeated] at again
    exact again.trans (congrArg Except.error (cited _))

end Metamorph
