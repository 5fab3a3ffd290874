import Metamorph.Collection.Iteration
import Metamorph.Operation.OnNumber
import Metamorph.Operation.Operator
import Metamorph.Proofs.Correspondence
import Metamorph.Proofs.SortingMap

/-! Operations on matching values. Whatever an operation comes to, it comes to something that matches if
its operands are replaced by others that match, and it does not heed how types are called. -/
namespace Metamorph

/-- Where the one result is a value so is the other, and the two are related. -/
def Brings {α β : Type} (rel : α → β → Prop) (result : Result α) (other : Result β) : Prop :=
  ∀ a, result = .ok a → ∃ b, other = .ok b ∧ rel a b

namespace Brings
variable {α β γ δ : Type} {rel : α → β → Prop} {rel' : γ → δ → Prop}

theorem ok {a : α} {b : β} (related : rel a b) : Brings rel (.ok a) (.ok b) := by
  rintro _ ⟨⟩
  exact ⟨b, rfl, related⟩

theorem error {fault : Fault} {other : Result β} : Brings rel (.error fault) other := nofun

theorem bind {result : Result α} {other : Result β} {next : α → Result γ} {further : β → Result δ}
    (first : Brings rel result other) (rest : ∀ a b, rel a b → Brings rel' (next a) (further b)) :
    Brings rel' (result >>= next) (other >>= further) := by
  intro c ended
  cases result with
  | error => cases ended
  | ok a =>
    obtain ⟨b, rfl, related⟩ := first a rfl
    exact rest a b related c ended

theorem map {result : Result α} {other : Result β} {f : α → γ} {g : β → δ}
    (first : Brings rel result other) (rest : ∀ a b, rel a b → rel' (f a) (g b)) :
    Brings rel' (result.map f) (other.map g) := by
  intro c ended
  cases result with
  | error => cases ended
  | ok a =>
    cases ended
    obtain ⟨b, rfl, related⟩ := first a rfl
    exact ⟨_, rfl, rest a b related⟩

/-- A result that two operations have in common. -/
theorem same {result other : Result α} (alike : ∀ a, result = .ok a → other = .ok a) :
    Brings Eq result other := fun a ended => ⟨a, alike a ended, rfl⟩

theorem refl (result : Result α) : Brings Eq result result := same fun _ ended => ended

theorem ite {c : Prop} [Decidable c] {first second : Result α} {other further : Result β}
    (yes : Brings rel first other) (no : Brings rel second further) :
    Brings rel (if c then first else second) (if c then other else further) := by
  split
  · exact yes
  · exact no

end Brings

/-- Lists of matching values. -/
abbrev Value.Alike (w : World) : List Value → List Value → Prop := List.Forall₂ (Value.Matches w)

variable {w : World} {u u' v v' : Value} {items items' others others' : List Value}

section
variable (oneToOne : w.OneToOne)
include oneToOne

namespace Value

theorem Matches.beq_key (first : u.Matches w u') (second : v.Matches w v') :
    (u.key == v.key) = (u'.key == v'.key) := by
  rw [Bool.eq_iff_iff, beq_iff_eq, beq_iff_eq]
  exact first.key_iff oneToOne second

theorem Matches.same (first : u.Matches w u') (second : v.Matches w v') : u.same v = u'.same v' := by
  rw [same_eq_key, same_eq_key, first.beq_key oneToOne second]

theorem Matches.isIn (first : v.Matches w v') (found : Alike w items items') :
    v.isIn items = v'.isIn items' := by
  unfold Value.isIn
  induction found with
  | nil => rfl
  | cons next _ ih =>
    dsimp only at ih ⊢
    rw [List.any_cons, List.any_cons, ih, next.beq_key oneToOne first]

/-- The sets hold the keys of the same values. -/
def SameSeen (w : World) (seen seen' : Std.TreeSet Key) : Prop :=
  ∀ v v' : Value, v.Matches w v' → seen.contains v.key = seen'.contains v'.key

theorem SameSeen.insert {seen seen' : Std.TreeSet Key} (same : SameSeen w seen seen')
    (first : u.Matches w u') : SameSeen w (seen.insert u.key) (seen'.insert u'.key) := by
  intro v v' found
  rw [Std.TreeSet.contains_insert, Std.TreeSet.contains_insert, same v v' found]
  have keys := first.key_iff oneToOne found
  congr 1
  rw [Bool.eq_iff_iff]
  simpa [Std.LawfulEqOrd.compare_eq_iff_eq] using keys

theorem unseen_alike {seen seen' : Std.TreeSet Key} (same : SameSeen w seen seen')
    (found : Alike w items items') : Alike w (unseen seen items) (unseen seen' items') := by
  induction found generalizing seen seen' with
  | nil => exact .nil
  | cons first _ ih =>
    rw [unseen, unseen, ← same _ _ first]
    split
    · exact ih same
    · exact .cons first (ih (same.insert oneToOne first))

theorem distinct_alike (found : Alike w items items') :
    Alike w (distinct items) (distinct items') :=
  unseen_alike oneToOne (fun _ _ _ => rfl) found

theorem collectionOf_matches {kind : CollectionKind} (found : Alike w items items') :
    (collectionOf kind items).Matches w (collectionOf kind items') := by
  unfold collectionOf
  refine matches_collection.2 ⟨_, ?_, rfl⟩
  split
  · exact distinct_alike oneToOne found
  · exact found

end Value

namespace Collection
open Value Operation

theorem multiplicity_alike (first : v.Matches w v') (found : Alike w items items') :
    multiplicity v items = multiplicity v' items' := by
  unfold multiplicity
  induction found with
  | nil => rfl
  | cons next _ ih =>
    dsimp only at ih ⊢
    rw [List.countP_cons, List.countP_cons, ih, next.beq_key oneToOne first]

omit oneToOne in
theorem filter_alike {p p' : Value → Bool} (found : Alike w items items')
    (same : ∀ v v', v.Matches w v' → p v = p' v') :
    Alike w (items.filter p) (items'.filter p') := by
  induction found with
  | nil => exact .nil
  | cons next _ ih =>
    rw [List.filter_cons, List.filter_cons, same _ _ next]
    split
    · exact .cons next ih
    · exact ih

theorem excluding_alike (found : Alike w items items') (first : v.Matches w v') :
    Alike w (excluding items v) (excluding items' v') :=
  filter_alike found fun _ _ next => congrArg (!·) (next.beq_key oneToOne first)

theorem contains_ofList_alike (removed : Alike w others others') (first : v.Matches w v') :
    (Std.TreeSet.ofList (others.map Value.key)).contains v.key =
      (Std.TreeSet.ofList (others'.map Value.key)).contains v'.key := by
  rw [Std.TreeSet.contains_ofList, Std.TreeSet.contains_ofList, Bool.eq_iff_iff,
    List.contains_iff_mem, List.contains_iff_mem]
  exact (first.agree oneToOne).mem_iff removed

theorem without_alike (found : Alike w items items') (removed : Alike w others others') :
    Alike w (without items others) (without items' others') :=
  filter_alike found fun _ _ next =>
    congrArg (!·) (contains_ofList_alike oneToOne removed next)

/-- The tables count the keys of the same values alike. -/
def SameCount (w : World) (counts counts' : Std.TreeMap Key Nat) : Prop :=
  ∀ v v' : Value, v.Matches w v' → counts.getD v.key 0 = counts'.getD v'.key 0

theorem paired_alike {counts counts' : Std.TreeMap Key Nat} (same : SameCount w counts counts')
    (found : Alike w items items') : Alike w (paired counts items) (paired counts' items') := by
  induction found generalizing counts counts' with
  | nil => exact .nil
  | @cons x x' _ _ first _ ih =>
    rw [paired, paired, ← same _ _ first]
    cases counts.getD x.key 0 with
    | zero => exact ih same
    | succ left =>
      refine .cons first (ih fun v v' found => ?_)
      rw [Std.TreeMap.getD_insert, Std.TreeMap.getD_insert, same v v' found]
      have keys := first.key_iff oneToOne found
      simp only [Std.LawfulEqOrd.compare_eq_iff_eq, keys]

theorem shared_alike (found : Alike w items items') (with' : Alike w others others') :
    Alike w (shared items others) (shared items' others') := by
  refine paired_alike oneToOne (fun v v' first => ?_) found
  rw [Key.getD_counts, Key.getD_counts]
  exact (first.agree oneToOne).count with'

theorem prepend_alike {kind : CollectionKind} (found : Alike w items items')
    (first : v.Matches w v') : Alike w (prepend kind items v) (prepend kind items' v') := by
  unfold prepend
  split
  · exact .cons first (excluding_alike oneToOne found first)
  · exact .cons first found

theorem position_alike (found : Alike w items items') (first : v.Matches w v') :
    position items v = position items' v' := by
  have index : items.findIdx? (fun item => item.key == v.key) =
      items'.findIdx? fun item => item.key == v'.key := by
    induction found with
    | nil => rfl
    | cons next _ ih => rw [List.findIdx?_cons, List.findIdx?_cons, ih, next.beq_key oneToOne first]
  unfold position
  dsimp only
  rw [index]

omit oneToOne in
theorem at?_alike {typeOf typeOf' : Value → String} (found : Alike w items items')
    (first : v.Matches w v') :
    Brings (Value.Matches w) (at? typeOf items v) (at? typeOf' items' v') := by
  have chosen (n : Nat) {item : Value} (inside : items[n]? = some item) :
      ∃ item', items'[n]? = some item' ∧ item.Matches w item' := by
    obtain ⟨bound, rfl⟩ := List.getElem?_eq_some_iff.1 inside
    have bound' : n < items'.length := found.length_eq ▸ bound
    exact ⟨items'[n], List.getElem?_eq_getElem bound', found.get bound bound'⟩
  cases v with
  | integer i =>
    obtain rfl := matches_integer.1 first
    rw [at?, at?]
    by_cases positive : 1 ≤ i
    · rw [if_pos positive, if_pos positive]
      cases inside : items[(i - 1).toNat]? with
      | none => exact fun _ ended => by cases text : indexText i <;> simp [text] at ended <;> cases ended
      | some item =>
        obtain ⟨item', inside', alike⟩ := chosen _ inside
        rw [inside']
        exact .ok alike
    · rw [if_neg positive]
      exact fun _ ended => by cases text : indexText i <;> simp [text] at ended <;> cases ended
  | _ => exact .error

theorem algebra_alike {typeOf typeOf' : Value → String} {op : Combination}
    {join : List Value → List Value → List Value} {kind : CollectionKind}
    (joins : ∀ {items items' others others'}, Alike w items items' → Alike w others others' →
      Alike w (join items others) (join items' others')) (found : Alike w items items')
    (first : v.Matches w v') : Brings (Value.Matches w) (algebra typeOf op join kind items v)
      (algebra typeOf' op join kind items' v') := by
  cases v with
  | collection otherKind others =>
    obtain ⟨others', alike, rfl⟩ := matches_collection.1 first
    exact .ok (collectionOf_matches oneToOne (joins found alike))
  | _ => exact .error

theorem combine_alike {typeOf typeOf' : Value → String} {op : Combination} {kind : CollectionKind}
    (found : Alike w items items') (first : v.Matches w v') :
    Brings (Value.Matches w) (combine typeOf op kind items v) (combine typeOf' op kind items' v') := by
  have added : Alike w (items ++ [v]) (items' ++ [v']) :=
    List.rel_append found (.cons first .nil)
  cases op with
  | union => exact algebra_alike oneToOne (fun left right => List.rel_append left right) found first
  | intersection =>
    exact algebra_alike oneToOne (fun left right => shared_alike oneToOne left right) found first
  | difference =>
    exact algebra_alike oneToOne (fun left right => without_alike oneToOne left right) found first
  | including | append => exact .ok (collectionOf_matches oneToOne added)
  | excluding => exact .ok (matches_collection.2 ⟨_, excluding_alike oneToOne found first, rfl⟩)
  | includes => exact .ok (by simp [includes, first.isIn oneToOne found])
  | excludes => exact .ok (by simp [includes, first.isIn oneToOne found])
  | count => exact .ok (by simp [multiplicity_alike oneToOne first found])
  | prepend => exact .ok (matches_collection.2 ⟨_, prepend_alike oneToOne found first, rfl⟩)
  | «at» => exact at?_alike found first
  | indexOf => exact .ok (by simp [position_alike oneToOne found first])

end Collection

end

namespace Collection
open Value Operation

def isSingle : Value → Bool
  | .collection _ _ => false
  | _ => true

theorem leaves_single (single : isSingle v = true) : leaves v = [v] := by
  cases v <;> first | (simp [isSingle] at single; done) | simp [leaves]

/-- What holds of values that are no collections, and of a collection if it holds of its items, holds of all. -/
@[elab_as_elim]
theorem nested_induction {motive : Value → Prop} (single : ∀ v, isSingle v = true → motive v)
    (nested : ∀ kind items, (∀ v ∈ items, motive v) → motive (.collection kind items)) (v : Value) :
    motive v := by
  by_cases is : isSingle v = true
  · exact single v is
  · obtain ⟨kind, items, rfl⟩ : ∃ kind items, v = .collection kind items := by
      cases v <;> first | exact ⟨_, _, rfl⟩ | exact absurd rfl is
    refine nested kind items fun inner member => ?_
    have inside := List.sizeOf_lt_of_mem member
    exact nested_induction single nested inner
termination_by sizeOf v
decreasing_by
  subst_vars
  simp only [Value.collection.sizeOf_spec]
  omega

theorem leaf_alike (single : isSingle v = true) (found : v.Matches w v') :
    Alike w (leaves v) (leaves v') := by
  have same : isSingle v' = isSingle v := by apply found.form <;> intros <;> rfl
  rw [leaves_single single, leaves_single (same.trans single)]
  exact .cons found .nil

theorem leavesOfAll_alike (each : ∀ v ∈ items, ∀ v', v.Matches w v' → Alike w (leaves v) (leaves v'))
    (found : Alike w items items') : Alike w (leavesOfAll items) (leavesOfAll items') := by
  induction found with
  | nil => exact .nil
  | cons first _ ih =>
    obtain ⟨own, others⟩ := List.forall_mem_cons.1 each
    rw [leavesOfAll, leavesOfAll]
    exact List.rel_append (own _ first) (ih others)

theorem leaves_alike (oneToOne : w.OneToOne) (v v' : Value) (found : v.Matches w v') :
    Alike w (leaves v) (leaves v') := by
  induction v using nested_induction generalizing v' with
  | single v is => exact leaf_alike is found
  | nested kind items each =>
    obtain ⟨items', alike, rfl⟩ := matches_collection.1 found
    have inner := leavesOfAll_alike each alike
    rw [leaves, leaves]
    split
    · exact distinct_alike oneToOne inner
    · exact inner

section
variable (oneToOne : w.OneToOne)
include oneToOne

theorem flatten_matches {kind : CollectionKind} (found : Alike w items items') :
    (flatten kind items).Matches w (flatten kind items') :=
  collectionOf_matches oneToOne (leavesOfAll_alike (fun v _ => leaves_alike oneToOne v) found)

theorem convert_matches {target kind : CollectionKind} (found : Alike w items items') :
    (convert target kind items).Matches w (convert target kind items') := by
  unfold convert
  split
  · exact matches_collection.2 ⟨_, found, rfl⟩
  · exact collectionOf_matches oneToOne found

end

end Collection

/-! Arithmetic and order. -/
namespace Operation
open Value
variable {typeOf typeOf' : Value → String} {l r : Value}

theorem onIntegers_ok {op : BinaryOperator} {a b : Int} (ended : onIntegers op a b = .ok v) :
    v.isOrderable = true := by
  unfold onIntegers at ended
  split at ended <;> (try split at ended) <;> cases ended <;> rfl

theorem onReals_ok {op : BinaryOperator} {x y : Float} (ended : onReals op x y = .ok v) :
    v.isOrderable = true := by
  unfold onReals at ended
  split at ended <;> (try split at ended) <;> (try cases ended) <;> (try rfl)
  cases rest : remainder x y <;> rw [rest] at ended <;> cases ended
  rfl

/-- Arithmetic is for numbers and texts, and comes to one of these. -/
theorem arithmetic_ok (typeOf' : Value → String) {op : BinaryOperator} (ended : arithmetic typeOf op l r = .ok v) :
    l.isOrderable = true ∧ r.isOrderable = true ∧ v.isOrderable = true ∧
      arithmetic typeOf' op l r = .ok v := by
  unfold arithmetic at ended ⊢
  split at ended
  · cases ended
    exact ⟨rfl, rfl, rfl, rfl⟩
  · exact ⟨rfl, rfl, onIntegers_ok ended, by simpa using ended⟩
  · by_cases numbers : (l.isNumber && r.isNumber) = true
    · rw [if_pos numbers] at ended
      obtain ⟨left, right⟩ := Bool.and_eq_true_iff.1 numbers
      refine ⟨by simp [isOrderable, left], by simp [isOrderable, right], ?_, ?_⟩
      · split at ended
        · cases ended
        · cases first : asReal l <;> rw [first] at ended
          · cases ended
          · cases second : asReal r <;> rw [second] at ended
            · cases ended
            · exact onReals_ok ended
      · rw [if_pos numbers]
        exact ended
    · rw [if_neg numbers] at ended
      cases ended

theorem compare_ok (typeOf' : Value → String) {op : BinaryOperator} {b : Bool} (ended : compare typeOf op l r = .ok b) :
    l.isOrderable = true ∧ r.isOrderable = true ∧ compare typeOf' op l r = .ok b := by
  unfold compare at ended ⊢
  split at ended
  · rename_i sortable
    simp only [Bool.and_eq_true] at sortable
    exact ⟨sortable.1.1, sortable.1.2, by simpa [sortable] using ended⟩
  · cases ended

theorem requireBoolean_ok {op : String} {b : Bool} (ended : requireBoolean typeOf op v = .ok b) :
    v = .boolean b := by
  cases v <;> cases ended
  rfl

section
variable {l' r' : Value} (left : l.Matches w l') (right : r.Matches w r')
include left

theorem requireBoolean_alike {op : String} :
    Brings Eq (requireBoolean typeOf op l) (requireBoolean typeOf' op l') := by
  refine .same fun b ended => ?_
  obtain rfl := requireBoolean_ok ended
  obtain rfl := matches_boolean.1 left
  rfl

include right

theorem arithmetic_alike {op : BinaryOperator} :
    Brings (Value.Matches w) (arithmetic typeOf op l r) (arithmetic typeOf' op l' r') := by
  intro v ended
  obtain ⟨first, second, result, again⟩ := arithmetic_ok typeOf' ended
  rw [left.eq_of_orderable first, right.eq_of_orderable second]
  refine ⟨v, again, (matches_plain ?_).2 rfl⟩
  cases v <;> simp_all [isOrderable, isPlain, Value.isNumber, Value.isString]

theorem compare_alike {op : BinaryOperator} :
    Brings Eq (compare typeOf op l r) (compare typeOf' op l' r') := by
  refine .same fun b ended => ?_
  obtain ⟨first, second, again⟩ := compare_ok typeOf' ended
  rwa [left.eq_of_orderable first, right.eq_of_orderable second]

theorem binary_alike (oneToOne : w.OneToOne) {op : BinaryOperator} :
    Brings (Value.Matches w) (binary typeOf op l r) (binary typeOf' op l' r') := by
  have arithmetical : Brings (Value.Matches w) (arithmetic typeOf op l r)
      (arithmetic typeOf' op l' r') := arithmetic_alike left right
  cases op with
  | eq | ne => exact .ok (by simp [left.same oneToOne right])
  | lt | le | gt | ge => exact (compare_alike left right).map fun _ _ same => by simp [same]
  | and | or | xor | implies =>
    refine (requireBoolean_alike left).bind fun a _ same => ?_
    refine (requireBoolean_alike right).bind fun b _ other => ?_
    subst same
    subst other
    exact .ok (by simp)
  | includes | excludes | union | intersection =>
    cases l with
    | collection kind items =>
      obtain ⟨items', found, rfl⟩ := matches_collection.1 left
      simp only [binary, combination?, BinaryOperator.isComparison, BinaryOperator.isLogical,
        Bool.false_eq_true, if_false]
      exact Collection.combine_alike oneToOne found right
    | _ => exact .error
  | sub | add | mul | div | intDiv | mod =>
    cases l with
    | collection kind items =>
      obtain ⟨items', found, rfl⟩ := matches_collection.1 left
      have difference : Brings (Value.Matches w)
          (Collection.combine typeOf .difference kind items r)
          (Collection.combine typeOf' .difference kind items' r') :=
        Collection.combine_alike oneToOne found right
      first
      | exact difference
      | exact arithmetical
    | integer | real | string =>
      obtain rfl := left.eq_of_orderable rfl
      exact arithmetical
    | _ =>
      intro v ended
      simp only [binary, combination?, BinaryOperator.isComparison, BinaryOperator.isLogical,
        Bool.false_eq_true, if_false] at ended
      exact absurd (arithmetic_ok typeOf' ended).1 (by simp [isOrderable,
        Value.isNumber, Value.isString])

end

theorem unary_alike {op : UnaryOperator} (found : v.Matches w v') :
    Brings (Value.Matches w) (unary typeOf op v) (unary typeOf' op v') := by
  cases op with
  | not => exact (requireBoolean_alike found).map fun _ _ same => by simp [same]
  | neg =>
    cases v with
    | integer | real => simp at found; subst found; exact .ok (by simp)
    | _ => exact .error

/-! Numbers. -/
section
variable {fresh fresh' : Identity} (paired : w.ids fresh fresh')

theorem plain_alike {result : Result Value} (plain : ∀ v, result = .ok v → v.isPlain = true) :
    Brings (Value.Matches w) result result :=
  fun v ended => ⟨v, ended, (matches_plain (plain v ended)).2 rfl⟩

theorem inRange_alike {x : Float} : Brings (Value.Matches w) (inRange x) (inRange x) := by
  unfold inRange
  split
  · exact .error
  · exact .ok (by simp)

include paired

theorem complexPower_alike {x y : Float} :
    Brings (Value.Matches w) (complexPower fresh x y) (complexPower fresh' x y) := by
  unfold complexPower
  dsimp only
  split
  · exact .error
  · exact .ok (matches_complex.2 ⟨fresh', paired, rfl⟩)

theorem realPower_alike {x y : Float} :
    Brings (Value.Matches w) (realPower fresh x y) (realPower fresh' x y) := by
  have real (x : Float) : Brings (Value.Matches w) (.ok (.real x)) (.ok (.real x)) := .ok (by simp)
  exact .ite (real _) <| .ite (real _) <| .ite (real _) <| .ite (real _) <| .ite (real _) <|
    .ite (.ite .error (real _)) <| .ite (.ite inRange_alike (complexPower_alike paired)) <|
      .ite (real _) inRange_alike

theorem power_alike {l r : Value} :
    Brings (Value.Matches w) (power fresh l r) (power fresh' l r) := by
  have reals : Brings (Value.Matches w)
      (do realPower fresh (← asReal l) (← asReal r)) (do realPower fresh' (← asReal l) (← asReal r)) := by
    refine (Brings.refl (asReal l)).bind fun x _ same => ?_
    refine (Brings.refl (asReal r)).bind fun y _ other => ?_
    subst same
    subst other
    exact realPower_alike paired
  unfold power
  split
  · split
    · exact .ok (by simp)
    · exact reals
  · exact reals

end

theorem requireNumber_alike {op : String} (found : v.Matches w v') :
    Brings (fun n n' => n' = n ∧ n = v ∧ v.isNumber = true) (requireNumber typeOf op v)
      (requireNumber typeOf' op v') := by
  unfold requireNumber
  rw [found.isNumber]
  split
  · rename_i number
    exact .ok ⟨found.eq_of_orderable (by simp [isOrderable, number]), rfl, number⟩
  · exact .error

theorem requireInteger_alike {op : String} (found : v.Matches w v') :
    Brings Eq (requireInteger typeOf op v) (requireInteger typeOf' op v') := by
  refine .same fun n ended => ?_
  cases v <;> cases ended
  obtain rfl := matches_integer.1 found
  rfl

theorem requireText_alike {op : String} (found : v.Matches w v') :
    Brings Eq (requireText typeOf op v) (requireText typeOf' op v') := by
  refine .same fun n ended => ?_
  cases v <;> cases ended
  obtain rfl := matches_string.1 found
  rfl

/-- A number, chosen or made of numbers. -/
theorem number_matches (number : v.isNumber = true) : v.Matches w v :=
  (matches_plain (by cases v <;> simp_all [Value.isNumber, isPlain])).2 rfl

theorem floorOf_alike (number : v.isNumber = true) :
    Brings (Value.Matches w) (floorOf v) (floorOf v) := by
  cases v with
  | real x => exact (Brings.refl _).map fun _ _ same => by simp [same]
  | integer n => exact .ok (by simp)
  | _ => simp [Value.isNumber] at number

theorem onNumber_alike {fresh fresh' : Identity} (paired : w.ids fresh fresh') {op : OnNumber}
    (number : v.isNumber = true) (found : Alike w items items') :
    Brings (Value.Matches w) (onNumber typeOf fresh op v items)
      (onNumber typeOf' fresh' op v items') := by
  have self : v.Matches w v := number_matches number
  have chosen (c : Value → Bool) {u u' : Value} (first : u.Matches w u') :
      Brings (Value.Matches w)
        (do let n ← requireNumber typeOf op.text u
            .ok (if c n then n else v))
        (do let n ← requireNumber typeOf' op.text u'
            .ok (if c n then n else v)) := by
    refine (requireNumber_alike first).bind ?_
    rintro n _ ⟨rfl, rfl, number⟩
    refine .ok ?_
    split
    · exact number_matches number
    · exact self
  match items, items', found with
  | _, _, .nil =>
    cases op with
    | abs =>
      refine .ok ?_
      cases v <;> simp_all [magnitudeOf, Value.isNumber]
    | floor => exact floorOf_alike number
    | round =>
      refine (Brings.refl (asReal v)).bind fun x _ same => ?_
      subst same
      exact (Brings.refl (floorOfReal _)).bind fun n _ same => .ok (by simp [same])
    | isEven | isOdd =>
      exact (requireInteger_alike self).bind fun n _ same => .ok (by simp [same])
    | square => exact arithmetic_alike self self
    | _ => exact .error
  | _, _, .cons first .nil =>
    cases op with
    | max => exact chosen (precedes v) first
    | min => exact chosen (precedes · v) first
    | div | mod => exact arithmetic_alike self first
    | power =>
      refine (requireNumber_alike first).bind ?_
      rintro n _ ⟨rfl, -, -⟩
      exact power_alike paired
    | _ => exact .error
  | _, _, .cons _ (.cons _ _) => cases op <;> exact .error

/-! Texts. -/

theorem readLiteral_alike {op : OnText} {expected text : String} {read : Option Value}
    (plain : ∀ v, read = some v → v.isPlain = true) :
    Brings (Value.Matches w) (readLiteral op expected text read) (readLiteral op expected text read) := by
  cases read with
  | none => exact .error
  | some v => exact .ok ((matches_plain (plain v rfl)).2 rfl)

theorem substring_alike {text : String} {low high : Int} :
    Brings (Value.Matches w) (substring text low high) (substring text low high) := by
  refine plain_alike fun v ended => ?_
  unfold substring at ended
  split at ended
  · cases ended
    rfl
  · cases lower : Collection.indexText low <;> rw [lower] at ended
    · cases ended
    · cases upper : Collection.indexText high <;> rw [upper] at ended <;> cases ended

theorem onText_alike {op : OnText} {text : String} (found : Alike w items items') :
    Brings (Value.Matches w) (onText typeOf op text items) (onText typeOf' op text items') := by
  match items, items', found with
  | _, _, .nil =>
    cases op with
    | toInteger | toReal =>
      refine readLiteral_alike fun v read => ?_
      obtain ⟨_, -, rfl⟩ := Option.map_eq_some_iff.1 read
      rfl
    | toSequence =>
      refine .ok (matches_collection.2 ⟨_, List.forall₂_same.2 fun v member => ?_, rfl⟩)
      obtain ⟨_, -, rfl⟩ := List.mem_map.1 member
      simp
    | size | toUpper | toLower | firstToUpper | firstToLower | trim => exact .ok (by simp [changed])
    | _ => exact .error
  | _, _, .cons first .nil =>
    cases op with
    | concat | indexOf | startsWith | endsWith =>
      exact (requireText_alike first).bind fun t _ same => .ok (by subst same; simp)
    | _ => exact .error
  | _, _, .cons first (.cons second .nil) =>
    cases op with
    | substring =>
      refine (requireInteger_alike first).bind fun low _ same => ?_
      refine (requireInteger_alike second).bind fun high _ other => ?_
      subst same
      subst other
      exact substring_alike
    | _ => exact .error
  | _, _, .cons _ (.cons _ (.cons _ _)) => cases op <;> exact .error

end Operation

namespace Collection
open Value Operation
variable {typeOf typeOf' : Value → String}

theorem isNumber_of_asReal {x : Float} (ended : asReal v = .ok x) : v.isNumber = true := by
  cases v <;> first | rfl | cases ended

/-- Numbers alone have a sum, which is one. -/
theorem plus_ok {l r : Value} (ended : plus l r = .ok v) :
    l.isNumber = true ∧ r.isNumber = true ∧ v.isNumber = true := by
  unfold plus at ended
  split at ended
  · cases ended
    exact ⟨rfl, rfl, rfl⟩
  · cases first : asReal l <;> rw [first] at ended
    · cases ended
    · cases second : asReal r <;> rw [second] at ended <;> cases ended
      exact ⟨isNumber_of_asReal first, isNumber_of_asReal second, rfl⟩

theorem plus_alike {l l' r r' : Value} (left : l.Matches w l') (right : r.Matches w r') :
    Brings (Value.Matches w) (plus l r) (plus l' r') := by
  intro v ended
  obtain ⟨first, second, result⟩ := plus_ok ended
  rw [left.eq_of_orderable (by simp [isOrderable, first]), right.eq_of_orderable (by simp [isOrderable, second])]
  refine ⟨v, ended, (matches_plain ?_).2 rfl⟩
  cases v <;> simp_all [isPlain, Value.isNumber]

theorem sumFrom_alike {total total' : Value} (first : total.Matches w total')
    (found : Alike w items items') :
    Brings (Value.Matches w) (sumFrom typeOf total items) (sumFrom typeOf' total' items') := by
  induction found generalizing total total' with
  | nil => exact .ok first
  | cons next _ ih =>
    rw [sumFrom, sumFrom, next.isNumber]
    exact .ite ((plus_alike first next).bind fun _ _ sum => ih sum) .error

theorem head?_alike (found : Alike w items items') :
    (items.head?.getD .undefined).Matches w (items'.head?.getD .undefined) := by
  cases found with
  | nil => simp
  | cons first _ => exact first

theorem query_alike (oneToOne : w.OneToOne) {op : Query} {kind : CollectionKind}
    (found : Alike w items items') :
    Brings (Value.Matches w) (query typeOf op kind items) (query typeOf' op kind items') := by
  have turned : Alike w items.reverse items'.reverse := List.rel_reverse found
  cases op with
  | size => exact .ok (by simp [found.length_eq])
  | isEmpty | notEmpty => exact .ok (by cases found <;> simp)
  | first => exact .ok (head?_alike found)
  | last =>
    refine .ok ?_
    rw [List.getLast?_eq_head?_reverse, List.getLast?_eq_head?_reverse]
    exact head?_alike turned
  | sum => exact sumFrom_alike (by simp) found
  | flatten => exact .ok (flatten_matches oneToOne found)
  | reverse => exact .ok (matches_collection.2 ⟨_, turned, rfl⟩)
  | convert target => exact .ok (convert_matches oneToOne found)

/-! Keys and what they are the keys of. -/

/-- Pairs of matching values. -/
abbrev AlikePairs (w : World) : List (Value × Value) → List (Value × Value) → Prop :=
  List.Forall₂ fun pair other => pair.1.Matches w other.1 ∧ pair.2.Matches w other.2

variable {pairs pairs' : List (Value × Value)}

theorem AlikePairs.keys (found : AlikePairs w pairs pairs') :
    Alike w (pairs.map (·.1)) (pairs'.map (·.1)) :=
  List.forall₂_map_left_iff.2 (List.forall₂_map_right_iff.2 (found.imp fun _ _ both => both.1))

theorem contribution_alike (found : v.Matches w v') : Alike w (contribution v) (contribution v') := by
  cases found using Value.Matches.cases with
  | collection kind items items' alike => exact alike
  | _ => exact .cons ‹_› .nil

theorem collected_alike (found : AlikePairs w pairs pairs') :
    Alike w (pairs.flatMap fun pair => contribution pair.1)
      (pairs'.flatMap fun pair => contribution pair.1) := by
  induction found with
  | nil => exact .nil
  | cons first _ ih =>
    rw [List.flatMap_cons, List.flatMap_cons]
    exact List.rel_append (contribution_alike first.1) ih

theorem sortable_alike (found : Alike w items items') (sortable : unsortable? items = none) :
    items' = items ∧ unsortable? items' = none := by
  have orderable : ∀ v ∈ items, v.isOrderable = true := by
    intro v member
    unfold unsortable? at sortable
    split at sortable
    · rename_i all
      rcases Bool.or_eq_true_iff.1 all with numbers | texts
      · simp [isOrderable, List.all_eq_true.1 numbers v member]
      · simp [isOrderable, List.all_eq_true.1 texts v member]
    · cases last : items.getLast? with
      | none => simp [List.getLast?_eq_none_iff.1 last] at member
      | some last => rw [last] at sortable; cases first : items.find? fun k => !k.isOrderable <;> simp [first] at sortable
  have same : items' = items := by
    clear sortable
    induction found with
    | nil => rfl
    | cons first _ ih =>
      rw [first.eq_of_orderable (orderable _ List.mem_cons_self),
        ih fun v member => orderable v (List.mem_cons_of_mem _ member)]
  exact ⟨same, same ▸ sortable⟩

/-- A key with two matching items. -/
abbrev Keyed (w : World) := { entry : Value × Value × Value // entry.2.1.Matches w entry.2.2 }

theorem AlikePairs.keyed (found : AlikePairs w pairs pairs')
    (same : pairs'.map (·.1) = pairs.map (·.1)) : ∃ entries : List (Keyed w),
    pairs = entries.map (fun entry => (entry.1.1, entry.1.2.1)) ∧
      pairs' = entries.map fun entry => (entry.1.1, entry.1.2.2) := by
  induction found with
  | nil => exact ⟨[], rfl, rfl⟩
  | @cons pair pair' _ _ first _ ih =>
    simp only [List.map_cons, List.cons.injEq] at same
    obtain ⟨entries, rfl, rfl⟩ := ih same.2
    exact ⟨⟨(pair.1, pair.2, pair'.2), first.2⟩ :: entries, rfl, by simp [← same.1]⟩

/-- Where the keys are the same the items are put into the same order. -/
theorem sortByKeys_alike (found : AlikePairs w pairs pairs')
    (same : pairs'.map (·.1) = pairs.map (·.1)) :
    Alike w (sortByKeys pairs) (sortByKeys pairs') := by
  obtain ⟨entries, rfl, rfl⟩ := found.keyed same
  unfold sortByKeys
  rw [Sorting.sort_map, Sorting.sort_map, List.map_map, List.map_map]
  exact List.forall₂_map_left_iff.2 (List.forall₂_map_right_iff.2
    (List.forall₂_same.2 fun entry _ => entry.2))

end Collection

end Metamorph
