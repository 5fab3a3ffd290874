import Metamorph.Expr.Printer
import Metamorph.Text.Identifier

/-! How the text of an expression groups it. Parentheses stand around binary operations only, so a selector
behind an operator before its operand, or behind a `let`, is in the same place whether it selects from the
whole or from the part at its end. All such expressions have one regrouped form, with the selectors inside. -/
namespace Metamorph

/-- The words that open another form when a space follows them. -/
def reservedWords : List String := ["not", "if", "let"]

/-- What stands between a name, or the type tag of a name, and its value. -/
def bindingSign : List Char := [' ', '=', ' ']

namespace Expr

/-- Forms that end with a part of their own. -/
def isOpen : Expr → Bool
  | .unary .. | .letIn .. => true
  | _ => false

/-- Expressions without real numbers, texts, lambdas, tuples, type names and operations on collections, over
names that can be told from what stands around them and type tags without the sign that ends a tag. -/
inductive Built (source : Expr → Prop) : Expr → Prop
  | numeral (n : Nat) (loc : Location) : Built source (.literal (.integer n) loc)
  | reference {name : String} (word : Text.isIdentifier name = true) (free : name ∉ reservedWords)
      (loc : Location) : Built source (.variable name loc)
  | navigation {e : Expr} {feature : String} (built : Built source e) (fits : source e)
      (word : Text.isIdentifier feature = true) (loc : Location) : Built source (.navigation e feature loc)
  | binary {lhs rhs : Expr} (left : Built source lhs) (right : Built source rhs) (op : BinaryOperator)
      (loc : Location) : Built source (.binary op lhs rhs loc)
  | unary {e : Expr} (built : Built source e) (op : UnaryOperator) (loc : Location) :
      Built source (.unary op e loc)
  | conditional {condition thenBranch elseBranch : Expr} (test : Built source condition)
      (first : Built source thenBranch) (second : Built source elseBranch) (loc : Location) :
      Built source (.conditional condition thenBranch elseBranch loc)
  | letIn {name : String} {init body : Expr} {tag : Option String} (word : Text.isIdentifier name = true)
      (clear : ∀ t ∈ tag, ¬ bindingSign <:+: t.toList) (value : Built source init)
      (scope : Built source body) (loc : Location) : Built source (.letIn name init body tag loc)
  | collection {elements : List Expr} (built : ∀ e ∈ elements, Built source e) (kind : CollectionKind)
      (loc : Location) : Built source (.collection kind elements loc)
  | method {receiver : Expr} {name : String} {args : List Expr} (built : Built source receiver)
      (fits : source receiver) (word : Text.isIdentifier name = true)
      (operands : ∀ e ∈ args, Built source e) (loc : Location) : Built source (.method receiver name args loc)
  | call {name : String} {args : List Expr} (word : Text.isIdentifier name = true)
      (operands : ∀ e ∈ args, Built source e) (loc : Location) : Built source (.call name args loc)

/-- Selectors may stand behind any form. -/
def Plain : Expr → Prop := Built fun _ => True

/-- No selector selects from a form that ends with a part of its own. -/
def Canonical : Expr → Prop := Built (·.isOpen = false)

mutual

/-- The expression without its places and without empty type tags. -/
def bare : Expr → Expr
  | .literal value _ => .literal value {}
  | .variable name _ => .variable name {}
  | .navigation source feature _ => .navigation source.bare feature {}
  | .binary op lhs rhs _ => .binary op lhs.bare rhs.bare {}
  | .unary op operand _ => .unary op operand.bare {}
  | .conditional condition thenBranch elseBranch _ =>
    .conditional condition.bare thenBranch.bare elseBranch.bare {}
  | .letIn name init body tag _ => .letIn name init.bare body.bare (tag.filter (!·.isEmpty)) {}
  | .collection kind elements _ => .collection kind (bareAll elements) {}
  | .method receiver name args _ => .method receiver.bare name (bareAll args) {}
  | .call name args _ => .call name (bareAll args) {}
  | e => e

def bareAll : List Expr → List Expr
  | [] => []
  | e :: rest => e.bare :: bareAll rest

end

/-- Behind a form that ends with a part of its own, that part is selected from. -/
def attach (select : Expr → Expr) : Expr → Expr
  | .unary op operand loc => .unary op (operand.attach select) loc
  | .letIn name init body tag loc => .letIn name init (body.attach select) tag loc
  | e => select e

mutual

/-- The expression with each selector as far inside as its text allows. -/
def regrouped : Expr → Expr
  | .navigation source feature loc => source.regrouped.attach (.navigation · feature loc)
  | .binary op lhs rhs loc => .binary op lhs.regrouped rhs.regrouped loc
  | .unary op operand loc => .unary op operand.regrouped loc
  | .conditional condition thenBranch elseBranch loc =>
    .conditional condition.regrouped thenBranch.regrouped elseBranch.regrouped loc
  | .letIn name init body tag loc => .letIn name init.regrouped body.regrouped tag loc
  | .collection kind elements loc => .collection kind (regroupedAll elements) loc
  | .method receiver name args loc => receiver.regrouped.attach (.method · name (regroupedAll args) loc)
  | .call name args loc => .call name (regroupedAll args) loc
  | e => e

def regroupedAll : List Expr → List Expr
  | [] => []
  | e :: rest => e.regrouped :: regroupedAll rest

end

theorem prettyAll_eq_map (es : List Expr) : prettyAll es = es.map pretty := by
  induction es with
  | nil => rfl
  | cons e rest ih => rw [prettyAll, ih, List.map_cons]

theorem prettyAll_map {change : Expr → Expr} {es : List Expr}
    (same : ∀ e ∈ es, (change e).pretty = e.pretty) : prettyAll (es.map change) = prettyAll es := by
  rw [prettyAll_eq_map, prettyAll_eq_map, List.map_map]
  exact List.map_congr_left same

theorem bareAll_eq_map (es : List Expr) : bareAll es = es.map bare := by
  induction es with
  | nil => rfl
  | cons e rest ih => rw [bareAll, ih, List.map_cons]

theorem regroupedAll_eq_map (es : List Expr) : regroupedAll es = es.map regrouped := by
  induction es with
  | nil => rfl
  | cons e rest ih => rw [regroupedAll, ih, List.map_cons]

@[simp]
theorem attach_of_closed {e : Expr} (closed : e.isOpen = false) (select : Expr → Expr) :
    e.attach select = select e := by
  cases e with
  | unary | letIn => nomatch closed
  | _ => rfl

/-- Where the selector is attached does not show. -/
theorem pretty_attach {select : Expr → Expr} {suffix : String}
    (appends : ∀ e, (select e).pretty = e.pretty ++ suffix) (e : Expr) :
    (e.attach select).pretty = e.pretty ++ suffix := by
  fun_induction attach select e with
  | case1 op operand loc ih => cases op <;> simp only [pretty, ih, String.append_assoc]
  | case2 name init body tag loc ih => simp only [pretty, ih, String.append_assoc]
  | case3 e => exact appends e

/-- The attached selector selects from a form that ends with none of its own. -/
theorem Canonical.attach {select : Expr → Expr}
    (keeps : ∀ e : Expr, e.Canonical → e.isOpen = false → (select e).Canonical) {e : Expr}
    (canonical : e.Canonical) : (e.attach select).Canonical := by
  induction canonical with
  | unary built op loc ih => exact .unary ih op loc
  | letIn word clear value scope loc _ ih => exact .letIn word clear value ih loc
  | numeral n loc => exact keeps _ (.numeral n loc) rfl
  | reference word free loc => exact keeps _ (.reference word free loc) rfl
  | navigation built fits word loc => exact keeps _ (.navigation built fits word loc) rfl
  | binary left right op loc => exact keeps _ (.binary left right op loc) rfl
  | conditional test first second loc => exact keeps _ (.conditional test first second loc) rfl
  | collection built kind loc => exact keeps _ (.collection built kind loc) rfl
  | method built fits word operands loc => exact keeps _ (.method built fits word operands loc) rfl
  | call word operands loc => exact keeps _ (.call word operands loc) rfl

section
variable {e : Expr} {source : Expr → Prop}

theorem Built.pretty_bare (built : e.Built source) : e.bare.pretty = e.pretty := by
  induction built with
  | numeral | reference => rfl
  | navigation built fits word loc ih => simp only [bare, pretty, ih]
  | binary left right op loc ihLeft ihRight => simp only [bare, pretty, ihLeft, ihRight]
  | unary built op loc ih => cases op <;> simp only [bare, pretty, ih]
  | conditional test first second loc ihTest ihFirst ihSecond =>
    simp only [bare, pretty, ihTest, ihFirst, ihSecond]
  | @letIn name init body tag word clear value scope loc ihValue ihScope =>
    have tags : typeTagText (tag.filter (!·.isEmpty)) = typeTagText tag := by
      cases tag with
      | none => rfl
      | some t => cases empty : t.isEmpty <;> simp [typeTagText, Option.filter, empty]
    simp only [bare, pretty, tags, ihValue, ihScope]
  | collection built kind loc ih =>
    rw [bare, pretty, bareAll_eq_map, prettyAll_map ih, pretty]
  | method built fits word operands loc ih ihs =>
    rw [bare, pretty, ih, bareAll_eq_map, prettyAll_map ihs, pretty]
  | call word operands loc ihs => rw [bare, pretty, bareAll_eq_map, prettyAll_map ihs, pretty]

theorem Built.pretty_regrouped (built : e.Built source) : e.regrouped.pretty = e.pretty := by
  induction built with
  | numeral | reference => rfl
  | @navigation e feature built fits word loc ih =>
    have appends (e : Expr) : (Expr.navigation e feature loc).pretty = e.pretty ++ ("." ++ feature) := by
      rw [pretty, String.append_assoc]
    rw [regrouped, pretty_attach appends, ih, pretty, String.append_assoc]
  | binary left right op loc ihLeft ihRight => simp only [regrouped, pretty, ihLeft, ihRight]
  | unary built op loc ih => cases op <;> simp only [regrouped, pretty, ih]
  | conditional test first second loc ihTest ihFirst ihSecond =>
    simp only [regrouped, pretty, ihTest, ihFirst, ihSecond]
  | letIn word clear value scope loc ihValue ihScope => simp only [regrouped, pretty, ihValue, ihScope]
  | collection built kind loc ih => rw [regrouped, pretty, regroupedAll_eq_map, prettyAll_map ih, pretty]
  | @method receiver name args built fits word operands loc ih ihs =>
    have appends (e : Expr) : (Expr.method e name (args.map regrouped) loc).pretty =
        e.pretty ++ ("." ++ name ++ "(" ++ ", ".intercalate (prettyAll args) ++ ")") := by
      simp only [pretty, prettyAll_map ihs, String.append_assoc]
    rw [regrouped, regroupedAll_eq_map, pretty_attach appends, ih, pretty]
    simp only [String.append_assoc]
  | call word operands loc ihs => rw [regrouped, pretty, regroupedAll_eq_map, prettyAll_map ihs, pretty]

theorem Plain.canonical (plain : e.Plain) : e.regrouped.Canonical := by
  induction plain with
  | numeral n loc => exact .numeral n loc
  | reference word free loc => exact .reference word free loc
  | navigation built fits word loc ih =>
    rw [regrouped]
    exact ih.attach fun _ inner closed => .navigation inner closed word loc
  | binary left right op loc ihLeft ihRight => exact .binary ihLeft ihRight op loc
  | unary built op loc ih => exact .unary ih op loc
  | conditional test first second loc ihTest ihFirst ihSecond =>
    exact .conditional ihTest ihFirst ihSecond loc
  | letIn word clear value scope loc ihValue ihScope => exact .letIn word clear ihValue ihScope loc
  | collection built kind loc ih =>
    rw [regrouped, regroupedAll_eq_map]
    exact .collection (List.forall_mem_map.2 ih) kind loc
  | method built fits word operands loc ih ihs =>
    rw [regrouped, regroupedAll_eq_map]
    exact ih.attach fun _ inner closed => .method inner closed word (List.forall_mem_map.2 ihs) loc
  | call word operands loc ihs =>
    rw [regrouped, regroupedAll_eq_map]
    exact .call word (List.forall_mem_map.2 ihs) loc

theorem Canonical.regrouped_eq (canonical : e.Canonical) : e.regrouped = e := by
  have same (es : List Expr) (ih : ∀ e ∈ es, e.regrouped = e) : regroupedAll es = es := by
    rw [regroupedAll_eq_map, List.map_congr_left ih, List.map_id']
  induction canonical with
  | numeral | reference => rfl
  | navigation built closed word loc ih => rw [regrouped, ih, attach_of_closed closed]
  | binary left right op loc ihLeft ihRight => rw [regrouped, ihLeft, ihRight]
  | unary built op loc ih => rw [regrouped, ih]
  | conditional test first second loc ihTest ihFirst ihSecond => rw [regrouped, ihTest, ihFirst, ihSecond]
  | letIn word clear value scope loc ihValue ihScope => rw [regrouped, ihValue, ihScope]
  | collection built kind loc ih => rw [regrouped, same _ ih]
  | method built closed word operands loc ih ihs => rw [regrouped, ih, same _ ihs, attach_of_closed closed]
  | call word operands loc ihs => rw [regrouped, same _ ihs]

end

end Expr

end Metamorph
